import FrameGraph.Plan.Build
import FrameGraph.Proofs.Pass.Compilation
import FrameGraph.Proofs.Plan.Allocation

/-! # The calls that assemble a graph

The objects of the passes are made on top of the images, pass after pass. Those of one pass rely
on the images only, so they may go in the order in which they came.
-/

namespace FrameGraph

set_option autoImplicit false

open Host

namespace Node

/-- What the nodes own, in the order in which it is destroyed. -/
def allObjects (nodes : List Node) : List Object := nodes.flatMap fun n => n.objects.objects

end Node

namespace Graph

/-- What the graph owns. The objects of the nodes are destroyed in this order. -/
def objects (g : Graph) : List Object := Node.allObjects g.nodes ++ g.images.objects

end Graph

namespace Plan

/-- The nodes for a list of passes, and the calls that made their objects. -/
inductive Compiles (images : ImageMap) : List Pass → List Node → List Call → Prop
  | nil : Compiles images [] [] []
  | cons {p : Pass} {o : PassObjects} {log next : List Call} {rest : List Pass}
      {nodes : List Node} (hPass : p.Compiled images o log)
      (hRest : Compiles images rest nodes next) :
      Compiles images (p :: rest) (.ofPass p o :: nodes) (log ++ next)

/-- The graph of the plan, and the calls that made its images and those that made its nodes. -/
structure Assembled (env : Environment) (p : Plan) (g : Graph)
    (imageCalls nodeCalls : List Call) : Prop where
  usages : ∃ kinds, p.usages.check p.output = .ok kinds
  images : UsageMap.Allocates env.surface p.usages.entries g.images.entries imageCalls
  nodes : Compiles g.images p.passes g.nodes nodeCalls
  output : g.output = p.output
  outputState : g.outputState = p.outputState

/-- Why a plan cannot be assembled with the error, other than because of the device. -/
def Objects (env : Environment) (p : Plan) (e : BuildError) : Prop :=
  p.usages.check p.output = .error e ∨ (∃ kinds, p.usages.check p.output = .ok kinds) ∧
    ∃ (images : ImageMap) (calls : List Call),
      UsageMap.Allocates env.surface p.usages.entries images.entries calls ∧
        (p.passes.mapM fun q => q.check images) = .error e

theorem Compiles.builds {images : ImageMap} {passes : List Pass} {nodes : List Node}
    {log : List Call} {later : List Object} (h : Compiles images passes nodes log)
    (hViews : ∀ n i, images.get? n = some i → i.view.object ∈ later) :
    Log.Builds later log (Node.allObjects nodes) := by
  induction h with
  | nil => exact .nil
  | cons hPass _ ih => exact (hPass.builds hViews).beside ih

theorem Compiles.checks {images : ImageMap} {passes : List Pass} {nodes : List Node}
    {log : List Call} (h : Compiles images passes nodes log) :
    ∃ layouts, (passes.mapM fun p => p.check images) = .ok layouts := by
  apply Traversal.exists_mapM_eq_ok.mpr
  induction h with
  | nil => exact List.forall_mem_nil _
  | cons hPass _ ih => exact List.forall_mem_cons.mpr ⟨hPass.check, ih⟩

theorem sent_giveUp (p : Pass) (nodes : List Node) (e : BuildError) (h : Host) :
    Sent h ((giveUp p nodes e).run h).2 ((Node.allObjects nodes).map .destroy) := by
  have hSent := sent_forM (fun (n : Node) h => sent_destroyAll n.objects.objects h) nodes
    ((report (.passFailed p.name e)).run h).2
  rw [← List.map_flatMap] at hSent
  exact (sent_report _ h).trans hSent

theorem ends_compileAll {images : ImageMap} {later : List Object}
    (hViews : ∀ n i, images.get? n = some i → i.view.object ∈ later) (memory : MemoryTable)
    (passes : List Pass) (nodes : List Node) (h : Host) :
    Ends (compileAll images passes nodes) h
      (fun result log => ∃ new, result = nodes ++ new ∧ Compiles images passes new log)
      fun e log => (∀ before, Log.Builds later before (Node.allObjects nodes) →
          Log.Reverts later (before ++ log)) ∧
        ((passes.mapM fun p => p.check images) = .error e ∨
          ¬ h.device.script.Obliging memory) := by
  -- The nodes that are there were built by whatever calls came before.
  induction passes generalizing nodes h with
  | nil => exact Ends.pure ⟨[], by simp, .nil⟩
  | cons p rest ih =>
    rw [compileAll]
    refine (Ends.onFailure (fun _ => (Node.allObjects nodes).map .destroy)
      (fun e h _ => sent_giveUp p nodes e h)
      ((Pass.ends_compile hViews memory h).mono_failed ?_)).bind ?_
    · rintro e log ⟨hReverts, hReason⟩
      constructor
      · intro before hBefore
        exact .after hBefore (hReverts.mono (List.sublist_append_right _ _))
      · exact hReason.imp_left fun hError => Traversal.mapM_cons_eq_error.mpr (.inl hError)
    · rintro o log h₁ hPass hSent
      have hObjects : Node.allObjects (nodes ++ [.ofPass p o]) =
          Node.allObjects nodes ++ o.objects := by
        simp [Node.allObjects, Node.ofPass]
      refine (ih (nodes ++ [.ofPass p o]) h₁).mono ?_ ?_
      · rintro result next ⟨new, rfl, hNew⟩
        exact ⟨.ofPass p o :: new, by simp, .cons hPass hNew⟩
      · rintro e next ⟨hReverts, hReason⟩
        constructor
        · intro before hBefore
          rw [← List.append_assoc]
          exact hReverts _ (hObjects ▸ hBefore.beside (hPass.builds hViews))
        · rw [hSent.script] at hReason
          exact hReason.imp_left fun hError =>
            Traversal.mapM_cons_eq_error.mpr (.inr ⟨hPass.check, hError⟩)

theorem Assembled.builds {env : Environment} {p : Plan} {g : Graph}
    {imageCalls nodeCalls : List Call} (h : p.Assembled env g imageCalls nodeCalls) :
    Log.Builds [] (imageCalls ++ nodeCalls) g.objects := by
  have hImages : Log.Builds [] imageCalls g.images.objects :=
    g.images.objects_eq ▸ h.images.builds
  refine hImages.append (h.nodes.builds fun n i hImage => ?_)
  rw [List.append_nil]
  exact h.images.view_mem hImage

theorem ends_assemble (env : Environment) (p : Plan) (h : Host) :
    Ends (p.assemble env) h
      (fun g log => ∃ imageCalls nodeCalls, log = imageCalls ++ nodeCalls ∧
        p.Assembled env g imageCalls nodeCalls)
      fun e log => Log.Reverts [] log ∧
        (p.Objects env e ∨ ¬ h.device.script.Obliging env.memory) := by
  refine ((UsageMap.ends_allocate env p.usages p.output h).mono_failed
    fun e log hLog => ⟨hLog.1, hLog.2.imp_left .inl⟩).bind ?_
  rintro images log h₁ ⟨hAllocates, hKinds⟩ hSent
  have hImages := hAllocates.builds_released h₁.device.script
  have hViews : ∀ n i, images.get? n = some i →
      i.view.object ∈ Image.releasedObjects h₁.device.script images.values := fun n i hImage =>
    (Image.releasedObjects_perm _ _).mem_iff.mpr (hAllocates.view_mem hImage)
  have hNodes := ends_compileAll hViews env.memory p.passes [] h₁
  refine (Ends.undoing hImages (fun h₂ hScript => hScript ▸ images.sent_drop h₂)
    (hNodes.mono_failed ?_)).bind ?_
  · rintro e next ⟨hReverts, hReason⟩
    rw [List.append_nil]
    refine ⟨hReverts [] .nil, ?_⟩
    rw [hSent.script] at hReason
    exact hReason.imp_left fun hError => .inr ⟨hKinds, images, log, hAllocates, hError⟩
  · rintro nodes next h₂ ⟨new, rfl, hNew⟩ -
    refine Ends.quietly (sent_report _ _) (Ends.pure ⟨log, next, by simp, ?_⟩)
    exact ⟨hKinds, hAllocates, hNew, rfl, rfl⟩

end Plan

end FrameGraph
