import FrameGraph.Proofs.Graph.Change
import FrameGraph.Proofs.Host.Notices
import FrameGraph.Proofs.Plan.Acceptance
import FrameGraph.Proofs.Plan.Confinement

/-! # Every name has its image

The images of a plan are made for the very names that its passes and its output speak of. So no
pass of a draft ever misses an image, neither while the graph is built nor while it runs, and what
is shown is there unless the draft names nothing to show.
-/

namespace FrameGraph

set_option autoImplicit false

open Host

/-- The error is not about an image that is not there. -/
def BuildError.FindsImages (e : BuildError) : Prop := ∀ pass n, e ≠ .missingImage pass n

/-! ## Building -/

namespace UsageMap

theorem findsImages_kindOf {n : Name} {usage : ImageUsage} {e : BuildError}
    (h : kindOf n usage = .error e) : e.FindsImages := by
  obtain ⟨-, -, rfl⟩ := kindOf_eq_error.mp h
  exact nofun

theorem findsImages_checkOutput {m : UsageMap} {output : Name} {e : BuildError}
    (h : m.checkOutput output = .error e) : e.FindsImages := by
  obtain ⟨-, ⟨-, rfl⟩ | ⟨-, rfl⟩⟩ := checkOutput_eq_error.mp h
  · exact nofun
  · exact nofun

theorem Stuck.findsImages {uses : List (Name × ImageUsage)} {e : BuildError} (h : Stuck uses e) :
    e.FindsImages := by
  rcases h with ⟨u, -, hKind⟩ | ⟨cause, rfl⟩
  · exact findsImages_kindOf hKind
  · exact nofun

end UsageMap

namespace Pass

theorem Compiled.binds {p : Pass} {images : ImageMap} {o : PassObjects} {log : List Call}
    (h : p.Compiled images o log) : ∃ t, p.Binds images t := by
  cases h with
  | bare t hTargets | plain t hTargets | drawing t hTargets =>
    exact ⟨t, bindTargets_eq_ok.mp hTargets⟩

theorem Refused.findsImages {p : Pass} {e : BuildError} (h : p.Refused e) : e.FindsImages := by
  obtain ⟨part, code, rfl⟩ := h
  exact nofun

theorem Rejects.findsImages {p : Pass} {e : BuildError} (h : p.Rejects e) : e.FindsImages := by
  cases h with
  | noTargets | packing => exact nofun

theorem Fails.findsImages {p : Pass} {images : ImageMap} (hCovered : p.Covered images)
    {e : BuildError} (h : p.Fails images e) : e.FindsImages := by
  rcases h with hCheck | hRefused
  · exact ((check_eq_error hCovered).mp hCheck).findsImages
  · exact hRefused.findsImages

theorem covered_resolve {s : StateMap} {p : Pass} {images : ImageMap} :
    (p.resolve s).Covered images ↔ p.Covered images := by
  rw [Covered, uses_resolve, Covered]

theorem mem_resolveAll {s : StateMap} {passes : List Pass} {p : Pass}
    (hp : p ∈ resolveAll s passes) : ∃ q ∈ passes, ∃ s', p = q.resolve s' := by
  induction passes generalizing s with
  | nil => cases hp
  | cons q passes ih =>
    rcases List.mem_cons.mp hp with rfl | hp
    · exact ⟨q, List.mem_cons_self, s, rfl⟩
    · obtain ⟨q', hq', s', rfl⟩ := ih hp
      exact ⟨q', List.mem_cons_of_mem q hq', s', rfl⟩

end Pass

namespace Draft

theorem covered_plan {d : Draft} {s : Surface} {images : ImageMap} {log : List Call}
    (h : UsageMap.Allocates s d.plan.usages.entries images.entries log) :
    ∀ p ∈ d.plan.passes, p.Covered images := by
  intro p hp
  obtain ⟨q, hq, s, rfl⟩ := Pass.mem_resolveAll hp
  exact Pass.covered_resolve.mpr (covered h q hq)

/-- The passes only get to the images when there is one for each of them. -/
theorem assemble_findsImages {d : Draft} {env : Environment} {h : Host} {e : BuildError}
    (hError : ((d.plan.assemble env).run.run h).1 = .error e) : e.FindsImages := by
  rw [Plan.assemble, run_bind] at hError
  rcases (UsageMap.ends_allocate env d.plan.usages d.plan.output h).cases with
    ⟨images, h₁, log, hRun, -, hAllocates, -⟩ | ⟨e', h₁, log, hRun, -⟩
  · rw [hRun] at hError
    have hNodes := Plan.confined_compileAll images (List.Subset.refl d.plan.passes) []
    have hFinds : Confined {} BuildError.FindsImages (Plan.compileAll images d.plan.passes []) :=
      (hNodes.mono fun e hFails => by
        obtain ⟨p, hp, hFails⟩ := hFails
        exact hFails.findsImages (covered_plan hAllocates p hp)).widen
        ⟨fun _ _ => trivial, fun _ _ => trivial, fun _ => trivial⟩
    have hDrop : KeepsTo {} (fun _ => True) images.drop :=
      images.keepsTo_drop.widen ⟨fun _ _ => trivial, fun _ _ => trivial, fun h => h⟩
    refine Confined.error (.bind (.cleaningUp hDrop hFinds) fun nodes => ?_) hError
    exact .always_bind (.report trivial) fun _ _ => .pure _
  · rw [hRun] at hError
    obtain rfl := Except.error.inj hError
    have hAllocate := UsageMap.confined_allocate env d.plan.usages d.plan.output
    rcases hAllocate.error (congrArg Prod.fst hRun) with hOutput | hStuck
    · exact UsageMap.findsImages_checkOutput hOutput
    · exact hStuck.findsImages

end Draft

/-! ## Running -/

namespace Node

/-- All that the node reads is there. -/
def FindsInputs (images : ImageMap) (n : Node) : Prop :=
  ∀ u ∈ n.inputs, ∃ i, images.get? u.name = some i

theorem FindsInputs.notices_eq_nil {images : ImageMap} {n : Node} (h : n.FindsInputs images) :
    n.notices images = [] := by
  rw [notices, List.map_eq_nil_iff, List.filter_eq_nil_iff]
  intro u hu
  obtain ⟨i, hi⟩ := h u (List.mem_of_mem_filter hu)
  simp [NameMap.contains, hi]

end Node

namespace Graph

theorem notices_execute (g : Graph) (buffer : CommandBuffer) (h : Host) :
    ((g.execute buffer).run h).2.notices = h.notices ++ g.notices :=
  (notices_recordAll buffer g.commands _).trans
    (congrArg (fun r => r.2.notices) (run_reportAll g.notices h))

theorem notices_eq_nil {g : Graph} (h : ∀ n ∈ g.nodes, n.FindsInputs g.images) :
    g.notices = [] :=
  List.flatMap_eq_nil_iff.mpr fun n hn => (h n hn).notices_eq_nil

theorem Becomes.findsInputs {g f : Graph} (hBecomes : g.Becomes f)
    (h : ∀ n ∈ g.nodes, n.FindsInputs g.images) : ∀ n ∈ f.nodes, n.FindsInputs f.images := by
  intro m hm u hu
  obtain ⟨n, hn, hNode⟩ := Traversal.exists_left_of_mem hBecomes.nodes hm
  rw [hBecomes.images]
  exact h n hn u (hNode.inputs ▸ hu)

theorem Becomes.outputImage? {g f : Graph} (h : g.Becomes f) :
    f.outputImage? = g.outputImage? := by
  rw [Graph.outputImage?, h.images, h.output, Graph.outputImage?]

end Graph

namespace Plan

theorem Compiles.findsInputs {images : ImageMap} {passes : List Pass} {nodes : List Node}
    {log : List Call} (h : Compiles images passes nodes log) :
    ∀ n ∈ nodes, n.FindsInputs images := by
  induction h with
  | nil => exact List.forall_mem_nil _
  | cons hPass _ ih =>
    obtain ⟨t, hBinds⟩ := hPass.binds
    exact List.forall_mem_cons.mpr ⟨hBinds.inputs, ih⟩

/-- A graph has an image to show unless its draft names none. -/
theorem Assembled.outputImage? {d : Draft} {env : Environment} {g : Graph}
    {imageCalls nodeCalls : List Call} (h : d.plan.Assembled env g imageCalls nodeCalls) :
    g.outputImage? = none ↔ d.output = .placeholder := by
  have hKeys : g.images.keys = d.plan.usages.keys := h.images.names
  have hUsed : (d.plan.usages.get? d.output).isSome = true ↔ d.output ≠ .placeholder :=
    UsageMap.contains_ofPasses.trans (and_iff_left (.inr rfl))
  rw [Graph.outputImage?, h.output, NameMap.get?_eq_none, hKeys, ← NameMap.get?_eq_none,
    ← Option.not_isSome_iff_eq_none]
  exact hUsed.not.trans Classical.not_not

end Plan

/-- Building a draft never fails because an image is missing. A graph of it never reports that a
node reads a foreign image, whatever was done with the graph, and it shows its output unless the
draft has none. -/
theorem Draft.names_have_images (d : Draft) (env : Environment) (h : Host) :
    (∀ pass n, ((d.plan.build env).run h).1 ≠ .error (.missingImage pass n)) ∧
      ∀ g h₁, (d.plan.build env).run h = (.ok g, h₁) →
        ∀ pool operations pool' h₂,
          (Pool.run (pool ++ [some g]) operations).run h₁ = (pool', h₂) →
          ∀ f, pool'.graph? pool.length = some f →
            (∀ buffer h', ((f.execute buffer).run h').2.notices = h'.notices) ∧
              (f.outputImage? = none ↔ d.output = .placeholder) ∧
              ∀ buffer target h',
                (d.output = .placeholder → (f.present buffer target).run h' =
                  ((), { h' with notices := h'.notices ++ [.nothingToPresent] })) ∧
                (d.output ≠ .placeholder →
                  ((f.present buffer target).run h').2.notices = h'.notices) := by
  constructor
  · intro pass n hError
    exact assemble_findsImages hError pass n rfl
  · intro g h₁ hBuilt pool operations pool' h₂ hRun f hGraph
    have hBecomes := Pool.run_becomes hRun hGraph
    obtain ⟨_, _, -, -, hEnd⟩ := d.plan.build_cases env h
    rw [hBuilt] at hEnd
    rcases hEnd with ⟨_, imageCalls, nodeCalls, ⟨⟩, -, hAssembled⟩ | ⟨_, ⟨⟩, -⟩
    have hNone : f.outputImage? = none ↔ d.output = .placeholder :=
      hBecomes.outputImage?.symm ▸ hAssembled.outputImage?
    refine ⟨fun buffer h' => ?_, hNone,
      fun buffer target h' => ⟨fun hOutput => ?_, fun hOutput => ?_⟩⟩
    · rw [f.notices_execute, Graph.notices_eq_nil
        (hBecomes.findsInputs hAssembled.nodes.findsInputs), List.append_nil]
    · rw [Graph.present, hNone.mpr hOutput]
      rfl
    · obtain ⟨i, hi⟩ := Option.ne_none_iff_exists'.mp (hNone.not.mpr hOutput)
      rw [Graph.present, hi]
      exact notices_recordAll buffer _ h'

namespace TwoPasses

theorem finds_images : ∃ g h₁ pool' h₂,
    (draft.plan.build environment).run host = (.ok g, h₁) ∧
    (Pool.run ([] ++ [some g]) [.execute 0 ⟨1⟩]).run h₁ = (pool', h₂) ∧
    ∃ f, pool'.graph? 0 = some f ∧ f.outputImage? ≠ none ∧
      ∀ buffer h', ((f.execute buffer).run h').2.notices = h'.notices := by
  obtain ⟨g, h₁, hBuilt, -⟩ := builds
  obtain ⟨hExecute, hNone, -⟩ := (draft.names_have_images environment host).2 g h₁ hBuilt []
    [.execute 0 ⟨1⟩] _ _ rfl g.ran rfl
  exact ⟨g, h₁, _, _, hBuilt, rfl, g.ran, rfl, hNone.not.mpr (by decide), hExecute⟩

end TwoPasses

end FrameGraph
