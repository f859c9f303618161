import FrameGraph.Proofs.Layout.Tracking
import FrameGraph.Proofs.Plan.Placeholders
import Mathlib.Data.List.Forall2
import Mathlib.Data.List.Induction

/-! # States of uses

The uses of all passes stand in one row. Planning a draft fills in for each of them the role of the
nearest use of the same name before it, and changes nothing else. So it does not matter which
states the uses had before.
-/

namespace FrameGraph

set_option autoImplicit false

/-- A use of an image in its role. -/
structure Reference where
  use : Use
  role : ImageState

namespace Reference

def name (r : Reference) : Name := r.use.name

def isLive (r : Reference) : Bool := r.use.isLive

/-- The state in which the references leave a name: the role of the last one to it, and the unknown
state without one. -/
inductive Leaves (n : Name) : List Reference → ImageState → Prop
  | unused {refs : List Reference} (hNames : ∀ r ∈ refs, r.name ≠ n) : Leaves n refs .unknown
  | used {before after : List Reference} {r : Reference} (hName : r.name = n)
      (hAfter : ∀ q ∈ after, q.name ≠ n) : Leaves n (before ++ r :: after) r.role

def roleOf (r : Reference) : Name × ImageState := (r.name, r.role)

theorem Leaves.snoc_other {n : Name} {refs : List Reference} {s : ImageState} {r : Reference}
    (h : Leaves n refs s) (hName : r.name ≠ n) : Leaves n (refs ++ [r]) s := by
  cases h with
  | unused hNames =>
    exact .unused (List.forall_mem_append.mpr ⟨hNames, List.forall_mem_singleton.mpr hName⟩)
  | used hUsed hAfter =>
    rw [List.append_assoc, List.cons_append]
    exact .used hUsed
      (List.forall_mem_append.mpr ⟨hAfter, List.forall_mem_singleton.mpr hName⟩)

theorem stateOf_step {r : Reference} (hLive : r.name ≠ .placeholder) (s : StateMap) (n : Name) :
    (s.step r.roleOf).stateOf n = if n = r.name then r.role else s.stateOf n := by
  refine s.stateOf_step r.roleOf n ?_
  rwa [← Bool.not_eq_true, Name.isPlaceholder_iff]

/-- The last roles that a state map has noted are those in which the references leave their
names. -/
theorem leaves_stateOf {refs : List Reference} (hLive : ∀ r ∈ refs, r.name ≠ .placeholder)
    (n : Name) : Leaves n refs ((StateMap.steps {} (refs.map roleOf)).stateOf n) := by
  induction refs using List.reverseRecOn with
  | nil => exact .unused (List.forall_mem_nil _)
  | append_singleton refs r ih =>
    obtain ⟨hRefs, hLast⟩ := List.forall_mem_append.mp hLive
    have hStep := stateOf_step (hLast r List.mem_cons_self)
      (StateMap.steps {} (refs.map roleOf)) n
    rw [List.map_append, StateMap.steps_append]
    change Leaves n _ ((StateMap.step _ r.roleOf).stateOf n)
    rw [hStep]
    by_cases hn : n = r.name
    · rw [if_pos hn]
      exact .used hn.symm (List.forall_mem_nil _)
    · rw [if_neg hn]
      exact (ih hRefs).snoc_other (Ne.symm hn)

end Reference

namespace StateMap

/-- Fills in the states along a row of references. -/
def stampAll : StateMap → List Reference → List Reference
  | _, [] => []
  | s, r :: rest => ⟨s.stamp r.use, r.role⟩ :: stampAll (s.step r.roleOf) rest

theorem stampAll_append (s : StateMap) (refs more : List Reference) :
    s.stampAll (refs ++ more) =
      s.stampAll refs ++ (s.steps (refs.map Reference.roleOf)).stampAll more := by
  induction refs generalizing s with
  | nil => rfl
  | cons r refs ih =>
    rw [List.cons_append, stampAll, ih]
    rfl

theorem stampAll_roles (s : StateMap) (refs : List Reference) :
    (s.stampAll refs).map Reference.roleOf = refs.map Reference.roleOf := by
  induction refs generalizing s with
  | nil => rfl
  | cons r refs ih =>
    have hName : (⟨s.stamp r.use, r.role⟩ : Reference).roleOf = r.roleOf :=
      congrArg (fun n => (n, r.role)) (s.stamp_name r.use)
    rw [stampAll, List.map_cons, ih, hName, List.map_cons]

theorem stampAll_inputs (role : ImageState) (s : StateMap) (us : List Use) :
    s.stampAll (us.map fun u => ⟨u, role⟩) =
      (s.stampUses role us).map fun u => ⟨u, role⟩ := by
  induction us generalizing s with
  | nil => rfl
  | cons u us ih =>
    rw [List.map_cons, stampAll, ih]
    rfl

theorem stampAll_targets {α : Type} (role : ImageState) (s : StateMap) (ts : List (Target α)) :
    s.stampAll (ts.map fun t => ⟨t.toUse, role⟩) =
      (s.stampTargets role ts).map fun t => ⟨t.toUse, role⟩ := by
  induction ts generalizing s with
  | nil => rfl
  | cons t ts ih =>
    rw [List.map_cons, stampAll, ih]
    rfl

theorem stampAll_split {s : StateMap} {refs before after : List Reference} {r : Reference}
    (h : s.stampAll refs = before ++ r :: after) :
    ∃ front q back, refs = front ++ q :: back ∧ before = s.stampAll front ∧
      r = ⟨(s.steps (front.map Reference.roleOf)).stamp q.use, q.role⟩ := by
  induction before generalizing s refs with
  | nil =>
    cases refs with
    | nil => cases h
    | cons q refs =>
      obtain ⟨rfl, -⟩ := List.cons.inj h
      exact ⟨[], q, refs, rfl, rfl, rfl⟩
  | cons b before ih =>
    cases refs with
    | nil => cases h
    | cons q refs =>
      obtain ⟨rfl, hRest⟩ := List.cons.inj h
      obtain ⟨front, q', back, rfl, rfl, rfl⟩ := ih hRest
      exact ⟨q :: front, q', back, rfl, rfl, rfl⟩

/-- A reference is stamped with the state in which those before it leave its name. -/
theorem leaves_of_stampAll {refs before after : List Reference} {r : Reference}
    (hLive : ∀ q ∈ refs, q.name ≠ .placeholder) (h : stampAll {} refs = before ++ r :: after) :
    Reference.Leaves r.name before r.use.initial := by
  obtain ⟨front, q, back, rfl, rfl, rfl⟩ := stampAll_split h
  obtain ⟨hFront, hBack⟩ := List.forall_mem_append.mp hLive
  have hUse : q.use.isLive = true := Use.isLive_iff.mpr (hBack q List.mem_cons_self)
  have hStamped : ∀ p ∈ stampAll {} front, p.name ≠ .placeholder := by
    intro p hp
    have hRole : p.roleOf ∈ front.map Reference.roleOf := by
      rw [← stampAll_roles {} front]
      exact List.mem_map_of_mem hp
    obtain ⟨f, hf, hSame⟩ := List.mem_map.mp hRole
    have hName : f.name = p.name := congrArg Prod.fst hSame
    exact hName ▸ hFront f hf
  have hLeaves := Reference.leaves_stateOf hStamped q.name
  rw [stampAll_roles] at hLeaves
  simpa [stamp, hUse, Reference.name] using hLeaves

end StateMap

namespace Pass

/-- What the pass refers to, in the order in which it gets there: it samples before it draws. -/
def references (p : Pass) : List Reference :=
  p.inputs.map (fun u => ⟨u, .shaderRead⟩) ++
    p.colors.map (fun t => ⟨t.toUse, .colorTarget⟩) ++
    p.depth.toList.map fun t => ⟨t.toUse, .depthTarget⟩

theorem references_roles (p : Pass) : p.references.map Reference.roleOf = p.uses := by
  rw [references, List.map_append, List.map_append, List.map_map, List.map_map, List.map_map]
  rfl

theorem references_live (p : Pass) : p.live.references = p.references.filter Reference.isLive := by
  simp only [references, live, liveInputs, liveColors, liveDepth, List.filter_append,
    List.filter_map, Option.toList_filter]
  rfl

theorem references_resolve (s : StateMap) (p : Pass) :
    (p.resolve s).references = s.stampAll p.references := by
  have hInputs : (p.inputs.map fun u => (⟨u, .shaderRead⟩ : Reference)).map Reference.roleOf =
      p.inputs.map fun u => (u.name, .shaderRead) := by
    rw [List.map_map]
    rfl
  have hColors : (p.colors.map fun t => (⟨t.toUse, .colorTarget⟩ : Reference)).map
      Reference.roleOf = p.colors.map fun t => (t.name, .colorTarget) := by
    rw [List.map_map]
    rfl
  rw [references, references, StateMap.stampAll_append, StateMap.stampAll_append,
    StateMap.stampAll_inputs, StateMap.stampAll_targets, List.map_append, StateMap.steps_append,
    hInputs, hColors]
  congr 1
  cases hDepth : p.depth with
  | none => simp [resolve, hDepth, StateMap.stampAll]
  | some t => simp [resolve, hDepth, StateMap.stampAll]

/-- The references of all passes behind which there is an image. -/
def liveReferences (passes : List Pass) : List Reference :=
  (passes.flatMap references).filter Reference.isLive

theorem liveReferences_eq (passes : List Pass) :
    liveReferences passes = (passes.map live).flatMap references := by
  rw [liveReferences, List.filter_flatMap, List.flatMap_map]
  exact congrArg (passes.flatMap ·) (funext fun p => p.references_live.symm)

theorem liveReferences_roles (passes : List Pass) :
    (liveReferences passes).map Reference.roleOf = (passes.map live).flatMap uses := by
  rw [liveReferences_eq, List.map_flatMap]
  exact congrArg (fun f => (passes.map live).flatMap f) (funext references_roles)

theorem name_of_mem_liveReferences {passes : List Pass} {r : Reference}
    (hr : r ∈ liveReferences passes) : r.name ≠ .placeholder :=
  Use.isLive_iff.mp (List.mem_filter.mp hr).2

theorem references_resolveAll (s : StateMap) (passes : List Pass) :
    (resolveAll s passes).flatMap references = s.stampAll (passes.flatMap references) := by
  induction passes generalizing s with
  | nil => rfl
  | cons p passes ih =>
    rw [resolveAll, List.flatMap_cons, List.flatMap_cons, references_resolve,
      StateMap.stampAll_append, references_roles, ih]
    rfl

theorem liveReferences_resolveAll (s : StateMap) (passes : List Pass) :
    liveReferences (resolveAll s passes) = s.stampAll (liveReferences passes) := by
  rw [liveReferences_eq, ← resolveAll_live, references_resolveAll, liveReferences_eq]

end Pass

/-! ## What stays as it is -/

/-- The second use is the first one up to its state. If there is no image behind it, the state is
the same as well. -/
structure Use.Restated (u v : Use) : Prop where
  name : v.name = u.name
  placeholder : u.name = .placeholder → v = u

structure Target.Restated {α : Type} (t t' : Target α) : Prop where
  use : t.toUse.Restated t'.toUse
  policy : t'.policy = t.policy

/-- The second pass is the first one up to the states of its uses. -/
structure Pass.Restated (p q : Pass) : Prop where
  name : q.name = p.name
  inputs : List.Forall₂ Use.Restated p.inputs q.inputs
  colors : List.Forall₂ Target.Restated p.colors q.colors
  depth : Option.Rel Target.Restated p.depth q.depth
  pipeline : q.pipeline = p.pipeline
  hook : q.hook = p.hook

namespace StateMap

theorem stamp_restated (s : StateMap) (u : Use) : u.Restated (s.stamp u) where
  name := s.stamp_name u
  placeholder hName := if_neg (by simp [Use.isLive_iff, hName])

theorem stampUses_restated (role : ImageState) (s : StateMap) (us : List Use) :
    List.Forall₂ Use.Restated us (s.stampUses role us) := by
  induction us generalizing s with
  | nil => exact .nil
  | cons u us ih => exact .cons (s.stamp_restated u) (ih _)

theorem stampTargets_restated {α : Type} (role : ImageState) (s : StateMap)
    (ts : List (Target α)) : List.Forall₂ Target.Restated ts (s.stampTargets role ts) := by
  induction ts generalizing s with
  | nil => exact .nil
  | cons t ts ih => exact .cons ⟨s.stamp_restated t.toUse, rfl⟩ (ih _)

theorem stamp_congr (s : StateMap) {u v : Use} (h : u.Restated v) : s.stamp v = s.stamp u := by
  by_cases hName : u.name = .placeholder
  · rw [h.placeholder hName]
  · have hLive : v.isLive = true := Use.isLive_iff.mpr (h.name ▸ hName)
    rw [stamp, stamp, if_pos hLive, if_pos (Use.isLive_iff.mpr hName), h.name]

theorem stampUses_congr (role : ImageState) (s : StateMap) {us vs : List Use}
    (h : List.Forall₂ Use.Restated us vs) : s.stampUses role vs = s.stampUses role us := by
  induction h generalizing s with
  | nil => rfl
  | cons hUse _ ih => rw [stampUses, stampUses, s.stamp_congr hUse, ih, hUse.name]

theorem stampTarget_congr {α : Type} (s : StateMap) {t t' : Target α} (h : t.Restated t') :
    ({ t' with toUse := s.stamp t'.toUse } : Target α) = { t with toUse := s.stamp t.toUse } := by
  rw [s.stamp_congr h.use, h.policy]

theorem stampTargets_congr {α : Type} (role : ImageState) (s : StateMap)
    {ts ts' : List (Target α)} (h : List.Forall₂ Target.Restated ts ts') :
    s.stampTargets role ts' = s.stampTargets role ts := by
  induction h generalizing s with
  | nil => rfl
  | cons hTarget _ ih =>
    rw [stampTargets, stampTargets, s.stampTarget_congr hTarget, ih, hTarget.use.name]

end StateMap

namespace Pass

open Traversal

theorem restated_resolve (s : StateMap) (p : Pass) : p.Restated (p.resolve s) where
  name := rfl
  inputs := s.stampUses_restated .shaderRead p.inputs
  colors := StateMap.stampTargets_restated _ _ _
  depth := by
    rw [resolve]
    cases p.depth with
    | none => exact .none
    | some t => exact .some ⟨StateMap.stamp_restated _ t.toUse, rfl⟩
  pipeline := rfl
  hook := rfl

theorem restated_resolveAll (s : StateMap) (passes : List Pass) :
    List.Forall₂ Restated passes (resolveAll s passes) := by
  induction passes generalizing s with
  | nil => exact .nil
  | cons p passes ih => exact .cons (p.restated_resolve s) (ih _)

theorem inputs_congr {us vs : List Use} (h : List.Forall₂ Use.Restated us vs) :
    vs.map (fun u => (u.name, ImageState.shaderRead)) =
      us.map fun u => (u.name, .shaderRead) :=
  map_eq_of_forall₂ (fun _ _ hUse => congrArg (·, ImageState.shaderRead) hUse.name) h

theorem colors_congr {ts ts' : List (Target Color)} (h : List.Forall₂ Target.Restated ts ts') :
    ts'.map (fun t => (t.name, ImageState.colorTarget)) =
      ts.map fun t => (t.name, .colorTarget) :=
  map_eq_of_forall₂ (fun _ _ hTarget => congrArg (·, ImageState.colorTarget) hTarget.use.name) h

theorem Restated.uses {p q : Pass} (h : p.Restated q) : q.uses = p.uses := by
  have hDepth : q.depth.map (fun t => (t.name, ImageState.depthTarget)) =
      p.depth.map fun t => (t.name, .depthTarget) :=
    map_eq_of_rel (fun _ _ hTarget => congrArg (·, ImageState.depthTarget) hTarget.use.name)
      h.depth
  rw [Pass.uses, Pass.uses, inputs_congr h.inputs, colors_congr h.colors, ← Option.toList_map,
    ← Option.toList_map, hDepth]

theorem Restated.resolve {p q : Pass} (h : p.Restated q) (s : StateMap) :
    q.resolve s = p.resolve s := by
  have hDepth : ∀ s : StateMap, q.depth.map (fun t => { t with toUse := s.stamp t.toUse }) =
      p.depth.map fun t => { t with toUse := s.stamp t.toUse } := fun s =>
    map_eq_of_rel (fun _ _ => s.stampTarget_congr) h.depth
  simp only [Pass.resolve, inputs_congr h.inputs, colors_congr h.colors, hDepth, h.name,
    h.pipeline, h.hook, s.stampUses_congr _ h.inputs, StateMap.stampTargets_congr _ _ h.colors]

theorem resolveAll_congr (s : StateMap) {passes others : List Pass}
    (h : List.Forall₂ Restated passes others) : resolveAll s others = resolveAll s passes := by
  induction h generalizing s with
  | nil => rfl
  | cons hPass _ ih =>
    rw [resolveAll, resolveAll, hPass.resolve, leaves, hPass.uses, ih]
    rfl

theorem uses_congr {passes others : List Pass} (h : List.Forall₂ Restated passes others) :
    others.flatMap Pass.uses = passes.flatMap Pass.uses := by
  induction h with
  | nil => rfl
  | cons hPass _ ih => rw [List.flatMap_cons, List.flatMap_cons, hPass.uses, ih]

end Pass

namespace Draft

theorem plan_congr {d : Draft} {passes : List Pass}
    (h : List.Forall₂ Pass.Restated d.passes passes) :
    (Draft.mk passes d.output).plan = d.plan := by
  have hPasses := Pass.resolveAll_congr {} h
  have hUses := Pass.uses_congr h
  simp only [plan, outputState, Pass.leavesAll_eq, UsageMap.ofPasses, hPasses, hUses]

/-- In the plan every use has the role of the nearest earlier use of its name, or is unknown if it
is the first one, and the output is left in the role of its last use. Nothing else of the passes is
changed. What the passes said about states before is forgotten, so planning them once more makes no
difference, and neither does an earlier plan that had other passes around them. -/
theorem plan_states_exact (d : Draft) :
    List.Forall₂ Pass.Restated d.passes d.plan.passes ∧
      (∀ before r after, Pass.liveReferences d.plan.passes = before ++ r :: after →
        Reference.Leaves r.name before r.use.initial) ∧
      Reference.Leaves d.output (Pass.liveReferences d.plan.passes) d.plan.outputState ∧
      (∀ passes, List.Forall₂ Pass.Restated d.passes passes →
        (Draft.mk passes d.output).plan = d.plan) ∧
      ∀ before after output,
        (Draft.mk (((Draft.mk (before ++ d.passes ++ after) output).plan.passes.drop
          before.length).take d.passes.length) d.output).plan = d.plan := by
  have hLive : ∀ r ∈ Pass.liveReferences d.passes, r.name ≠ .placeholder := fun _ =>
    Pass.name_of_mem_liveReferences
  have hStamped : Pass.liveReferences d.plan.passes =
      StateMap.stampAll {} (Pass.liveReferences d.passes) :=
    Pass.liveReferences_resolveAll {} d.passes
  refine ⟨Pass.restated_resolveAll {} d.passes, ?_, ?_, fun passes => plan_congr, ?_⟩
  · intro before r after hSplit
    exact StateMap.leaves_of_stampAll hLive (hStamped ▸ hSplit)
  · have hNames : ∀ r ∈ Pass.liveReferences d.plan.passes, r.name ≠ .placeholder := fun _ =>
      Pass.name_of_mem_liveReferences
    have hLeaves := Reference.leaves_stateOf hNames d.output
    rw [hStamped, StateMap.stampAll_roles, Pass.liveReferences_roles, ← Pass.leavesAll_eq,
      Pass.leavesAll_live, ← hStamped] at hLeaves
    exact hLeaves
  · intro before after output
    have hAll := Pass.restated_resolveAll {} (before ++ d.passes ++ after)
    have hPart := List.forall₂_take d.passes.length (List.forall₂_drop before.length hAll)
    rw [List.append_assoc, List.drop_left, List.take_left] at hPart
    rw [← List.append_assoc] at hPart
    exact plan_congr hPart

end Draft

end FrameGraph
