import FrameGraph.Proofs.Plan.Flags
import FrameGraph.Proofs.Plan.Resolution

/-! # Passes without a common name

The state of a name is up to the roles of that name alone. So passes that have no name in common
find their images in the same states whichever of them comes first, and leave the same states to the
passes after them.
-/

namespace FrameGraph

set_option autoImplicit false

/-- The roles in which the name is used, in the order of the uses. -/
def rolesOf (n : Name) (uses : List (Name × ImageState)) : List ImageState :=
  (uses.filter fun use => use.1 = n).map Prod.snd

section Roles

variable {n : Name}

theorem rolesOf_append (uses more : List (Name × ImageState)) :
    rolesOf n (uses ++ more) = rolesOf n uses ++ rolesOf n more := by
  rw [rolesOf, List.filter_append, List.map_append, rolesOf, rolesOf]

theorem rolesOf_cons_self (role : ImageState) (uses : List (Name × ImageState)) :
    rolesOf n ((n, role) :: uses) = role :: rolesOf n uses := by
  rw [rolesOf, List.filter_cons_of_pos (by simp), List.map_cons, rolesOf]

theorem rolesOf_cons_other {use : Name × ImageState} (h : use.1 ≠ n)
    (uses : List (Name × ImageState)) : rolesOf n (use :: uses) = rolesOf n uses := by
  rw [rolesOf, List.filter_cons_of_neg (by simpa using h), rolesOf]

theorem rolesOf_eq_nil {uses : List (Name × ImageState)} (h : n ∉ uses.map Prod.fst) :
    rolesOf n uses = [] := by
  rw [rolesOf, List.map_eq_nil_iff, List.filter_eq_nil_iff]
  intro use hUse hName
  exact h (List.mem_map.mpr ⟨use, hUse, by simpa using hName⟩)

end Roles

namespace StateMap

theorem step_placeholder {use : Name × ImageState} (h : use.1 = .placeholder) (s : StateMap) :
    s.step use = s := if_pos (Name.isPlaceholder_iff.mpr h)

/-- The last role of a name is its state. -/
theorem stateOf_steps (s : StateMap) (uses : List (Name × ImageState)) {n : Name}
    (hName : n ≠ .placeholder) :
    (s.steps uses).stateOf n = (rolesOf n uses).getLastD (s.stateOf n) := by
  induction uses generalizing s with
  | nil => rfl
  | cons use uses ih =>
    obtain ⟨m, role⟩ := use
    have hSteps : s.steps ((m, role) :: uses) = (s.step (m, role)).steps uses := rfl
    rw [hSteps, ih]
    by_cases hPlaceholder : m = .placeholder
    · rw [step_placeholder hPlaceholder, rolesOf_cons_other]
      exact fun hSame => hName (hSame.symm.trans hPlaceholder)
    · have hLive : m.isPlaceholder = false := by
        rwa [← Bool.not_eq_true, Name.isPlaceholder_iff]
      rw [stateOf_step s (m, role) n hLive]
      by_cases hSame : n = m
      · subst hSame
        rw [if_pos rfl, rolesOf_cons_self, List.getLastD_cons]
      · rw [if_neg hSame, rolesOf_cons_other (Ne.symm hSame)]

theorem stateOf_steps_placeholder (s : StateMap) (uses : List (Name × ImageState)) :
    (s.steps uses).stateOf .placeholder = s.stateOf .placeholder := by
  induction uses generalizing s with
  | nil => rfl
  | cons use uses ih =>
    refine (ih (s.step use)).trans ?_
    by_cases hPlaceholder : use.1 = .placeholder
    · rw [step_placeholder hPlaceholder]
    · have hLive : use.1.isPlaceholder = false := by
        rwa [← Bool.not_eq_true, Name.isPlaceholder_iff]
      rw [stateOf_step s use _ hLive, if_neg (Ne.symm hPlaceholder)]

/-- The maps have the same states for the names. -/
def Agree (names : List Name) (s t : StateMap) : Prop :=
  ∀ n ∈ names, n ≠ .placeholder → s.stateOf n = t.stateOf n

section Agreement

variable {s t : StateMap} {names : List Name}

theorem Agree.mono {fewer : List Name} (h : Agree names s t) (hFewer : fewer ⊆ names) :
    Agree fewer s t := fun n hn => h n (hFewer hn)

theorem Agree.steps (h : Agree names s t) (uses : List (Name × ImageState)) :
    Agree names (s.steps uses) (t.steps uses) := by
  intro n hn hName
  rw [stateOf_steps s uses hName, stateOf_steps t uses hName, h n hn hName]

/-- Uses of other names do not matter. -/
theorem agree_steps (s : StateMap) {uses : List (Name × ImageState)}
    (h : ∀ n ∈ names, n ≠ .placeholder → n ∉ uses.map Prod.fst) : Agree names (s.steps uses) s := by
  intro n hn hName
  rw [stateOf_steps s uses hName, rolesOf_eq_nil (h n hn hName)]
  rfl

theorem stamp_agree {u : Use} (h : Agree [u.name] s t) : s.stamp u = t.stamp u := by
  by_cases hLive : u.isLive = true
  · rw [stamp, stamp, if_pos hLive, if_pos hLive,
      h u.name List.mem_cons_self (Use.isLive_iff.mp hLive)]
  · rw [stamp, stamp, if_neg hLive, if_neg hLive]

theorem stampUses_agree (role : ImageState) {us : List Use} (h : Agree (us.map Use.name) s t) :
    s.stampUses role us = t.stampUses role us := by
  induction us generalizing s t with
  | nil => rfl
  | cons u us ih =>
    have hHead : s.stamp u = t.stamp u := stamp_agree (h.mono (by simp))
    have hTail := (h.steps [(u.name, role)]).mono (List.subset_cons_self _ _)
    rw [stampUses, stampUses, hHead]
    exact congrArg _ (ih hTail)

theorem stampTargets_agree {α : Type} (role : ImageState) {ts : List (Target α)}
    (h : Agree (ts.map fun t => t.name) s t) :
    s.stampTargets role ts = t.stampTargets role ts := by
  induction ts generalizing s t with
  | nil => rfl
  | cons target ts ih =>
    have hHead : s.stamp target.toUse = t.stamp target.toUse := stamp_agree (h.mono (by simp))
    have hTail := (h.steps [(target.name, role)]).mono (List.subset_cons_self _ _)
    rw [stampTargets, stampTargets, hHead]
    exact congrArg _ (ih hTail)

end Agreement

end StateMap

namespace Pass

open StateMap

def names (p : Pass) : List Name := p.uses.map Prod.fst

/-- The passes have no name in common. -/
def Apart (p q : Pass) : Prop := ∀ n, n ≠ .placeholder → n ∈ p.names → n ∉ q.names

theorem Apart.symm {p q : Pass} (h : p.Apart q) : q.Apart p :=
  fun n hName hq hp => h n hName hp hq

variable {s t : StateMap}

theorem resolve_agree {p : Pass} (h : Agree p.names s t) : p.resolve s = p.resolve t := by
  have hNames : p.names = p.inputs.map Use.name ++ p.colors.map (fun t => t.name) ++
      p.depth.toList.map fun t => t.name := by
    simp [names, uses, Function.comp_def]
  rw [hNames] at h
  have hInputs : Agree (p.inputs.map Use.name) s t := h.mono (by simp)
  have hColors : Agree (p.colors.map fun t => t.name) s t := h.mono (by simp)
  have hDepth : Agree (p.depth.toList.map fun t => t.name) s t := h.mono (by simp)
  simp only [resolve]
  rw [stampUses_agree _ hInputs, stampTargets_agree _ (hColors.steps _)]
  cases hTarget : p.depth with
  | none => rfl
  | some target =>
    rw [hTarget] at hDepth
    rw [Option.map_some, Option.map_some, stamp_agree ((hDepth.steps _).steps _)]

theorem resolveAll_agree {passes : List Pass} (h : ∀ names, Agree names s t) :
    resolveAll s passes = resolveAll t passes := by
  induction passes generalizing s t with
  | nil => rfl
  | cons p passes ih =>
    rw [resolveAll, resolveAll, resolve_agree (h _)]
    exact congrArg _ (ih fun names => (h names).steps p.uses)

theorem resolveAll_append (s : StateMap) (passes more : List Pass) :
    resolveAll s (passes ++ more) =
      resolveAll s passes ++ resolveAll (leavesAll s passes) more := by
  induction passes generalizing s with
  | nil => rfl
  | cons p passes ih =>
    rw [List.cons_append, resolveAll, ih, resolveAll]
    rfl

variable {p q : Pass} (hApart : p.Apart q)

include hApart

theorem Apart.resolve (s : StateMap) : q.resolve (p.leaves s) = q.resolve s :=
  resolve_agree (s.agree_steps fun n hn hName hp => hApart n hName hp hn)

/-- Only one of the passes has the name, if any has. -/
theorem Apart.roles {n : Name} (hName : n ≠ .placeholder) :
    rolesOf n (q.uses ++ p.uses) = rolesOf n (p.uses ++ q.uses) := by
  rw [rolesOf_append, rolesOf_append]
  by_cases hp : n ∈ p.names
  · rw [rolesOf_eq_nil (hApart n hName hp), List.nil_append, List.append_nil]
  · rw [rolesOf_eq_nil hp, List.nil_append, List.append_nil]

theorem Apart.stateOf (s : StateMap) (n : Name) :
    (s.steps (q.uses ++ p.uses)).stateOf n = (s.steps (p.uses ++ q.uses)).stateOf n := by
  by_cases hName : n = .placeholder
  · rw [hName, stateOf_steps_placeholder, stateOf_steps_placeholder]
  · rw [stateOf_steps s _ hName, stateOf_steps s _ hName, hApart.roles hName]

theorem Apart.leaves (s : StateMap) (names : List Name) :
    Agree names ((q.leaves s).steps p.uses) ((p.leaves s).steps q.uses) := by
  intro n _ _
  have hStates := hApart.stateOf s n
  rwa [steps_append, steps_append] at hStates

theorem Apart.roles_swap (before after : List Pass) {n : Name} (hName : n ≠ .placeholder) :
    rolesOf n ((before ++ q :: p :: after).flatMap uses) =
      rolesOf n ((before ++ p :: q :: after).flatMap uses) := by
  have hPair : ∀ first second : Pass, (before ++ first :: second :: after).flatMap uses =
      before.flatMap uses ++ ((first.uses ++ second.uses) ++ after.flatMap uses) := by
    intro first second
    rw [List.flatMap_append, List.flatMap_cons, List.flatMap_cons, List.append_assoc]
  rw [hPair, hPair, rolesOf_append, rolesOf_append, hApart.roles hName, ← rolesOf_append,
    ← rolesOf_append]

/-- The states that the passes find are exchanged with them, and those of all others stay. -/
theorem Apart.resolveAll_swap (before after : List Pass) : ∃ before' p' q' after',
    before'.length = before.length ∧
      resolveAll {} (before ++ p :: q :: after) = before' ++ p' :: q' :: after' ∧
      resolveAll {} (before ++ q :: p :: after) = before' ++ q' :: p' :: after' := by
  have hAfter : resolveAll ((q.leaves (leavesAll {} before)).steps p.uses) after =
      resolveAll ((p.leaves (leavesAll {} before)).steps q.uses) after :=
    resolveAll_agree (hApart.leaves _)
  refine ⟨resolveAll {} before, p.resolve (leavesAll {} before), q.resolve (leavesAll {} before),
    resolveAll ((p.leaves (leavesAll {} before)).steps q.uses) after, ?_, ?_, ?_⟩
  · exact (restated_resolveAll {} before).length_eq.symm
  · rw [resolveAll_append, resolveAll, resolveAll, hApart.resolve]
    rfl
  · rw [resolveAll_append, resolveAll, resolveAll, hApart.symm.resolve, ← hAfter]
    rfl

end Pass

namespace Draft

open Pass

variable {p q : Pass} (hApart : p.Apart q) (before after : List Pass) (output : Name)

include hApart

theorem outputState_swap : (Draft.mk (before ++ q :: p :: after) output).plan.outputState =
    (Draft.mk (before ++ p :: q :: after) output).plan.outputState := by
  change (leavesAll {} _).stateOf output = (leavesAll {} _).stateOf output
  rw [leavesAll_eq, leavesAll_eq]
  by_cases hName : output = .placeholder
  · rw [hName, StateMap.stateOf_steps_placeholder, StateMap.stateOf_steps_placeholder]
  · rw [StateMap.stateOf_steps _ _ hName, StateMap.stateOf_steps _ _ hName,
      hApart.roles_swap before after hName]

omit hApart in
theorem usages_swap : (Draft.mk (before ++ q :: p :: after) output).plan.usages =
    (Draft.mk (before ++ p :: q :: after) output).plan.usages := by
  have hPerm : (before ++ q :: p :: after).Perm (before ++ p :: q :: after) :=
    (List.Perm.swap p q after).append_left before
  exact UsageMap.ofPasses_congr fun n _ role => (hPerm.flatMap_right _).mem_iff

end Draft

end FrameGraph
