import FrameGraph.Proofs.Name.Utf8
import FrameGraph.Proofs.Plan.Allocation
import FrameGraph.Proofs.Plan.Usage

/-! # What is said against usages

A name that is a color target and a depth target cannot have an image. Of several such names the
least is named, unless something is wrong with the output.
-/

namespace FrameGraph

set_option autoImplicit false

open Traversal

/-- What is wrong with the roles, where some names are those of color targets and some those of
depth targets. The output is seen before all other names. -/
inductive RolesFail (color depth : Name → Prop) (output : Name) : BuildError → Prop
  | output (hColor : color output) (hDepth : depth output) :
      RolesFail color depth output (.conflictingRoles output)
  | depthOutput (hColor : ¬ color output) (hDepth : depth output) :
      RolesFail color depth output (.depthOutput output)
  | conflict (hOutput : ¬ depth output) (n : Name) (hColor : color n) (hDepth : depth n)
      (hLeast : ∀ k, color k → depth k → ¬ k.bytes < n.bytes) :
      RolesFail color depth output (.conflictingRoles n)

namespace UsageMap

theorem asks_iff {m : UsageMap} {n : Name} {usage : ImageUsage} (h : m.get? n = some usage)
    (role : ImageState) : m.Asks n role ↔ usage.includes role.usage = true := by
  constructor
  · rintro ⟨u, hUsage, hFlag⟩
    obtain rfl := Option.some.inj (h.symm.trans hUsage)
    exact hFlag
  · intro hFlag
    exact ⟨usage, h, hFlag⟩

theorem kindOf_eq_error {name : Name} {usage : ImageUsage} {e : BuildError} :
    kindOf name usage = .error e ↔ usage.includes .colorTarget = true ∧
      usage.includes .depthTarget = true ∧ e = .conflictingRoles name := by
  unfold kindOf
  cases usage.includes .colorTarget <;> cases usage.includes .depthTarget <;> simp [eq_comm]

theorem exists_kindOf_eq_ok {name : Name} {usage : ImageUsage} :
    (∃ kind, kindOf name usage = .ok kind) ↔
      ¬ (usage.includes .colorTarget = true ∧ usage.includes .depthTarget = true) := by
  unfold kindOf
  cases usage.includes .colorTarget <;> cases usage.includes .depthTarget <;> simp

theorem checkOutput_eq_error {m : UsageMap} {output : Name} {e : BuildError} :
    m.checkOutput output = .error e ↔ m.Asks output .depthTarget ∧
      (m.Asks output .colorTarget ∧ e = .conflictingRoles output ∨
        ¬ m.Asks output .colorTarget ∧ e = .depthOutput output) := by
  unfold checkOutput
  cases hUsage : m.get? output with
  | none =>
    have hNone : ¬ m.Asks output .depthTarget := by
      rintro ⟨u, hSome, -⟩
      rw [hUsage] at hSome
      cases hSome
    simp [hNone]
  | some usage =>
    rw [asks_iff hUsage, asks_iff hUsage]
    simp only [kindOf, ImageState.usage]
    cases usage.includes .colorTarget <;> cases usage.includes .depthTarget <;>
      simp [bind, Except.bind, eq_comm]

theorem checkOutput_eq_ok {m : UsageMap} {output : Name} :
    m.checkOutput output = .ok () ↔ ¬ m.Asks output .depthTarget := by
  constructor
  · intro hOk hDepth
    by_cases hColor : m.Asks output .colorTarget
    · have hError := checkOutput_eq_error.mpr ⟨hDepth, .inl ⟨hColor, rfl⟩⟩
      rw [hOk] at hError
      cases hError
    · have hError := checkOutput_eq_error.mpr ⟨hDepth, .inr ⟨hColor, rfl⟩⟩
      rw [hOk] at hError
      cases hError
  · intro hDepth
    rcases exists_ok_or_error (m.checkOutput output) with ⟨⟨⟩, hOk⟩ | ⟨e, hError⟩
    · exact hOk
    · exact absurd (checkOutput_eq_error.mp hError).1 hDepth

/-- The usages are checked from the output on, and then in the order of names. -/
theorem check_eq_error {m : UsageMap} {output : Name} {e : BuildError} :
    m.check output = .error e ↔
      RolesFail (fun n => m.Asks n .colorTarget) (fun n => m.Asks n .depthTarget) output e := by
  unfold check
  rw [bind_eq_error, checkOutput_eq_error]
  constructor
  · rintro (⟨hDepth, ⟨hColor, rfl⟩ | ⟨hColor, rfl⟩⟩ | ⟨⟨⟩, hOutput, hError⟩)
    · exact .output hColor hDepth
    · exact .depthOutput hColor hDepth
    · obtain ⟨n, usage, hUsage, hKind, hLeast⟩ := NameMap.mapM_eq_error.mp hError
      obtain ⟨hColor, hDepth, rfl⟩ := kindOf_eq_error.mp hKind
      refine .conflict (checkOutput_eq_ok.mp hOutput) n ⟨usage, hUsage, hColor⟩
        ⟨usage, hUsage, hDepth⟩ ?_
      rintro k ⟨u, hu, hColor⟩ hBoth hLess
      have hFine := hLeast k u hu (Name.lt_iff_bytes_lt.mpr hLess)
      exact exists_kindOf_eq_ok.mp hFine ⟨hColor, (asks_iff hu _).mp hBoth⟩
  · rintro (⟨hColor, hDepth⟩ | ⟨hColor, hDepth⟩ | ⟨hOutput, n, hColor, hDepth, hLeast⟩)
    · exact .inl ⟨hDepth, .inl ⟨hColor, rfl⟩⟩
    · exact .inl ⟨hDepth, .inr ⟨hColor, rfl⟩⟩
    · obtain ⟨usage, hUsage, hFlag⟩ := hColor
      have hKind : kindOf n usage = .error (.conflictingRoles n) :=
        kindOf_eq_error.mpr ⟨hFlag, (asks_iff hUsage _).mp hDepth, rfl⟩
      refine .inr ⟨(), checkOutput_eq_ok.mpr hOutput, NameMap.mapM_eq_error.mpr
        ⟨n, usage, hUsage, hKind, ?_⟩⟩
      intro k u hu hLess
      refine exists_kindOf_eq_ok.mpr fun ⟨hColor, hDepth⟩ => ?_
      exact hLeast k ⟨u, hu, hColor⟩ ⟨u, hu, hDepth⟩ (Name.lt_iff_bytes_lt.mp hLess)

theorem exists_check_eq_ok {m : UsageMap} {output : Name} :
    (∃ kinds, m.check output = .ok kinds) ↔ ¬ m.Asks output .depthTarget ∧
      ∀ n, ¬ (m.Asks n .colorTarget ∧ m.Asks n .depthTarget) := by
  constructor
  · rintro ⟨kinds, hOk⟩
    obtain ⟨⟨⟩, hOutput, hKinds⟩ := bind_eq_ok.mp hOk
    refine ⟨checkOutput_eq_ok.mp hOutput, ?_⟩
    rintro n ⟨⟨usage, hUsage, hColor⟩, hDepth⟩
    have hFine := exists_mapM_eq_ok.mp ⟨kinds, hKinds⟩ _ (NameMap.get?_eq_some.mp hUsage)
    exact exists_kindOf_eq_ok.mp hFine ⟨hColor, (asks_iff hUsage _).mp hDepth⟩
  · rintro ⟨hOutput, hRoles⟩
    refine (exists_ok_or_error _).resolve_right ?_
    rintro ⟨e, hError⟩
    cases check_eq_error.mp hError with
    | output _ hDepth | depthOutput _ hDepth => exact hOutput hDepth
    | conflict _ n hColor hDepth => exact hRoles n ⟨hColor, hDepth⟩

end UsageMap

end FrameGraph
