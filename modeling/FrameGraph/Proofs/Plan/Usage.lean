import FrameGraph.Plan.Roles
import FrameGraph.Proofs.Name.Map

/-! # What names are used for

The usage of a name has a flag exactly if some use of the name asks for it. So the flags of a
target tell whether some pass draws into the image, and as what.
-/

namespace FrameGraph

set_option autoImplicit false

namespace ImageUsage

theorem includes_iff {a b : ImageUsage} {i : Nat} (hFlag : b.bits = BitVec.twoPow 32 i)
    (hWidth : i < 32) : a.includes b = true ↔ a.bits.getLsbD i = true := by
  unfold includes
  rw [beq_iff_eq, hFlag, BitVec.and_twoPow]
  by_cases hBit : a.bits.getLsbD i = true
  · simp [hBit]
  · rw [if_neg hBit]
    refine iff_of_false (fun h => ?_) hBit
    have hZero := congrArg (fun x => x.getLsbD i) h
    simp [hWidth] at hZero

theorem union_includes {a b c : ImageUsage} {i : Nat} (hFlag : c.bits = BitVec.twoPow 32 i)
    (hWidth : i < 32) :
    (a.union b).includes c = true ↔ a.includes c = true ∨ b.includes c = true := by
  rw [includes_iff hFlag hWidth, includes_iff hFlag hWidth, includes_iff hFlag hWidth, union,
    BitVec.getLsbD_or, Bool.or_eq_true]

end ImageUsage

theorem ImageState.usage_flag {s : ImageState} (hUsed : s ≠ .unknown) :
    ∃ i < 32, s.usage.bits = BitVec.twoPow 32 i := by
  cases s with
  | unknown => exact absurd rfl hUsed
  | shaderRead => exact ⟨2, by decide, by decide⟩
  | colorTarget => exact ⟨4, by decide, by decide⟩
  | depthTarget => exact ⟨5, by decide, by decide⟩
  | copySource => exact ⟨0, by decide, by decide⟩
  | copyTarget => exact ⟨1, by decide, by decide⟩

theorem ImageState.usage_includes {s r : ImageState} (hUsed : r ≠ .unknown) :
    s.usage.includes r.usage = true ↔ s = r := by
  cases r with
  | unknown => exact absurd rfl hUsed
  | _ => cases s <;> decide

namespace UsageMap

/-- The flag of a role is set for the name. -/
def Asks (m : UsageMap) (n : Name) (role : ImageState) : Prop :=
  ∃ u, m.get? n = some u ∧ u.includes role.usage = true

theorem get?_add (m : UsageMap) (use : Name × ImageState) (n : Name) :
    NameMap.get? (m.add use) n =
      if n = use.1 then some (((m.get? use.1).getD .none).union use.2.usage) else m.get? n :=
  NameMap.get?_insert m n use.1 _

theorem asks_add (m : UsageMap) (use : Name × ImageState) (n : Name) {role : ImageState}
    (hUsed : role ≠ .unknown) :
    Asks (m.add use) n role ↔ m.Asks n role ∨ use = (n, role) := by
  obtain ⟨k, given⟩ := use
  obtain ⟨i, hWidth, hFlag⟩ := ImageState.usage_flag hUsed
  unfold Asks
  rw [get?_add]
  by_cases hn : n = k
  · subst hn
    have hUse : ((n, given) : Name × ImageState) = (n, role) ↔ given = role := by simp
    rw [if_pos rfl, hUse, ← ImageState.usage_includes hUsed]
    cases hGet : m.get? n with
    | none =>
      have hNone : ImageUsage.none.includes role.usage = false := by
        cases role with
        | unknown => exact absurd rfl hUsed
        | _ => decide
      simp [ImageUsage.union_includes hFlag hWidth, hNone]
    | some u => simp [ImageUsage.union_includes hFlag hWidth]
  · rw [if_neg hn]
    constructor
    · exact .inl
    · rintro (hAsks | hUse)
      · exact hAsks
      · exact absurd (congrArg Prod.fst hUse).symm hn

theorem asks_addAll (m : UsageMap) (uses : List (Name × ImageState)) (n : Name)
    {role : ImageState} (hUsed : role ≠ .unknown) :
    Asks (uses.foldl add m) n role ↔ m.Asks n role ∨ (n, role) ∈ uses := by
  induction uses generalizing m with
  | nil => simp
  | cons use uses ih =>
    rw [List.foldl_cons, ih, asks_add m use n hUsed, List.mem_cons, or_assoc,
      eq_comm (a := (n, role))]

theorem contains_addAll (m : UsageMap) (uses : List (Name × ImageState)) (n : Name) :
    (NameMap.get? (uses.foldl add m) n).isSome = true ↔
      (m.get? n).isSome = true ∨ ∃ role, (n, role) ∈ uses := by
  induction uses generalizing m with
  | nil => simp
  | cons use uses ih =>
    obtain ⟨k, role⟩ := use
    rw [List.foldl_cons, ih, get?_add]
    by_cases hn : n = k
    · subst hn
      rw [if_pos rfl]
      constructor
      · intro _
        exact .inr ⟨role, List.mem_cons_self⟩
      · intro _
        exact .inl rfl
    · rw [if_neg hn]
      simp [hn]

variable {passes : List Pass} {output n : Name}

/-- A name is in the map of usages if it is used or shown. -/
theorem contains_ofPasses : (NameMap.get? (ofPasses passes output) n).isSome = true ↔
    n ≠ .placeholder ∧ ((∃ role, (n, role) ∈ passes.flatMap Pass.uses) ∨ n = output) := by
  unfold ofPasses
  rw [NameMap.get?_erase, get?_add]
  by_cases hn : n = .placeholder
  · simp [hn]
  · rw [if_neg hn]
    by_cases hOutput : n = output
    · simp [hOutput ▸ hn, hOutput]
    · rw [if_neg hOutput, contains_addAll]
      simp [hn, hOutput]

/-- A role asks for its flag wherever some pass has it, and the output is copied from. -/
theorem asks_ofPasses {role : ImageState} (hUsed : role ≠ .unknown) :
    (ofPasses passes output).Asks n role ↔ n ≠ .placeholder ∧
      ((n, role) ∈ passes.flatMap Pass.uses ∨ (output, .copySource) = (n, role)) := by
  have hErase : ∀ m : UsageMap, Asks (m.erase .placeholder) n role ↔
      n ≠ .placeholder ∧ m.Asks n role := by
    intro m
    unfold Asks
    rw [NameMap.get?_erase]
    by_cases hn : n = .placeholder
    · simp [hn]
    · simp [hn]
  have hEmpty : ¬ Asks NameMap.empty n role := by
    rintro ⟨u, hGet, -⟩
    cases hGet
  unfold ofPasses
  rw [hErase, asks_add _ _ _ hUsed, asks_addAll _ _ _ hUsed]
  simp [hEmpty]

end UsageMap

end FrameGraph
