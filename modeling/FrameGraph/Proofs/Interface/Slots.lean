import FrameGraph.Interface.Cache
import FrameGraph.Proofs.Traversal
import Mathlib.Data.List.Sort

/-! # Interfaces

The uniforms of all stages describe an interface, which is a finite map from bindings: what is
bound there, how many of it, and the stages that use it. It does not depend on how the uniforms are
listed. Merging them lists the interface in order of the bindings, so equal interfaces have equal
slots.
-/

namespace FrameGraph

set_option autoImplicit false

open Traversal

/-- The slot is what the entries of its binding agree on, and is used by their stages. -/
structure Describes (entries : List (Uniform × ShaderStages)) (slot : ResourceSlot) : Prop where
  used : ∃ e ∈ entries, e.1.binding = slot.binding
  alike : ∀ e ∈ entries, e.1.binding = slot.binding →
    e.1.type = slot.type ∧ e.1.count = slot.count
  stages : ∀ flag, slot.stages.bits.getLsbD flag = true ↔
    ∃ e ∈ entries, e.1.binding = slot.binding ∧ e.2.bits.getLsbD flag = true

namespace StageUniforms

/-- The slots that the uniforms of the stages describe, at most one for every binding. -/
def interface (stages : List StageUniforms) : Set ResourceSlot :=
  {slot | Describes (flatten stages) slot}

end StageUniforms

namespace Describes

variable {entries : List (Uniform × ShaderStages)} {slot slot' : ResourceSlot}

theorem unique (h : Describes entries slot) (h' : Describes entries slot')
    (hBinding : slot.binding = slot'.binding) : slot = slot' := by
  obtain ⟨binding, type, count, stages⟩ := slot
  obtain ⟨binding', type', count', stages'⟩ := slot'
  obtain rfl : binding = binding' := hBinding
  obtain ⟨e, he, hUsed⟩ := h.used
  obtain ⟨rfl, rfl⟩ := h.alike e he hUsed
  obtain ⟨rfl, rfl⟩ := h'.alike e he hUsed
  have hBits : stages.bits = stages'.bits :=
    BitVec.eq_of_getLsbD_eq fun flag _ =>
      Bool.eq_iff_iff.mpr ((h.stages flag).trans (h'.stages flag).symm)
  obtain rfl : stages = stages' := congrArg ShaderStages.mk hBits
  rfl

theorem of_mem_iff {entries' : List (Uniform × ShaderStages)} (h : Describes entries slot)
    (hSame : ∀ e, e ∈ entries ↔ e ∈ entries') : Describes entries' slot where
  used := by simpa only [← hSame] using h.used
  alike := by simpa only [← hSame] using h.alike
  stages := by simpa only [← hSame] using h.stages

variable {u : Uniform} {stages : ShaderStages}

/-- An entry of another binding does not matter. -/
theorem append_other (h : Describes entries slot) (hOther : u.binding ≠ slot.binding) :
    Describes (entries ++ [(u, stages)]) slot where
  used := by
    obtain ⟨e, he, hUsed⟩ := h.used
    exact ⟨e, List.mem_append_left _ he, hUsed⟩
  alike := by
    intro e he hUsed
    rcases List.mem_append.mp he with he | he
    · exact h.alike e he hUsed
    · obtain rfl := List.mem_singleton.mp he
      exact absurd hUsed hOther
  stages := by
    intro flag
    rw [h.stages]
    simp [or_and_right, exists_or, hOther]

theorem append_first (hFirst : ∀ e ∈ entries, e.1.binding ≠ u.binding) :
    Describes (entries ++ [(u, stages)]) (u.slot stages) where
  used := ⟨(u, stages), by simp, rfl⟩
  alike := by
    intro e he hUsed
    rcases List.mem_append.mp he with he | he
    · exact absurd hUsed (hFirst e he)
    · obtain rfl := List.mem_singleton.mp he
      exact ⟨rfl, rfl⟩
  stages := by
    intro flag
    constructor
    · intro hFlag
      exact ⟨(u, stages), by simp, rfl, hFlag⟩
    · rintro ⟨e, he, hUsed, hFlag⟩
      rcases List.mem_append.mp he with he | he
      · exact absurd hUsed (hFirst e he)
      · obtain rfl := List.mem_singleton.mp he
        exact hFlag

/-- An entry that agrees with the slot of its binding adds its stages. -/
theorem append_same (h : Describes entries slot) (hBinding : slot.binding = u.binding)
    (hType : slot.type = u.type) (hCount : slot.count = u.count) :
    Describes (entries ++ [(u, stages)]) { slot with stages := slot.stages.union stages } where
  used := ⟨(u, stages), by simp, hBinding.symm⟩
  alike := by
    intro e he hUsed
    rcases List.mem_append.mp he with he | he
    · exact h.alike e he hUsed
    · obtain rfl := List.mem_singleton.mp he
      exact ⟨hType.symm, hCount.symm⟩
  stages := by
    intro flag
    rw [ShaderStages.union, BitVec.getLsbD_or, Bool.or_eq_true, h.stages]
    simp [or_and_right, exists_or, hBinding]

end Describes

namespace StageUniforms

/-- Neither the order of the uniforms nor repetitions change the interface. -/
theorem interface_congr {stages stages' : List StageUniforms}
    (hSame : ∀ e, e ∈ flatten stages ↔ e ∈ flatten stages') :
    interface stages = interface stages' :=
  Set.ext fun _ => ⟨fun h => h.of_mem_iff hSame, fun h => h.of_mem_iff fun e => (hSame e).symm⟩

end StageUniforms

/-! ## Merging -/

def ResourceSlot.Increasing (slots : List ResourceSlot) : Prop :=
  slots.Pairwise fun s t => s.binding < t.binding

/-- A uniform gets a slot of its own between the others, or it joins the slot of its binding. -/
theorem Uniform.addTo_eq_ok {u : Uniform} {stages : ShaderStages} {slots slots' : List ResourceSlot}
    (hIncreasing : ResourceSlot.Increasing slots) (h : u.addTo stages slots = .ok slots') :
    (∃ before after, slots = before ++ after ∧ slots' = before ++ u.slot stages :: after ∧
      (∀ s ∈ before, s.binding < u.binding) ∧ ∀ s ∈ after, u.binding < s.binding) ∨
    ∃ before s after, slots = before ++ s :: after ∧
      slots' = before ++ { s with stages := s.stages.union stages } :: after ∧
      s.binding = u.binding ∧ s.type = u.type ∧ s.count = u.count := by
  induction slots generalizing slots' with
  | nil =>
    cases h
    exact .inl ⟨[], [], rfl, rfl, List.forall_mem_nil _, List.forall_mem_nil _⟩
  | cons s rest ih =>
    obtain ⟨hHead, hRest⟩ := List.pairwise_cons.mp hIncreasing
    rw [addTo] at h
    split at h
    · rename_i hBefore
      cases h
      refine .inl ⟨[], s :: rest, rfl, rfl, List.forall_mem_nil _, ?_⟩
      exact List.forall_mem_cons.mpr ⟨hBefore, fun t ht => Nat.lt_trans hBefore (hHead t ht)⟩
    · split at h
      · rename_i hAfter
        cases hTail : u.addTo stages rest with
        | error e =>
          rw [hTail] at h
          cases h
        | ok tail =>
          rw [hTail] at h
          cases h
          rcases ih hRest hTail with
            ⟨before, after, rfl, rfl, hLess, hMore⟩ | ⟨before, t, after, rfl, rfl, hAgrees⟩
          · exact .inl ⟨s :: before, after, rfl, rfl, List.forall_mem_cons.mpr ⟨hAfter, hLess⟩,
              hMore⟩
          · exact .inr ⟨s :: before, t, after, rfl, rfl, hAgrees⟩
      · split at h
        · rename_i hBefore hAfter hAgrees
          cases h
          exact .inr ⟨[], s, rest, rfl, rfl, by omega, hAgrees⟩
        · cases h

/-- The slots list what the entries describe. -/
structure Lists (entries : List (Uniform × ShaderStages)) (slots : List ResourceSlot) : Prop where
  increasing : ResourceSlot.Increasing slots
  describes : ∀ slot ∈ slots, Describes entries slot
  covers : ∀ e ∈ entries, ∃ slot ∈ slots, slot.binding = e.1.binding

namespace Lists

variable {entries : List (Uniform × ShaderStages)} {slots : List ResourceSlot}

theorem mem_iff (h : Lists entries slots) {slot : ResourceSlot} :
    slot ∈ slots ↔ Describes entries slot := by
  refine ⟨h.describes slot, fun hSlot => ?_⟩
  obtain ⟨e, he, hUsed⟩ := hSlot.used
  obtain ⟨slot', hMem, hBinding⟩ := h.covers e he
  obtain rfl := (h.describes slot' hMem).unique hSlot (hBinding.trans hUsed)
  exact hMem

theorem nil : Lists [] [] := ⟨.nil, List.forall_mem_nil _, List.forall_mem_nil _⟩

/-- One slot describes the new entry with all of its binding, and the other slots stay. -/
theorem put {before after : List ResourceSlot} {u : Uniform} {stages : ShaderStages}
    {slot : ResourceSlot} (hIncreasing : ResourceSlot.Increasing (before ++ slot :: after))
    (hBinding : slot.binding = u.binding)
    (hSlot : Describes (entries ++ [(u, stages)]) slot)
    (hOthers : ∀ s ∈ before ++ after, Describes entries s)
    (hCovers : ∀ e ∈ entries, e.1.binding ≠ u.binding →
      ∃ s ∈ before ++ after, s.binding = e.1.binding) :
    Lists (entries ++ [(u, stages)]) (before ++ slot :: after) := by
  obtain ⟨-, hAfter, hBefore⟩ := List.pairwise_append.mp hIncreasing
  have hOther : ∀ s ∈ before ++ after, u.binding ≠ s.binding := by
    intro s hs
    rw [← hBinding]
    rcases List.mem_append.mp hs with hs | hs
    · exact Nat.ne_of_gt (hBefore s hs slot List.mem_cons_self)
    · exact Nat.ne_of_lt ((List.pairwise_cons.mp hAfter).1 s hs)
  have hMem : ∀ {s}, s ∈ before ++ slot :: after ↔ s = slot ∨ s ∈ before ++ after := by
    simp only [List.mem_append, List.mem_cons]
    tauto
  refine ⟨hIncreasing, fun s hs => ?_, fun e he => ?_⟩
  · rcases hMem.mp hs with rfl | hs
    · exact hSlot
    · exact (hOthers s hs).append_other (hOther s hs)
  · by_cases hUsed : e.1.binding = u.binding
    · exact ⟨slot, hMem.mpr (.inl rfl), hBinding.trans hUsed.symm⟩
    · have hEntry : e ∈ entries := by
        refine (List.mem_append.mp he).resolve_right fun hNew => hUsed ?_
        rw [List.mem_singleton.mp hNew]
      obtain ⟨s, hs, hSame⟩ := hCovers e hEntry hUsed
      exact ⟨s, hMem.mpr (.inr hs), hSame⟩

theorem add (h : Lists entries slots) {u : Uniform} {stages : ShaderStages}
    {slots' : List ResourceSlot} (hAdd : u.addTo stages slots = .ok slots') :
    Lists (entries ++ [(u, stages)]) slots' := by
  rcases Uniform.addTo_eq_ok h.increasing hAdd with
    ⟨before, after, rfl, rfl, hLess, hMore⟩ | ⟨before, s, after, rfl, rfl, hBinding, hType, hCount⟩
  · obtain ⟨hBefore, hAfter, hCross⟩ := List.pairwise_append.mp h.increasing
    -- The binding has no slot, so no entry has used it yet.
    have hFirst : ∀ e ∈ entries, e.1.binding ≠ u.binding := by
      intro e he
      obtain ⟨s, hs, hSame⟩ := h.covers e he
      rw [← hSame]
      rcases List.mem_append.mp hs with hs | hs
      · exact Nat.ne_of_lt (hLess s hs)
      · exact Nat.ne_of_gt (hMore s hs)
    refine put (List.pairwise_append.mpr ⟨hBefore, List.pairwise_cons.mpr ⟨hMore, hAfter⟩, ?_⟩)
      rfl (.append_first hFirst) h.describes fun e he _ => h.covers e he
    intro s hs
    exact List.forall_mem_cons.mpr ⟨hLess s hs, hCross s hs⟩
  · obtain ⟨hBefore, hAfter, hCross⟩ := List.pairwise_append.mp h.increasing
    obtain ⟨hMore, hRest⟩ := List.pairwise_cons.mp hAfter
    have hSlot := h.describes s (by simp)
    refine put (List.pairwise_append.mpr ⟨hBefore, List.pairwise_cons.mpr ⟨hMore, hRest⟩, ?_⟩)
      hBinding (hSlot.append_same hBinding hType hCount) ?_ ?_
    · intro t ht
      obtain ⟨hLess, hLater⟩ := List.forall_mem_cons.mp (hCross t ht)
      exact List.forall_mem_cons.mpr ⟨hLess, hLater⟩
    · intro t ht
      refine h.describes t ?_
      rcases List.mem_append.mp ht with ht | ht
      · exact List.mem_append_left _ ht
      · exact List.mem_append_right _ (List.mem_cons_of_mem s ht)
    · intro e he hUsed
      obtain ⟨t, ht, hSame⟩ := h.covers e he
      refine ⟨t, ?_, hSame⟩
      rcases List.mem_append.mp ht with ht | ht
      · exact List.mem_append_left _ ht
      · rcases List.mem_cons.mp ht with rfl | ht
        · exact absurd (hSame.symm.trans hBinding) hUsed
        · exact List.mem_append_right _ ht

theorem addAll (h : Lists entries slots) (rest : List (Uniform × ShaderStages))
    {slots' : List ResourceSlot}
    (hAdd : rest.foldlM (fun slots e => e.1.addTo e.2 slots) slots = .ok slots') :
    Lists (entries ++ rest) slots' := by
  induction rest generalizing entries slots with
  | nil =>
    cases hAdd
    rwa [List.append_nil]
  | cons e rest ih =>
    obtain ⟨middle, hFirst, hRest⟩ := bind_eq_ok.mp hAdd
    rw [List.append_cons]
    exact ih (h.add hFirst) hRest

end Lists

namespace StageUniforms

theorem lists_of_merge {stages : List StageUniforms} {slots : List ResourceSlot}
    (h : merge stages = .ok slots) : Lists (flatten stages) slots := Lists.nil.addAll _ h

theorem mem_slots {stages : List StageUniforms} {slots : List ResourceSlot}
    (h : merge stages = .ok slots) : {slot | slot ∈ slots} = interface stages :=
  Set.ext fun _ => (lists_of_merge h).mem_iff

/-- Slots in order are determined by the interface that they list. -/
theorem slots_eq_iff {slots slots' : List ResourceSlot} (h : ResourceSlot.Increasing slots)
    (h' : ResourceSlot.Increasing slots') :
    slots = slots' ↔ {slot | slot ∈ slots} = {slot | slot ∈ slots'} := by
  constructor
  · rintro rfl
    rfl
  · intro hSame
    have hIrrefl : Std.Irrefl fun s t : ResourceSlot => s.binding < t.binding :=
      ⟨fun s => Nat.lt_irrefl s.binding⟩
    have hAntisymm : Std.Antisymm fun s t : ResourceSlot => s.binding < t.binding :=
      ⟨fun _ _ hLess hBack => absurd hBack (Nat.lt_asymm hLess)⟩
    exact h.eq_of_mem_iff h' (Set.ext_iff.mp hSame)

end StageUniforms

end FrameGraph
