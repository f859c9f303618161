import FrameGraph.Proofs.Interface.Slots

/-! # The union of the stages

Uniforms of one binding have to agree, and the first one that does not agree with the first of its
binding is reported. If all agree, merging lists the union of the stages. It does not matter in
which order the uniforms are listed, or how often.
-/

namespace FrameGraph

set_option autoImplicit false

open Traversal

/-! ## Clashes -/

namespace Uniform

/-- The same is bound, and equally many of it. -/
def Agrees (u v : Uniform) : Prop := u.type = v.type ∧ u.count = v.count

/-- The uniform does not agree with the first one of its binding. -/
def Clashes (u : Uniform) (earlier : List (Uniform × ShaderStages)) : Prop :=
  ∃ first, earlier.find? (fun e => e.1.binding = u.binding) = some first ∧ ¬ first.1.Agrees u

/-- A uniform fails to join the slot of its binding if it differs from the slot. -/
theorem addTo_eq_error {u : Uniform} {stages : ShaderStages} {slots : List ResourceSlot}
    (hIncreasing : ResourceSlot.Increasing slots) {e : ShaderError} :
    u.addTo stages slots = .error e ↔
      (∃ s ∈ slots, s.binding = u.binding ∧ ¬ (s.type = u.type ∧ s.count = u.count)) ∧
        e = .conflictingBinding u.binding := by
  induction slots with
  | nil => exact iff_of_false (fun h => by cases h) (by simp)
  | cons s rest ih =>
    obtain ⟨hHead, hRest⟩ := List.pairwise_cons.mp hIncreasing
    rw [addTo, List.exists_mem_cons_iff]
    split
    · rename_i hBefore
      refine iff_of_false (fun h => by cases h) ?_
      rintro ⟨⟨hBinding, -⟩ | ⟨t, ht, hBinding, -⟩, -⟩
      · omega
      · have hLess := hHead t ht
        omega
    · split
      · rename_i hAfter
        have hOther : s.binding ≠ u.binding := Nat.ne_of_lt hAfter
        rw [or_iff_right fun h => hOther h.1, ← ih hRest]
        exact map_eq_error
      · rename_i hBefore hAfter
        have hBinding : s.binding = u.binding := by omega
        -- The slots behind this one have greater bindings, so it is the only one that counts.
        have hOthers : ¬ ∃ t ∈ rest, t.binding = u.binding ∧
            ¬ (t.type = u.type ∧ t.count = u.count) := by
          rintro ⟨t, ht, hSame, -⟩
          exact absurd (hHead t ht) (by omega)
        rw [or_iff_left hOthers, and_iff_right hBinding]
        split
        · rename_i hAgrees
          exact iff_of_false (fun h => by cases h) fun h => h.1 hAgrees
        · rename_i hDiffers
          rw [and_iff_right hDiffers]
          constructor
          · rintro ⟨⟩
            rfl
          · rintro rfl
            rfl

end Uniform

theorem Lists.clashes_iff {entries : List (Uniform × ShaderStages)} {slots : List ResourceSlot}
    (h : Lists entries slots) {u : Uniform} : u.Clashes entries ↔
      ∃ s ∈ slots, s.binding = u.binding ∧ ¬ (s.type = u.type ∧ s.count = u.count) := by
  constructor
  · rintro ⟨first, hFirst, hDiffers⟩
    have hMem := List.mem_of_find?_eq_some hFirst
    have hUsed : first.1.binding = u.binding := by simpa using List.find?_some hFirst
    obtain ⟨s, hs, hBinding⟩ := h.covers first hMem
    obtain ⟨hType, hCount⟩ := (h.describes s hs).alike first hMem hBinding.symm
    exact ⟨s, hs, hBinding.trans hUsed, hType ▸ hCount ▸ hDiffers⟩
  · rintro ⟨s, hs, hBinding, hDiffers⟩
    obtain ⟨e, he, hUsed⟩ := (h.describes s hs).used
    have hSome : (entries.find? fun e => e.1.binding = u.binding).isSome = true :=
      List.find?_isSome.mpr ⟨e, he, by simpa using hUsed.trans hBinding⟩
    obtain ⟨first, hFirst⟩ := Option.isSome_iff_exists.mp hSome
    have hSame : first.1.binding = u.binding := by simpa using List.find?_some hFirst
    obtain ⟨hType, hCount⟩ := (h.describes s hs).alike first (List.mem_of_find?_eq_some hFirst)
      (hSame.trans hBinding.symm)
    refine ⟨first, hFirst, ?_⟩
    rw [Uniform.Agrees, hType, hCount]
    exact hDiffers

namespace StageUniforms

/-- The uniform clashes with those before it, and none of those does. -/
def FirstClash (entries : List (Uniform × ShaderStages)) (u : Uniform) : Prop :=
  ∃ before stages after, entries = before ++ (u, stages) :: after ∧ u.Clashes before ∧
    ∀ earlier v others rest, before = earlier ++ (v, others) :: rest → ¬ v.Clashes earlier

/-- Two uniforms have one binding and do not agree. -/
def Clashing (stages : List StageUniforms) : Prop :=
  ∃ s ∈ stages, ∃ u ∈ s.uniforms, ∃ t ∈ stages, ∃ v ∈ t.uniforms,
    u.binding = v.binding ∧ ¬ u.Agrees v

def unite (entries : List (Uniform × ShaderStages)) : Except ShaderError (List ResourceSlot) :=
  entries.foldlM (fun slots e => e.1.addTo e.2 slots) []

theorem lists_of_unite {entries : List (Uniform × ShaderStages)} {slots : List ResourceSlot}
    (h : unite entries = .ok slots) : Lists entries slots := Lists.nil.addAll entries h

theorem not_clashes_of_unite {entries : List (Uniform × ShaderStages)} {slots : List ResourceSlot}
    (h : unite entries = .ok slots) {before after : List (Uniform × ShaderStages)} {u : Uniform}
    {stages : ShaderStages} (hSplit : entries = before ++ (u, stages) :: after) :
    ¬ u.Clashes before := by
  intro hClashes
  rw [hSplit, unite, List.foldlM_append] at h
  obtain ⟨early, hBefore, hRest⟩ := bind_eq_ok.mp h
  obtain ⟨_, hAdd, -⟩ := bind_eq_ok.mp hRest
  have hLists : Lists before early := lists_of_unite hBefore
  have hError : u.addTo stages early = .error (.conflictingBinding u.binding) :=
    (Uniform.addTo_eq_error hLists.increasing).mpr ⟨hLists.clashes_iff.mp hClashes, rfl⟩
  cases hError.symm.trans hAdd

theorem firstClash_of_unite {entries : List (Uniform × ShaderStages)} {e : ShaderError}
    (h : unite entries = .error e) :
    ∃ u, FirstClash entries u ∧ e = .conflictingBinding u.binding := by
  obtain ⟨before, ⟨u, stages⟩, after, slots, hSplit, hBefore, hAdd⟩ := foldlM_eq_error.mp h
  have hLists : Lists before slots := lists_of_unite hBefore
  obtain ⟨hClashes, rfl⟩ := (Uniform.addTo_eq_error hLists.increasing).mp hAdd
  refine ⟨u, ⟨before, stages, after, hSplit, hLists.clashes_iff.mpr hClashes, ?_⟩, rfl⟩
  intro earlier v others rest hEarlier
  exact not_clashes_of_unite hBefore hEarlier

theorem unite_eq_error {entries : List (Uniform × ShaderStages)} {e : ShaderError} :
    unite entries = .error e ↔ ∃ u, FirstClash entries u ∧ e = .conflictingBinding u.binding := by
  refine ⟨firstClash_of_unite, ?_⟩
  rintro ⟨u, ⟨before, stages, after, hSplit, hClashes, hNone⟩, rfl⟩
  rcases exists_ok_or_error (unite before) with ⟨slots, hBefore⟩ | ⟨e, hBefore⟩
  · have hLists := lists_of_unite hBefore
    refine foldlM_eq_error.mpr ⟨before, (u, stages), after, slots, hSplit, hBefore, ?_⟩
    exact (Uniform.addTo_eq_error hLists.increasing).mpr ⟨hLists.clashes_iff.mp hClashes, rfl⟩
  · obtain ⟨v, ⟨earlier, others, rest, hEarlier, hClash, -⟩, -⟩ := firstClash_of_unite hBefore
    exact absurd hClash (hNone earlier v others rest hEarlier)

theorem merge_eq_error {stages : List StageUniforms} {e : ShaderError} : merge stages = .error e ↔
    ∃ u, FirstClash (flatten stages) u ∧ e = .conflictingBinding u.binding := unite_eq_error

theorem mem_flatten {stages : List StageUniforms} {e : Uniform × ShaderStages} :
    e ∈ flatten stages ↔ ∃ s ∈ stages, e.1 ∈ s.uniforms ∧ e.2 = s.stages := by
  obtain ⟨u, flags⟩ := e
  simp only [flatten, List.mem_flatMap, List.mem_map, Prod.mk.injEq]
  constructor
  · rintro ⟨s, hs, _, hu, rfl, rfl⟩
    exact ⟨s, hs, hu, rfl⟩
  · rintro ⟨s, hs, hu, rfl⟩
    exact ⟨s, hs, u, hu, rfl, rfl⟩

theorem clashing_iff {stages : List StageUniforms} : Clashing stages ↔
    ∃ e ∈ flatten stages, ∃ f ∈ flatten stages, e.1.binding = f.1.binding ∧
      ¬ e.1.Agrees f.1 := by
  constructor
  · rintro ⟨s, hs, u, hu, t, ht, v, hv, hClash⟩
    exact ⟨(u, s.stages), mem_flatten.mpr ⟨s, hs, hu, rfl⟩, (v, t.stages),
      mem_flatten.mpr ⟨t, ht, hv, rfl⟩, hClash⟩
  · rintro ⟨e, he, f, hf, hClash⟩
    obtain ⟨s, hs, hu, -⟩ := mem_flatten.mp he
    obtain ⟨t, ht, hv, -⟩ := mem_flatten.mp hf
    exact ⟨s, hs, e.1, hu, t, ht, f.1, hv, hClash⟩

theorem merge_fails_iff {stages : List StageUniforms} :
    (∃ e, merge stages = .error e) ↔ Clashing stages := by
  rw [clashing_iff]
  constructor
  · rintro ⟨e, hError⟩
    obtain ⟨u, ⟨before, flags, after, hSplit, ⟨first, hFirst, hDiffers⟩, -⟩, -⟩ :=
      merge_eq_error.mp hError
    have hSame : first.1.binding = u.binding := by simpa using List.find?_some hFirst
    have hMem := List.mem_of_find?_eq_some hFirst
    rw [hSplit]
    exact ⟨first, List.mem_append_left _ hMem, (u, flags), by simp, hSame, hDiffers⟩
  · rintro ⟨e, he, f, hf, hBinding, hDiffers⟩
    rcases exists_ok_or_error (merge stages) with ⟨slots, hOk⟩ | hError
    · have hLists := lists_of_merge hOk
      obtain ⟨s, hs, hUsed⟩ := hLists.covers e he
      have hAlike := (hLists.describes s hs).alike
      obtain ⟨hType, hCount⟩ := hAlike e he hUsed.symm
      obtain ⟨hType', hCount'⟩ := hAlike f hf (hBinding.symm.trans hUsed.symm)
      exact absurd ⟨hType.trans hType'.symm, hCount.trans hCount'.symm⟩ hDiffers
    · exact hError

end StageUniforms

/-! ## The union -/

namespace ShaderStages

def unionOf (all : List ShaderStages) : ShaderStages := all.foldr union ⟨0⟩

theorem getLsbD_unionOf {all : List ShaderStages} {flag : Nat} :
    (unionOf all).bits.getLsbD flag = true ↔ ∃ s ∈ all, s.bits.getLsbD flag = true := by
  induction all with
  | nil => simp [unionOf]
  | cons s all ih =>
    have hCons : unionOf (s :: all) = s.union (unionOf all) := rfl
    rw [hCons, union, BitVec.getLsbD_or, Bool.or_eq_true, ih, List.exists_mem_cons_iff]

end ShaderStages

namespace StageUniforms

/-- All stages that list the binding. -/
def stagesOf (stages : List StageUniforms) (binding : Nat) : ShaderStages :=
  .unionOf ((stages.filter fun s => s.uniforms.any fun u => u.binding = binding).map
    StageUniforms.stages)

/-- The slots have what the stages list, each binding once with all stages that list it. -/
structure Unites (stages : List StageUniforms) (slots : List ResourceSlot) : Prop where
  increasing : ResourceSlot.Increasing slots
  bindings : ∀ binding, (∃ slot ∈ slots, slot.binding = binding) ↔
    ∃ s ∈ stages, ∃ u ∈ s.uniforms, u.binding = binding
  alike : ∀ slot ∈ slots, ∀ s ∈ stages, ∀ u ∈ s.uniforms, u.binding = slot.binding →
    slot.type = u.type ∧ slot.count = u.count
  united : ∀ slot ∈ slots, slot.stages = stagesOf stages slot.binding

theorem unites_of_merge {stages : List StageUniforms} {slots : List ResourceSlot}
    (h : merge stages = .ok slots) : Unites stages slots := by
  have hLists := lists_of_merge h
  refine ⟨hLists.increasing, fun binding => ⟨?_, ?_⟩, ?_, ?_⟩
  · rintro ⟨slot, hSlot, rfl⟩
    obtain ⟨e, he, hUsed⟩ := (hLists.describes slot hSlot).used
    obtain ⟨s, hs, hu, -⟩ := mem_flatten.mp he
    exact ⟨s, hs, e.1, hu, hUsed⟩
  · rintro ⟨s, hs, u, hu, rfl⟩
    exact hLists.covers (u, s.stages) (mem_flatten.mpr ⟨s, hs, hu, rfl⟩)
  · intro slot hSlot s hs u hu hUsed
    obtain ⟨hType, hCount⟩ := (hLists.describes slot hSlot).alike (u, s.stages)
      (mem_flatten.mpr ⟨s, hs, hu, rfl⟩) hUsed
    exact ⟨hType.symm, hCount.symm⟩
  · intro slot hSlot
    refine congrArg ShaderStages.mk (BitVec.eq_of_getLsbD_eq fun flag _ => Bool.eq_iff_iff.mpr ?_)
    rw [(hLists.describes slot hSlot).stages flag]
    change _ ↔ (ShaderStages.unionOf _).bits.getLsbD flag = true
    rw [ShaderStages.getLsbD_unionOf]
    constructor
    · rintro ⟨e, he, hUsed, hFlag⟩
      obtain ⟨s, hs, hu, hStages⟩ := mem_flatten.mp he
      refine ⟨s.stages, List.mem_map_of_mem (List.mem_filter.mpr ⟨hs, ?_⟩), hStages ▸ hFlag⟩
      exact List.any_eq_true.mpr ⟨e.1, hu, by simpa using hUsed⟩
    · rintro ⟨_, hMem, hFlag⟩
      obtain ⟨s, hListing, rfl⟩ := List.mem_map.mp hMem
      obtain ⟨hs, hAny⟩ := List.mem_filter.mp hListing
      obtain ⟨u, hu, hUsed⟩ := List.any_eq_true.mp hAny
      exact ⟨(u, s.stages), mem_flatten.mpr ⟨s, hs, hu, rfl⟩, by simpa using hUsed, hFlag⟩

/-! ## Order and repetition -/

/-- The same uniforms are listed for the same stages, in another order or more often. -/
inductive Rearranged : List StageUniforms → List StageUniforms → Prop
  | stages {stages others : List StageUniforms} (h : stages.Perm others) : Rearranged stages others
  | uniforms {before after : List StageUniforms} {flags : ShaderStages} {us vs : List Uniform}
      (h : us.Perm vs) :
      Rearranged (before ++ ⟨flags, us⟩ :: after) (before ++ ⟨flags, vs⟩ :: after)
  | repeated {before after : List StageUniforms} {flags : ShaderStages} {us vs : List Uniform}
      {u : Uniform} (h : u ∈ us ++ vs) :
      Rearranged (before ++ ⟨flags, us ++ vs⟩ :: after) (before ++ ⟨flags, us ++ u :: vs⟩ :: after)
  | trans {first second third : List StageUniforms} (h : Rearranged first second)
      (h' : Rearranged second third) : Rearranged first third

theorem mem_flatten_congr {before after : List StageUniforms} {flags : ShaderStages}
    {us vs : List Uniform} (hSame : ∀ u, u ∈ us ↔ u ∈ vs) (e : Uniform × ShaderStages) :
    e ∈ flatten (before ++ ⟨flags, us⟩ :: after) ↔
      e ∈ flatten (before ++ ⟨flags, vs⟩ :: after) := by
  simp only [flatten, List.flatMap_append, List.flatMap_cons, List.mem_append, List.mem_map, hSame]

theorem Rearranged.mem_flatten_iff {stages others : List StageUniforms}
    (h : Rearranged stages others) (e : Uniform × ShaderStages) :
    e ∈ flatten stages ↔ e ∈ flatten others := by
  induction h with
  | stages hPerm => exact (hPerm.flatMap_right _).mem_iff
  | uniforms hPerm => exact mem_flatten_congr (fun _ => hPerm.mem_iff) e
  | repeated hMem =>
    refine mem_flatten_congr (fun u => ?_) e
    rw [List.perm_middle.mem_iff, List.mem_cons]
    exact ⟨.inr, fun h => h.elim (fun hSame => hSame ▸ hMem) id⟩
  | trans _ _ ih ih' => exact ih.trans ih'

section Congruence

variable {stages others : List StageUniforms}
  (hSame : ∀ e, e ∈ flatten stages ↔ e ∈ flatten others)

include hSame

theorem merge_fails_congr : (∃ e, merge stages = .error e) ↔ ∃ e, merge others = .error e := by
  rw [merge_fails_iff, merge_fails_iff, clashing_iff, clashing_iff]
  simp only [hSame]

theorem merge_eq_ok_of_same {slots : List ResourceSlot} (h : merge stages = .ok slots) :
    merge others = .ok slots := by
  rcases exists_ok_or_error (merge others) with ⟨slots', h'⟩ | hError
  · have hInterfaces : {slot | slot ∈ slots} = {slot | slot ∈ slots'} := by
      rw [mem_slots h, mem_slots h', interface_congr hSame]
    have hSlots := (slots_eq_iff (lists_of_merge h).increasing
      (lists_of_merge h').increasing).mpr hInterfaces
    rw [h', hSlots]
  · obtain ⟨e, hError'⟩ := (merge_fails_congr hSame).mpr hError
    rw [h] at hError'
    cases hError'

end Congruence

/-- Merging fails exactly if two uniforms of one binding do not agree, and it reports the first one
that does not agree with the first of its binding. Otherwise it lists the union of the stages in
order of the bindings. Rearranging the stages or their uniforms makes no difference to the slots or
to whether there are any. -/
theorem merge_canonical (stages : List StageUniforms) :
    ((∃ e, merge stages = .error e) ↔ Clashing stages) ∧
    (∀ e, merge stages = .error e ↔
      ∃ u, FirstClash (flatten stages) u ∧ e = .conflictingBinding u.binding) ∧
    (∀ slots, merge stages = .ok slots → Unites stages slots) ∧
    ∀ others, Rearranged stages others →
      (∀ slots, merge stages = .ok slots ↔ merge others = .ok slots) ∧
      ((∃ e, merge stages = .error e) ↔ ∃ e, merge others = .error e) := by
  refine ⟨merge_fails_iff, fun e => merge_eq_error, fun slots => unites_of_merge,
    fun others hRearranged => ⟨fun slots => ⟨?_, ?_⟩, ?_⟩⟩
  · exact merge_eq_ok_of_same hRearranged.mem_flatten_iff
  · exact merge_eq_ok_of_same fun e => (hRearranged.mem_flatten_iff e).symm
  · exact merge_fails_congr hRearranged.mem_flatten_iff

end StageUniforms

end FrameGraph
