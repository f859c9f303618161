import FrameGraph.Proofs.Vertex.Packing
import Mathlib.Data.Nat.Find

/-! # What packing rejects

An input without a format is a fault, and so is one that begins in a declared binding and ends
behind it. Packing stops at the first fault, provided that every binding feeds some location and
that no sum is too large.
-/

namespace FrameGraph

set_option autoImplicit false

open Traversal VertexBinding

namespace Attribute

/-- The first location of an input, which is the number of locations of those before it. -/
def start (attributes : List Attribute) (k : Nat) : Nat := Row.start (attributes.map width) k

theorem columns?_eq_none_iff {t : AttributeType} : t.columns? = none ↔ t = .unclassified := by
  cases t <;> simp [AttributeType.columns?]

theorem width_eq_zero {a : Attribute} (h : a.type.columns? = none) : a.width = 0 := by
  rw [width, columns, h]
  rfl

theorem start_eq_length {attributes : List Attribute} {k : Nat} (h : attributes.length ≤ k) :
    start attributes k = (attributes.flatMap columns).length := by
  rw [start, Row.start_eq_sum (by rwa [List.length_map]), List.length_flatMap]
  rfl

theorem start_append {attributes : List Attribute} {k : Nat} (h : k ≤ attributes.length)
    (more : List Attribute) : start (attributes ++ more) k = start attributes k := by
  rw [start, List.map_append, Row.start_append (by rwa [List.length_map]), start]

theorem start_succ {attributes : List Attribute} {k : Nat} {a : Attribute}
    (h : attributes[k]? = some a) : start attributes (k + 1) = start attributes k + a.width :=
  Row.start_succ (by rw [List.getElem?_map, h]; rfl)

end Attribute

/-- What is wrong with an input whose first location is given. -/
inductive Faulty (declared : List VertexBinding) (location : Nat) (a : Attribute) :
    PackingError → Prop
  | noFormat (hType : a.type = .unclassified) : Faulty declared location a (.noFormat location)
  | straddling (k : Nat) (b : VertexBinding) (hBinding : declared[k]? = some b)
      (hStart : VertexBinding.start declared k ≤ location)
      (hInside : location < VertexBinding.start declared (k + 1))
      (hBehind : VertexBinding.start declared (k + 1) < location + a.width) :
      Faulty declared location a
        (.straddling k b.count (location + a.width - VertexBinding.start declared k))

theorem Faulty.unique {declared : List VertexBinding} {location : Nat} {a : Attribute}
    {e f : PackingError} (he : Faulty declared location a e) (hf : Faulty declared location a f) :
    e = f := by
  have hWide : ∀ k, a.type = .unclassified →
      location < VertexBinding.start declared (k + 1) →
      ¬ VertexBinding.start declared (k + 1) < location + a.width := by
    intro k hType hInside
    rw [Attribute.width_eq_zero (Attribute.columns?_eq_none_iff.mpr hType)]
    omega
  cases he with
  | noFormat hType =>
    cases hf with
    | noFormat => rfl
    | straddling k b _ _ hInside hBehind => exact absurd hBehind (hWide k hType hInside)
  | straddling k b hBinding hStart hInside hBehind =>
    cases hf with
    | noFormat hType => exact absurd hBehind (hWide k hType hInside)
    | straddling k' b' hBinding' hStart' hInside' _ =>
      have hk := (List.getElem?_eq_some_iff.mp hBinding).1
      have hk' := (List.getElem?_eq_some_iff.mp hBinding').1
      have hFeeds : Feeds declared k location := ⟨Nat.le_of_lt hk, hStart, fun _ => hInside⟩
      have hFeeds' : Feeds declared k' location := ⟨Nat.le_of_lt hk', hStart', fun _ => hInside'⟩
      obtain rfl := hFeeds.feeding_eq.symm.trans hFeeds'.feeding_eq
      obtain rfl := Option.some.inj (hBinding.symm.trans hBinding')
      rfl

/-- What is wrong with the input of the given number. -/
def FaultAt (declared : List VertexBinding) (attributes : List Attribute) (k : Nat)
    (e : PackingError) : Prop :=
  ∃ a, attributes[k]? = some a ∧ Faulty declared (Attribute.start attributes k) a e

/-- What is wrong with the first input with which something is wrong. -/
def FirstFault (declared : List VertexBinding) (attributes : List Attribute) (e : PackingError) :
    Prop :=
  ∃ k, FaultAt declared attributes k e ∧ ∀ j < k, ∀ f, ¬ FaultAt declared attributes j f

section Faults

variable {declared : List VertexBinding} {attributes : List Attribute}

theorem faultAt_append {k : Nat} (h : k < attributes.length) (more : List Attribute)
    {e : PackingError} :
    FaultAt declared (attributes ++ more) k e ↔ FaultAt declared attributes k e := by
  rw [FaultAt, List.getElem?_append_left h, Attribute.start_append (Nat.le_of_lt h), FaultAt]

theorem faultAt_length {a : Attribute} {more : List Attribute} {e : PackingError} :
    FaultAt declared (attributes ++ a :: more) attributes.length e ↔
      Faulty declared (attributes.flatMap Attribute.columns).length a e := by
  rw [FaultAt, List.getElem?_append_right (Nat.le_refl _), Nat.sub_self, List.getElem?_cons_zero,
    Attribute.start_append (Nat.le_refl _), Attribute.start_eq_length (Nat.le_refl _)]
  constructor
  · rintro ⟨_, ⟨⟩, h⟩
    exact h
  · intro h
    exact ⟨a, rfl, h⟩

theorem FirstFault.unique {e f : PackingError} (he : FirstFault declared attributes e)
    (hf : FirstFault declared attributes f) : e = f := by
  obtain ⟨j, hj, hBefore⟩ := he
  obtain ⟨k, hk, hBefore'⟩ := hf
  rcases Nat.lt_trichotomy j k with hLess | rfl | hLess
  · exact absurd hj (hBefore' j hLess e)
  · obtain ⟨a, ha, hFault⟩ := hj
    obtain ⟨b, hb, hFault'⟩ := hk
    obtain rfl := Option.some.inj (ha.symm.trans hb)
    exact hFault.unique hFault'
  · exact absurd hk (hBefore k hLess f)

theorem exists_firstFault :
    (∃ e, FirstFault declared attributes e) ↔ ∃ k e, FaultAt declared attributes k e := by
  classical
  constructor
  · rintro ⟨e, k, hk, -⟩
    exact ⟨k, e, hk⟩
  · intro h
    obtain ⟨e, he⟩ := Nat.find_spec h
    exact ⟨e, Nat.find h, he, fun j hj f hf => Nat.find_min h hj ⟨f, hf⟩⟩

end Faults

namespace Packing

variable {declared : List VertexBinding} {attributes : List Attribute} {columns : List Column}
  {p : Packing}

theorem Lays.place_eq_error {a : Attribute} (h : Lays declared columns p)
    (hSettled : Settled declared p) (hWords : p.place declared a ≠ .error .wordOverflow)
    {e : PackingError} : p.place declared a = .error e ↔ Faulty declared columns.length a e := by
  have hFeeds := h.feeds hSettled
  have hFull : ∀ b, declared[p.binding]? = some b →
      p.first + b.count = VertexBinding.start declared (p.binding + 1) := fun b hb => by
    rw [VertexBinding.start_succ hb, h.first]
  -- An input that ends where the open binding has room is not at fault.
  have hFine : ∀ f, a.type.columns? ≠ none →
      (p.binding < declared.length →
        p.location + a.width ≤ VertexBinding.start declared (p.binding + 1)) →
      ¬ Faulty declared p.location a f := by
    intro f hType hRoom hFault
    cases hFault with
    | noFormat hNone => exact hType (Attribute.columns?_eq_none_iff.mpr hNone)
    | straddling k b hBinding hStart hInside hBehind =>
      have hk := (List.getElem?_eq_some_iff.mp hBinding).1
      have hOther : Feeds declared k p.location := ⟨Nat.le_of_lt hk, hStart, fun _ => hInside⟩
      obtain rfl := hFeeds.feeding_eq.symm.trans hOther.feeding_eq
      exact absurd hBehind (Nat.not_lt.mpr (hRoom hk))
  rw [← h.location]
  have hPlaced := placed declared p a
  generalize p.place declared a = r at hPlaced hWords
  cases hPlaced with
  | wordOverflow => exact absurd rfl hWords
  | noFormat hType =>
    have hFault : Faulty declared p.location a (.noFormat p.location) :=
      .noFormat (Attribute.columns?_eq_none_iff.mp hType)
    constructor
    · rintro ⟨⟩
      exact hFault
    · intro he
      rw [hFault.unique he]
  | straddling b hType hBinding hBehind =>
    have hInside := hSettled (List.getElem?_eq_some_iff.mp hBinding).1
    have hFault := Faulty.straddling p.binding b hBinding hFeeds.start_le hInside
      (hFull b hBinding ▸ hBehind)
    rw [← h.first] at hFault
    constructor
    · rintro ⟨⟩
      exact hFault
    · intro he
      rw [hFault.unique he]
  | full b hType hBinding hStop =>
    refine iff_of_false nofun (hFine e hType fun _ => ?_)
    rw [hStop, hFull b hBinding]
  | within hType hInside =>
    refine iff_of_false nofun (hFine e hType fun hk => ?_)
    have hBinding := List.getElem?_eq_getElem hk
    rw [← hFull _ hBinding]
    exact Nat.le_of_lt (hInside _ hBinding)

theorem not_faultAt (hAll : AllFeed declared)
    (hPlace : attributes.foldlM (place declared) start = .ok p) (k : Nat) (e : PackingError) :
    ¬ FaultAt declared attributes k e := by
  induction attributes using List.reverseRecOn generalizing p with
  | nil =>
    rintro ⟨a, ha, -⟩
    cases ha
  | append_singleton attributes a ih =>
    obtain ⟨q, hFront, hLast⟩ := foldlM_snoc_eq_ok.mp hPlace
    intro hFault
    by_cases hk : k < attributes.length
    · exact ih hFront ((faultAt_append hk [a]).mp hFault)
    · obtain ⟨hLays, hSettled⟩ := lays_placeAll hAll hFront
      have hLength : k = attributes.length := by
        obtain ⟨b, hb, -⟩ := hFault
        have := (List.getElem?_eq_some_iff.mp hb).1
        rw [List.length_append, List.length_singleton] at this
        omega
      subst hLength
      have hWords : q.place declared a ≠ .error .wordOverflow := by simp [hLast]
      have hError := (hLays.place_eq_error hSettled hWords).mpr (faultAt_length.mp hFault)
      rw [hLast] at hError
      cases hError

theorem placeAll_eq_error (hAll : AllFeed declared)
    (hWords : attributes.foldlM (place declared) start ≠ .error .wordOverflow)
    {e : PackingError} :
    attributes.foldlM (place declared) start = .error e ↔ FirstFault declared attributes e := by
  have hFirst : ∀ f, attributes.foldlM (place declared) start = .error f →
      FirstFault declared attributes f := by
    intro f hf
    obtain ⟨before, a, after, q, rfl, hBefore, hPlace⟩ := foldlM_eq_error.mp hf
    obtain ⟨hLays, hSettled⟩ := lays_placeAll hAll hBefore
    have hWord : q.place declared a ≠ .error .wordOverflow := by
      intro hOverflow
      exact hWords (foldlM_eq_error.mpr ⟨before, a, after, q, rfl, hBefore, hOverflow⟩)
    refine ⟨before.length, ?_, fun j hj g hFault => ?_⟩
    · exact faultAt_length.mpr ((hLays.place_eq_error hSettled hWord).mp hPlace)
    · exact not_faultAt hAll hBefore j g ((faultAt_append hj _).mp hFault)
  refine ⟨hFirst e, fun he => ?_⟩
  rcases exists_ok_or_error (attributes.foldlM (place declared) start) with ⟨p, hp⟩ | ⟨f, hf⟩
  · obtain ⟨k, hk, -⟩ := he
    exact absurd hk (not_faultAt hAll hp k e)
  · rw [hf, (hFirst f hf).unique he]

end Packing

/-! ## When there is no fault -/

section Boundaries

variable {declared : List VertexBinding} {attributes : List Attribute}

/-- The declared bindings that end before the last location end where an input ends. -/
def EndsMeet (declared : List VertexBinding) (attributes : List Attribute) : Prop :=
  ∀ k < declared.length,
    VertexBinding.start declared (k + 1) < Attribute.start attributes attributes.length →
    ∃ j < attributes.length,
      Attribute.start attributes (j + 1) = VertexBinding.start declared (k + 1)

theorem Attribute.start_mono {j k : Nat} (h : j ≤ k) : start attributes j ≤ start attributes k :=
  Row.start_mono h

theorem Attribute.exists_start_le {i : Nat}
    (h : i < start attributes attributes.length) :
    ∃ k a, attributes[k]? = some a ∧ start attributes k ≤ i ∧ i < start attributes k + a.width := by
  have hSum : start attributes attributes.length = (attributes.map width).sum :=
    Row.start_eq_sum (by rw [List.length_map])
  obtain ⟨k, hk, hStart, hStop⟩ := Row.exists_mem (hSum ▸ h)
  rw [List.length_map] at hk
  have ha := List.getElem?_eq_getElem hk
  refine ⟨k, _, ha, hStart, ?_⟩
  rw [← start_succ ha]
  exact hStop

/-- The input with the last location of a binding ends with the binding, or it is at fault. -/
theorem endsMeet_of_not_faultAt (hAll : AllFeed declared)
    (hNone : ∀ k e, ¬ FaultAt declared attributes k e) : EndsMeet declared attributes := by
  intro k hk hEnd
  have hPositive := hAll.start_lt hk
  obtain ⟨j, a, ha, hStart, hStop⟩ := Attribute.exists_start_le
    (Nat.lt_of_le_of_lt (Nat.sub_le (VertexBinding.start declared (k + 1)) 1) hEnd)
  refine ⟨j, (List.getElem?_eq_some_iff.mp ha).1, ?_⟩
  rw [Attribute.start_succ ha]
  obtain ⟨i, hFeeds⟩ := exists_feeds declared (Attribute.start attributes j)
  have hi : i ≤ k := by
    by_contra hBehind
    have hAfter : VertexBinding.start declared (k + 1) ≤ VertexBinding.start declared i :=
      VertexBinding.start_mono (Nat.lt_of_not_le hBehind)
    have hLocation := hFeeds.start_le
    omega
  have hLength : i < declared.length := by omega
  have hInside := hFeeds.lt_stop hLength
  have hNext : VertexBinding.start declared (i + 1) ≤ VertexBinding.start declared (k + 1) :=
    VertexBinding.start_mono (by omega)
  by_contra hApart
  exact hNone j _ ⟨a, ha, .straddling i _ (List.getElem?_eq_getElem hLength) hFeeds.start_le hInside
    (by omega)⟩

theorem not_faultAt_of_endsMeet (hTypes : ∀ a ∈ attributes, a.type ≠ .unclassified)
    (hMeet : EndsMeet declared attributes) (k : Nat) (e : PackingError) :
    ¬ FaultAt declared attributes k e := by
  rintro ⟨a, ha, hFault⟩
  have hk := (List.getElem?_eq_some_iff.mp ha).1
  cases hFault with
  | noFormat hType => exact hTypes a (List.mem_of_getElem? ha) hType
  | straddling i b hBinding hStart hInside hBehind =>
    rw [← Attribute.start_succ ha] at hBehind
    have hTotal : Attribute.start attributes (k + 1) ≤
        Attribute.start attributes attributes.length :=
      Attribute.start_mono (Nat.succ_le_of_lt hk)
    obtain ⟨j, hj, hSame⟩ := hMeet i (List.getElem?_eq_some_iff.mp hBinding).1
      (Nat.lt_of_lt_of_le hBehind hTotal)
    rcases Nat.lt_or_ge j k with hLess | hMore
    · have hBefore : Attribute.start attributes (j + 1) ≤ Attribute.start attributes k :=
        Attribute.start_mono (Nat.succ_le_of_lt hLess)
      omega
    · have hAfter : Attribute.start attributes (k + 1) ≤ Attribute.start attributes (j + 1) :=
        Attribute.start_mono (Nat.succ_le_succ hMore)
      omega

theorem not_firstFault_iff (hAll : AllFeed declared) :
    (∀ e, ¬ FirstFault declared attributes e) ↔
      (∀ a ∈ attributes, a.type ≠ .unclassified) ∧ EndsMeet declared attributes := by
  have hNone : (∀ e, ¬ FirstFault declared attributes e) ↔
      ∀ k e, ¬ FaultAt declared attributes k e := by
    rw [← not_exists, exists_firstFault]
    simp only [not_exists]
  rw [hNone]
  constructor
  · intro h
    refine ⟨fun a ha hType => ?_, endsMeet_of_not_faultAt hAll h⟩
    obtain ⟨k, hk⟩ := List.mem_iff_getElem?.mp ha
    exact h k _ ⟨a, hk, .noFormat hType⟩
  · rintro ⟨hTypes, hMeet⟩
    exact not_faultAt_of_endsMeet hTypes hMeet

end Boundaries

/-! ## The outcome of packing -/

namespace VertexLayout

variable {attributes : List Attribute} {declared : List VertexBinding}

theorem pack_eq_error (hAll : AllFeed declared)
    (hWords : pack attributes declared ≠ .error .wordOverflow) {e : PackingError} :
    pack attributes declared = .error e ↔ FirstFault declared attributes e := by
  rw [pack_of_allFeed hAll, Ne, map_eq_error] at hWords
  rw [pack_of_allFeed hAll, map_eq_error]
  exact Packing.placeAll_eq_error hAll hWords

theorem not_firstFault_emptyBinding {i : Nat} :
    ¬ FirstFault declared attributes (.emptyBinding i) := by
  rintro ⟨k, ⟨a, -, hFault⟩, -⟩
  cases hFault

/-- A binding that feeds nothing is seen before any input. -/
theorem pack_eq_emptyBinding {i : Nat} :
    pack attributes declared = .error (.emptyBinding i) ↔
      (∃ b, declared[i]? = some b ∧ b.count = 0) ∧
        ∀ j < i, ∀ b, declared[j]? = some b → 0 < b.count := by
  have hEmpty : pack attributes declared = .error (.emptyBinding i) ↔
      declared.findIdx? (fun b => b.count = 0) = some i := by
    cases hFind : declared.findIdx? (fun b => b.count = 0) with
    | none =>
      refine iff_of_false (fun hPack => ?_) nofun
      have hWords : pack attributes declared ≠ .error .wordOverflow := by simp [hPack]
      exact not_firstFault_emptyBinding
        ((pack_eq_error (findIdx_empty_eq_none.mp hFind) hWords).mp hPack)
    | some k =>
      rw [pack, hFind]
      simp
  rw [hEmpty, List.findIdx?_eq_some_iff_getElem]
  constructor
  · rintro ⟨hi, hCount, hBefore⟩
    refine ⟨⟨_, List.getElem?_eq_getElem hi, of_decide_eq_true hCount⟩, fun j hj b hb => ?_⟩
    obtain ⟨hLength, rfl⟩ := List.getElem?_eq_some_iff.mp hb
    exact Nat.pos_of_ne_zero fun hZero => hBefore j hj (decide_eq_true hZero)
  · rintro ⟨⟨b, hb, hCount⟩, hBefore⟩
    obtain ⟨hi, rfl⟩ := List.getElem?_eq_some_iff.mp hb
    refine ⟨hi, decide_eq_true hCount, fun j hj hZero => ?_⟩
    have hPositive := hBefore j hj _ (List.getElem?_eq_getElem (Nat.lt_trans hj hi))
    exact Nat.ne_of_gt hPositive (of_decide_eq_true hZero)

theorem exists_pack_iff (hWords : pack attributes declared ≠ .error .wordOverflow) :
    (∃ l, pack attributes declared = .ok l) ↔
      AllFeed declared ∧ (∀ a ∈ attributes, a.type ≠ .unclassified) ∧
        EndsMeet declared attributes := by
  constructor
  · rintro ⟨l, hl⟩
    have hAll := allFeed_of_pack hl nofun
    refine ⟨hAll, (not_firstFault_iff hAll).mp fun e he => ?_⟩
    rw [(pack_eq_error hAll hWords).mpr he] at hl
    cases hl
  · rintro ⟨hAll, hFine⟩
    refine exists_eq_ok_iff.mpr fun e he => ?_
    exact (not_firstFault_iff hAll).mpr hFine e ((pack_eq_error hAll hWords).mp he)

end VertexLayout

end FrameGraph
