import FrameGraph.Proofs.Vertex.Rejection
import Mathlib.Algebra.Order.BigOperators.Group.List
import Mathlib.Algebra.Order.Ring.Nat

/-! # Positions that are not words

Where a binding ends is worked out as soon as an input is placed in it, and nothing bounds the
locations that a binding asks for. Packing can so need a number that is not a word even though all
locations and all bytes of the inputs can be counted in words.
-/

namespace FrameGraph

set_option autoImplicit false

open Traversal VertexBinding

namespace Attribute

theorem bytes_le (a : Attribute) : a.bytes ≤ a.byteSize := by
  cases hType : a.type.columns? with
  | none => simp [bytes, columns, hType]
  | some columns =>
    obtain ⟨format, n⟩ := columns
    rw [bytes_eq hType]
    exact Nat.mul_div_le a.byteSize n

theorem width_pos {a : Attribute} (h : a.type ≠ .unclassified) : 0 < a.width := by
  rw [width, columns]
  cases hType : a.type <;> simp_all [AttributeType.columns?]

variable (attributes : List Attribute)

theorem sum_bytes_le : (attributes.map bytes).sum ≤ (attributes.map byteSize).sum :=
  List.sum_le_sum fun a _ => a.bytes_le

theorem length_flatMap_columns :
    (attributes.flatMap columns).length = (attributes.map width).sum :=
  List.length_flatMap ..

theorem sum_flatMap_columns :
    ((attributes.flatMap columns).map Column.size).sum = (attributes.map bytes).sum := by
  rw [List.map_flatMap, List.flatMap, List.sum_flatten, List.map_map]
  rfl

end Attribute

/-- An input with a format that begins in a binding whose end is not a word. -/
def Overruns (declared : List VertexBinding) (location : Nat) (a : Attribute) : Prop :=
  a.type ≠ .unclassified ∧ ∃ i < declared.length, VertexBinding.start declared i ≤ location ∧
    location < VertexBinding.start declared (i + 1) ∧
      UInt32.size ≤ VertexBinding.start declared (i + 1)

/-- Some input overruns, and with none of the inputs before it is anything wrong. -/
def OverrunsFirst (declared : List VertexBinding) (attributes : List Attribute) : Prop :=
  ∃ k a, attributes[k]? = some a ∧ Overruns declared (Attribute.start attributes k) a ∧
    ∀ j < k, ∀ e, ¬ FaultAt declared attributes j e

namespace Packing

variable {declared : List VertexBinding} {attributes : List Attribute} {columns : List Column}
  {p : Packing} {a : Attribute}

theorem place_eq_wordOverflow {b : VertexBinding} (hType : a.type ≠ .unclassified)
    (hBinding : declared[p.binding]? = some b) (hStop : UInt32.size ≤ p.first + b.count) :
    p.place declared a = .error .wordOverflow := by
  have hWords : addWords p.first b.count = .error .wordOverflow := if_neg (Nat.not_lt.mpr hStop)
  cases hColumns : a.type.columns? with
  | none => exact absurd (Attribute.columns?_eq_none_iff.mp hColumns) hType
  | some columns =>
    obtain ⟨format, n⟩ := columns
    simp only [place, hColumns]
    rcases placeColumns_cases format (a.byteSize / n) n p with hPut | ⟨-, hPut⟩
    · rw [hPut]
      simp [settle, hBinding, hWords, bind, Except.bind]
    · rw [hPut]
      rfl

theorem Lays.place_of_overruns (h : Lays declared columns p) (hSettled : Settled declared p)
    (hOver : Overruns declared columns.length a) : p.place declared a = .error .wordOverflow := by
  obtain ⟨hType, i, hi, hStart, hInside, hStop⟩ := hOver
  have hOpen := (h.feeds hSettled).feeding_eq
  have hFeeds : Feeds declared i p.location := by
    rw [h.location]
    exact ⟨Nat.le_of_lt hi, hStart, fun _ => hInside⟩
  obtain rfl := hOpen.symm.trans hFeeds.feeding_eq
  have hBinding := List.getElem?_eq_getElem hi
  rw [VertexBinding.start_succ hBinding, ← h.first] at hStop
  exact place_eq_wordOverflow hType hBinding hStop

/-- When the locations and the bytes can be counted, the end of the open binding is the only sum
that may be too large. -/
theorem Lays.overruns_of_place (h : Lays declared columns p) (hSettled : Settled declared p)
    (hWidth : columns.length + a.width < UInt32.size)
    (hBytes : (columns.map Column.size).sum + a.bytes < UInt32.size)
    (hPlace : p.place declared a = .error .wordOverflow) :
    Overruns declared columns.length a := by
  have hType : a.type ≠ .unclassified := by
    intro hNone
    rw [Packing.place, Attribute.columns?_eq_none_iff.mpr hNone] at hPlace
    cases hPlace
  have hFeeds := h.feeds hSettled
  have hOffset : bytesIn declared p.binding columns ≤ (columns.map Column.size).sum :=
    bytesIn_le p.binding columns
  have hPlaced := placed declared p a
  rw [hPlace] at hPlaced
  cases hPlaced with
  | wordOverflow hWords =>
    rw [h.location, h.offset] at hWords
    rw [h.location] at hFeeds
    rcases hWords with hWords | hWords | ⟨b, hBinding, hWords⟩
    · omega
    · omega
    · have hi := (List.getElem?_eq_some_iff.mp hBinding).1
      rw [h.first, ← VertexBinding.start_succ hBinding] at hWords
      exact ⟨hType, p.binding, hi, hFeeds.start_le, hFeeds.lt_stop hi, hWords⟩

theorem overrunsFirst_of_placeAll (hAll : AllFeed declared)
    (hWidth : (attributes.map Attribute.width).sum < UInt32.size)
    (hBytes : (attributes.map Attribute.bytes).sum < UInt32.size)
    (h : attributes.foldlM (place declared) .start = .error .wordOverflow) :
    OverrunsFirst declared attributes := by
  obtain ⟨before, a, after, p, rfl, hBefore, hPlace⟩ := foldlM_eq_error.mp h
  obtain ⟨hLays, hSettled⟩ := lays_placeAll hAll hBefore
  simp only [List.map_append, List.map_cons, List.sum_append, List.sum_cons] at hWidth hBytes
  have hLocations : (before.flatMap Attribute.columns).length + a.width < UInt32.size := by
    rw [Attribute.length_flatMap_columns]
    omega
  have hSizes : ((before.flatMap Attribute.columns).map Column.size).sum + a.bytes <
      UInt32.size := by
    rw [Attribute.sum_flatMap_columns]
    omega
  have hOver := hLays.overruns_of_place hSettled hLocations hSizes hPlace
  rw [← Attribute.start_eq_length (Nat.le_refl _),
    ← Attribute.start_append (Nat.le_refl _) (a :: after)] at hOver
  refine ⟨before.length, a, by simp, hOver, fun j hj e hFault => ?_⟩
  exact not_faultAt hAll hBefore j e ((faultAt_append hj _).mp hFault)

theorem placeAll_of_overrunsFirst (hAll : AllFeed declared)
    (h : OverrunsFirst declared attributes) :
    attributes.foldlM (place declared) .start = .error .wordOverflow := by
  obtain ⟨k, a, ha, hOver, hFine⟩ := h
  obtain ⟨before, after, rfl, rfl⟩ := exists_append_of_getElem? ha
  rw [Attribute.start_append (Nat.le_refl _), Attribute.start_eq_length (Nat.le_refl _)] at hOver
  rw [List.foldlM_append, bind_eq_error]
  rcases exists_ok_or_error (before.foldlM (place declared) .start) with ⟨p, hp⟩ | ⟨e, he⟩
  · obtain ⟨hLays, hSettled⟩ := lays_placeAll hAll hp
    refine .inr ⟨p, hp, ?_⟩
    rw [List.foldlM_cons, hLays.place_of_overruns hSettled hOver]
    rfl
  · -- Before the input with a fault there is room for no other error.
    refine .inl ?_
    by_contra hWords
    obtain ⟨j, hFault, -⟩ := (placeAll_eq_error hAll hWords).mp he
    have hj : j < before.length := by
      obtain ⟨b, hb, -⟩ := hFault
      exact (List.getElem?_eq_some_iff.mp hb).1
    exact hFine j hj e ((faultAt_append hj _).mpr hFault)

end Packing

namespace VertexLayout

variable {attributes : List Attribute} {declared : List VertexBinding}

theorem not_overrunsFirst (hEnds : ∀ i < declared.length,
      VertexBinding.start declared i < (attributes.map Attribute.width).sum →
        VertexBinding.start declared (i + 1) < UInt32.size) :
    ¬ OverrunsFirst declared attributes := by
  rintro ⟨k, a, ha, ⟨hType, i, hi, hStart, -, hStop⟩, -⟩
  have hLocation : Attribute.start attributes k < (attributes.map Attribute.width).sum := by
    have hPositive := Attribute.width_pos hType
    have hTotal : Attribute.start attributes attributes.length =
        (attributes.map Attribute.width).sum := Row.start_eq_sum (by simp)
    have hMono : Attribute.start attributes (k + 1) ≤
        Attribute.start attributes attributes.length :=
      Attribute.start_mono (List.getElem?_eq_some_iff.mp ha).1
    rw [Attribute.start_succ ha] at hMono
    omega
  have hEnd := hEnds i hi (Nat.lt_of_le_of_lt hStart hLocation)
  omega

/-- Inputs whose locations and bytes can be counted overflow only where a binding ends: packing
fails so exactly when some input overruns before anything else is wrong. It does not when every
binding that begins among the locations ends at a word. -/
theorem pack_overflows_iff (hBytes : (attributes.map Attribute.byteSize).sum < UInt32.size)
    (hWidth : (attributes.map Attribute.width).sum < UInt32.size) :
    (pack attributes declared = .error .wordOverflow ↔
        AllFeed declared ∧ OverrunsFirst declared attributes) ∧
      ((∀ i < declared.length,
          VertexBinding.start declared i < (attributes.map Attribute.width).sum →
            VertexBinding.start declared (i + 1) < UInt32.size) →
        pack attributes declared ≠ .error .wordOverflow) := by
  have hExact : pack attributes declared = .error .wordOverflow ↔
      AllFeed declared ∧ OverrunsFirst declared attributes := by
    constructor
    · intro hPack
      have hAll := allFeed_of_pack hPack nofun
      rw [pack_of_allFeed hAll, map_eq_error] at hPack
      have hSizes := Nat.lt_of_le_of_lt (Attribute.sum_bytes_le attributes) hBytes
      exact ⟨hAll, Packing.overrunsFirst_of_placeAll hAll hWidth hSizes hPack⟩
    · rintro ⟨hAll, hOver⟩
      rw [pack_of_allFeed hAll, map_eq_error]
      exact Packing.placeAll_of_overrunsFirst hAll hOver
  refine ⟨hExact, fun hEnds hPack => ?_⟩
  exact not_overrunsFirst hEnds (hExact.mp hPack).2

end VertexLayout

/-! Two numbers, for a binding that feeds the first and one that asks for as many locations as can
be counted. -/

namespace Instanced

def numbers : List Attribute := [⟨.float, 4⟩, ⟨.float, 4⟩]

def unbounded : List VertexBinding := [⟨.perVertex, 1⟩, ⟨.perVertex, 4294967295⟩]

theorem numbers_overflow : (numbers.map Attribute.byteSize).sum < UInt32.size ∧
    (numbers.map Attribute.width).sum < UInt32.size ∧
    (∀ b ∈ unbounded, b.count < UInt32.size) ∧ OverrunsFirst unbounded numbers ∧
    VertexLayout.pack numbers unbounded = .error .wordOverflow := by
  have hBytes : (numbers.map Attribute.byteSize).sum < UInt32.size := by decide
  have hWidth : (numbers.map Attribute.width).sum < UInt32.size := by decide
  have hPack : VertexLayout.pack numbers unbounded = .error .wordOverflow := by decide
  have hOver := ((VertexLayout.pack_overflows_iff hBytes hWidth).1.mp hPack).2
  exact ⟨hBytes, hWidth, by decide, hOver, hPack⟩

end Instanced

end FrameGraph
