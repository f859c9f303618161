import FrameGraph.Vertex.Layout
import Mathlib.Algebra.Ring.Nat
import Mathlib.Data.List.Induction
import Mathlib.Data.Nat.Count

/-! # Locations dealt out to bindings

Members that lie in a row each begin where those before them end. In this way the inputs of a
shader divide its locations among themselves, and so do the declared bindings: a binding feeds
the locations from its start up to the start of the next one, and what is left goes to the number
behind the last binding.
-/

namespace FrameGraph

set_option autoImplicit false

namespace Row

/-- Where a member of a row of lengths begins. It ends where the next one begins. -/
def start (lengths : List Nat) (k : Nat) : Nat := (lengths.take k).sum

variable {lengths : List Nat}

@[simp] theorem start_zero : start lengths 0 = 0 := rfl

theorem start_succ {k n : Nat} (h : lengths[k]? = some n) :
    start lengths (k + 1) = start lengths k + n := by
  rw [start, List.take_add_one, h, List.sum_append, start]
  rfl

theorem start_eq_sum {k : Nat} (h : lengths.length ≤ k) : start lengths k = lengths.sum := by
  rw [start, List.take_of_length_le h]

theorem start_mono {j k : Nat} (h : j ≤ k) : start lengths j ≤ start lengths k := by
  obtain ⟨more, rfl⟩ := Nat.exists_eq_add_of_le h
  rw [start, start, List.take_add, List.sum_append]
  exact Nat.le_add_right _ _

theorem start_append {k : Nat} (h : k ≤ lengths.length) (more : List Nat) :
    start (lengths ++ more) k = start lengths k := by
  rw [start, List.take_append_of_le_length h, start]

theorem exists_mem {i : Nat} (h : i < lengths.sum) :
    ∃ k < lengths.length, start lengths k ≤ i ∧ i < start lengths (k + 1) := by
  induction lengths using List.reverseRecOn with
  | nil => cases h
  | append_singleton front n ih =>
    by_cases hFront : i < front.sum
    · obtain ⟨k, hk, hStart, hStop⟩ := ih hFront
      refine ⟨k, by rw [List.length_append]; omega, ?_, ?_⟩
      · rwa [start_append (Nat.le_of_lt hk)]
      · rwa [start_append hk]
    · refine ⟨front.length, by simp, ?_, ?_⟩
      · rw [start_append (Nat.le_refl _), start_eq_sum (Nat.le_refl _)]
        omega
      · rwa [start_eq_sum (by simp)]

end Row

/-- What one location is fed with. -/
structure Column where
  format : Format
  size : Nat
  deriving DecidableEq

namespace Attribute

/-- The locations that an input takes. The columns of a matrix share its bytes evenly. -/
def columns (a : Attribute) : List Column :=
  match a.type.columns? with
  | none => []
  | some (format, n) => List.replicate n ⟨format, a.byteSize / n⟩

def width (a : Attribute) : Nat := a.columns.length

def bytes (a : Attribute) : Nat := (a.columns.map Column.size).sum

end Attribute

namespace VertexBinding

def counts (declared : List VertexBinding) : List Nat := declared.map count

/-- The first location that a binding is to feed. -/
def start (declared : List VertexBinding) (k : Nat) : Nat := Row.start (counts declared) k

/-- The binding that feeds a location: as many bindings as end before it are passed over. -/
def feeding (declared : List VertexBinding) (i : Nat) : Nat :=
  Nat.count (fun k => start declared (k + 1) ≤ i) declared.length

/-- The bytes of the locations that a binding feeds. -/
def bytesIn (declared : List VertexBinding) (k : Nat) (columns : List Column) : Nat :=
  ((columns.zipIdx.filter fun c => feeding declared c.2 = k).map fun c => c.1.size).sum

variable {declared : List VertexBinding}

theorem start_succ {k : Nat} {b : VertexBinding} (h : declared[k]? = some b) :
    start declared (k + 1) = start declared k + b.count :=
  Row.start_succ (by rw [counts, List.getElem?_map, h]; rfl)

theorem start_mono {j k : Nat} (h : j ≤ k) : start declared j ≤ start declared k :=
  Row.start_mono h

/-- The location lies in the binding, or in what is left behind the last one. -/
structure Feeds (declared : List VertexBinding) (k i : Nat) : Prop where
  le_length : k ≤ declared.length
  start_le : start declared k ≤ i
  lt_stop : k < declared.length → i < start declared (k + 1)

theorem exists_feeds (declared : List VertexBinding) (i : Nat) : ∃ k, Feeds declared k i := by
  have hLength : (counts declared).length = declared.length := List.length_map ..
  by_cases hSum : i < (counts declared).sum
  · obtain ⟨k, hk, hStart, hStop⟩ := Row.exists_mem hSum
    rw [hLength] at hk
    exact ⟨k, Nat.le_of_lt hk, hStart, fun _ => hStop⟩
  · refine ⟨declared.length, Nat.le_refl _, ?_, fun h => absurd h (Nat.lt_irrefl _)⟩
    rw [start, Row.start_eq_sum (Nat.le_of_eq hLength)]
    exact Nat.le_of_not_lt hSum

theorem Feeds.feeding_eq {k i : Nat} (h : Feeds declared k i) : feeding declared i = k := by
  obtain ⟨rest, hRest⟩ := Nat.exists_eq_add_of_le h.le_length
  have hBefore : Nat.count (fun j => start declared (j + 1) ≤ i) k = k :=
    Nat.count_iff_forall.mpr fun j hj => Nat.le_trans (start_mono hj) h.start_le
  have hBehind : Nat.count (fun j => start declared (k + j + 1) ≤ i) rest = 0 := by
    refine Nat.count_iff_forall_not.mpr fun j hj => Nat.not_le.mpr ?_
    exact Nat.lt_of_lt_of_le (h.lt_stop (by omega)) (start_mono (by omega))
  rw [feeding, hRest, Nat.count_add, hBefore, hBehind, Nat.add_zero]

theorem feeds_feeding (declared : List VertexBinding) (i : Nat) :
    Feeds declared (feeding declared i) i := by
  obtain ⟨k, hk⟩ := exists_feeds declared i
  rwa [hk.feeding_eq]

/-- Every declared binding is to feed some location. -/
def AllFeed (declared : List VertexBinding) : Prop := ∀ b ∈ declared, 0 < b.count

namespace AllFeed

variable (hAll : AllFeed declared)

include hAll

theorem start_lt {k : Nat} (h : k < declared.length) :
    start declared k < start declared (k + 1) := by
  have hPositive := hAll _ (List.getElem_mem h)
  rw [start_succ (List.getElem?_eq_getElem h)]
  omega

theorem feeds_start {k : Nat} (h : k ≤ declared.length) : Feeds declared k (start declared k) :=
  ⟨h, Nat.le_refl _, hAll.start_lt⟩

theorem exists_feeding_iff {n k : Nat} :
    (∃ i < n, feeding declared i = k) ↔ k ≤ declared.length ∧ start declared k < n := by
  constructor
  · rintro ⟨i, hi, rfl⟩
    have hFeeds := feeds_feeding declared i
    exact ⟨hFeeds.le_length, Nat.lt_of_le_of_lt hFeeds.start_le hi⟩
  · rintro ⟨hLength, hStart⟩
    -- A binding that feeds anything feeds its first location.
    exact ⟨start declared k, hStart, (hAll.feeds_start hLength).feeding_eq⟩

end AllFeed

theorem bytesIn_snoc (k : Nat) (columns : List Column) (c : Column) :
    bytesIn declared k (columns ++ [c]) =
      bytesIn declared k columns +
        if feeding declared columns.length = k then c.size else 0 := by
  rw [bytesIn, List.zipIdx_append, List.filter_append, List.map_append, List.sum_append, ← bytesIn,
    List.zipIdx_singleton, Nat.zero_add]
  by_cases hFeeds : feeding declared columns.length = k
  · simp [hFeeds]
  · simp [hFeeds]

theorem bytesIn_le (k : Nat) (columns : List Column) :
    bytesIn declared k columns ≤ (columns.map Column.size).sum := by
  induction columns using List.reverseRecOn with
  | nil => exact Nat.zero_le _
  | append_singleton columns c ih =>
    rw [bytesIn_snoc, List.map_append, List.sum_append, List.map_singleton, List.sum_singleton]
    split
    · omega
    · omega

theorem bytesIn_eq_zero {k : Nat} {columns : List Column}
    (h : columns.length ≤ start declared k) : bytesIn declared k columns = 0 := by
  have hNone : columns.zipIdx.filter (fun c => feeding declared c.2 = k) = [] := by
    rw [List.filter_eq_nil_iff]
    rintro ⟨c, i⟩ hc
    have hi : i < columns.length := by simpa using List.snd_lt_of_mem_zipIdx hc
    have hStart := (feeds_feeding declared i).start_le
    simp only [decide_eq_true_eq]
    rintro rfl
    omega
  rw [bytesIn, hNone]
  rfl

end VertexBinding

end FrameGraph
