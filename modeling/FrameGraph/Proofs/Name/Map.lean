import FrameGraph.Name.Map
import FrameGraph.Proofs.Traversal
import Mathlib.Data.List.Sort

/-! # Entries of maps from names -/

namespace FrameGraph.NameMap

set_option autoImplicit false

universe u

variable {α : Type u}

theorem lookup_eq_some {k : Name} {a : α} {l : List (Name × α)}
    (hIncreasing : l.Pairwise fun e f => e.1 < f.1) : lookup k l = some a ↔ (k, a) ∈ l := by
  induction l with
  | nil => exact ⟨nofun, nofun⟩
  | cons e l ih =>
    obtain ⟨n, b⟩ := e
    obtain ⟨hHead, hTail⟩ := List.pairwise_cons.mp hIncreasing
    rw [lookup, List.mem_cons]
    split
    · rename_i hk
      subst hk
      constructor
      · rintro ⟨⟩
        exact .inl rfl
      · rintro (⟨⟨⟩⟩ | hMem)
        · rfl
        · exact absurd (hHead _ hMem) (Name.lt_irrefl k)
    · rename_i hk
      rw [ih hTail]
      constructor
      · exact .inr
      · rintro (⟨⟨⟩⟩ | hMem)
        · exact absurd rfl hk
        · exact hMem

theorem get?_eq_some {m : NameMap α} {k : Name} {a : α} :
    m.get? k = some a ↔ (k, a) ∈ m.entries := lookup_eq_some m.increasing

theorem get?_eq_none {m : NameMap α} {k : Name} : m.get? k = none ↔ k ∉ m.keys := by
  rw [Option.eq_none_iff_forall_ne_some]
  constructor
  · intro h hk
    obtain ⟨⟨_, a⟩, hMem, rfl⟩ := List.mem_map.mp hk
    exact h a (get?_eq_some.mpr hMem)
  · intro hk a h
    exact hk (List.mem_map_of_mem (get?_eq_some.mp h))

theorem exists_get?_eq_some {m : NameMap α} {k : Name} :
    (∃ a, m.get? k = some a) ↔ k ∈ m.keys := by
  rw [← Option.ne_none_iff_exists', ne_eq, get?_eq_none, Classical.not_not]

/-- Maps with the same entries are equal, since both list them in order. -/
theorem ext_get? {m m' : NameMap α} (h : ∀ k, m.get? k = m'.get? k) : m = m' := by
  have hIrrefl : Std.Irrefl fun e f : Name × α => e.1 < f.1 := ⟨fun e => Name.lt_irrefl e.1⟩
  have hAntisymm : Std.Antisymm fun e f : Name × α => e.1 < f.1 :=
    ⟨fun _ _ hLess hBack => absurd hBack (Name.lt_asymm hLess)⟩
  refine NameMap.ext (m.increasing.eq_of_mem_iff m'.increasing fun e => ?_)
  rw [← get?_eq_some (m := m), h, get?_eq_some]

/-- An entry behind all others is put at the end. -/
theorem put_of_forall_lt {k : Name} (a : α) {l : List (Name × α)} (h : ∀ e ∈ l, e.1 < k) :
    put k a l = l ++ [(k, a)] := by
  induction l with
  | nil => rfl
  | cons e l ih =>
    obtain ⟨hHead, hTail⟩ := List.forall_mem_cons.mp h
    rw [put, if_neg (Name.lt_asymm hHead), if_pos hHead, ih hTail]
    rfl

/-- A traversal fails with the error of the least name with which it fails. -/
theorem mapM_eq_error {α β ε : Type} {m : NameMap α} {f : Name × α → Except ε β} {e : ε} :
    m.entries.mapM f = .error e ↔ ∃ n a, m.get? n = some a ∧ f (n, a) = .error e ∧
      ∀ k b, m.get? k = some b → k < n → ∃ y, f (k, b) = .ok y := by
  rw [Traversal.mapM_eq_error]
  constructor
  · rintro ⟨before, ⟨n, a⟩, after, hSplit, hBefore, hError⟩
    have hIncreasing := m.increasing
    rw [hSplit, List.pairwise_append, List.pairwise_cons] at hIncreasing
    obtain ⟨-, ⟨hAfter, -⟩, -⟩ := hIncreasing
    refine ⟨n, a, get?_eq_some.mpr (by simp [hSplit]), hError, fun k b hk hLess => ?_⟩
    have hMem := get?_eq_some.mp hk
    rw [hSplit, List.mem_append, List.mem_cons] at hMem
    rcases hMem with hMem | hMem | hMem
    · exact hBefore _ hMem
    · obtain ⟨rfl, rfl⟩ := Prod.mk.inj hMem
      exact absurd hLess (Name.lt_irrefl k)
    · exact absurd hLess (Name.lt_asymm (hAfter _ hMem))
  · rintro ⟨n, a, hn, hError, hLeast⟩
    obtain ⟨before, after, hSplit⟩ := List.append_of_mem (get?_eq_some.mp hn)
    refine ⟨before, (n, a), after, hSplit, ?_, hError⟩
    rintro ⟨k, b⟩ hk
    have hIncreasing := m.increasing
    rw [hSplit, List.pairwise_append] at hIncreasing
    exact hLeast k b (get?_eq_some.mpr (by simp [hSplit, hk]))
      (hIncreasing.2.2 _ hk _ List.mem_cons_self)

end FrameGraph.NameMap
