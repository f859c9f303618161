import FrameGraph.Name

/-! # Finite maps from names

A map is the list of its entries in strictly increasing order of their names, so two maps with
the same entries are equal and every traversal runs in name order.
-/

namespace FrameGraph

set_option autoImplicit false

universe u v

structure NameMap (α : Type u) where
  entries : List (Name × α)
  increasing : entries.Pairwise fun a b => a.1 < b.1

namespace NameMap

variable {α : Type u} {β : Type v}

instance [DecidableEq α] : DecidableEq (NameMap α)
  | ⟨xs, _⟩, ⟨ys, _⟩ =>
    if h : xs = ys then .isTrue (by subst h; rfl) else .isFalse fun e => h (congrArg entries e)

@[ext] theorem ext {m n : NameMap α} (h : m.entries = n.entries) : m = n := by
  cases m
  cases n
  cases h
  rfl

def empty : NameMap α := ⟨[], .nil⟩

instance : Inhabited (NameMap α) := ⟨empty⟩

def keys (m : NameMap α) : List Name := m.entries.map Prod.fst

def values (m : NameMap α) : List α := m.entries.map Prod.snd

def size (m : NameMap α) : Nat := m.entries.length

def lookup (k : Name) : List (Name × α) → Option α
  | [] => none
  | (n, a) :: rest => if k = n then some a else lookup k rest

def get? (m : NameMap α) (k : Name) : Option α := lookup k m.entries

def contains (m : NameMap α) (k : Name) : Bool := (m.get? k).isSome

/-- Puts an entry into its place in an increasing list, over an older one of its name. -/
def put (k : Name) (a : α) : List (Name × α) → List (Name × α)
  | [] => [(k, a)]
  | (n, b) :: rest =>
    if k < n then (k, a) :: (n, b) :: rest
    else if n < k then (n, b) :: put k a rest
    else (k, a) :: rest

theorem mem_put {k : Name} {a : α} {e : Name × α} :
    ∀ {l : List (Name × α)}, e ∈ put k a l → e = (k, a) ∨ e ∈ l
  | [], h => .inl (List.mem_singleton.mp h)
  | (n, b) :: rest, h => by
    rw [put] at h
    split at h
    · exact List.mem_cons.mp h
    · split at h
      · rcases List.mem_cons.mp h with rfl | h
        · exact .inr List.mem_cons_self
        · exact (mem_put h).imp_right (List.mem_cons_of_mem _)
      · exact (List.mem_cons.mp h).imp_right (List.mem_cons_of_mem _)

theorem increasing_put (k : Name) (a : α) :
    ∀ {l : List (Name × α)}, (l.Pairwise fun a b => a.1 < b.1) →
      (put k a l).Pairwise fun a b => a.1 < b.1
  | [], _ => by simp [put]
  | (n, b) :: rest, h => by
    obtain ⟨hn, hrest⟩ := List.pairwise_cons.mp h
    rw [put]
    split
    · rename_i hkn
      refine List.pairwise_cons.mpr ⟨fun e he => ?_, h⟩
      rcases List.mem_cons.mp he with rfl | he
      · exact hkn
      · exact Name.lt_trans hkn (hn e he)
    · split
      · rename_i hnk
        refine List.pairwise_cons.mpr ⟨fun e he => ?_, increasing_put k a hrest⟩
        rcases mem_put he with rfl | he
        · exact hnk
        · exact hn e he
      · rename_i hkn hnk
        obtain rfl := Name.eq_of_not_lt hkn hnk
        exact List.pairwise_cons.mpr ⟨hn, hrest⟩

def insert (m : NameMap α) (k : Name) (a : α) : NameMap α :=
  ⟨put k a m.entries, increasing_put k a m.increasing⟩

def erase (m : NameMap α) (k : Name) : NameMap α :=
  ⟨m.entries.filter fun e => e.1 ≠ k, m.increasing.filter _⟩

def alter (m : NameMap α) (k : Name) (f : Option α → α) : NameMap α :=
  m.insert k (f (m.get? k))

def ofList (l : List (Name × α)) : NameMap α :=
  l.foldl (fun m e => m.insert e.1 e.2) empty

theorem lookup_put_self (k : Name) (a : α) :
    ∀ l : List (Name × α), lookup k (put k a l) = some a
  | [] => by simp [put, lookup]
  | (n, b) :: rest => by
    rw [put]
    split
    · simp [lookup]
    · split
      · rename_i hnk
        have hne : k ≠ n := fun e => Name.lt_irrefl n (e ▸ hnk)
        rw [lookup, if_neg hne]
        exact lookup_put_self k a rest
      · simp [lookup]

theorem lookup_put_of_ne {j k : Name} (hjk : j ≠ k) (a : α) :
    ∀ l : List (Name × α), lookup j (put k a l) = lookup j l
  | [] => by simp [put, lookup, hjk]
  | (n, b) :: rest => by
    rw [put]
    split
    · rw [lookup, if_neg hjk]
    · split
      · rw [lookup, lookup, lookup_put_of_ne hjk a rest]
      · rename_i hkn hnk
        obtain rfl := Name.eq_of_not_lt hkn hnk
        rw [lookup, if_neg hjk, lookup, if_neg hjk]

theorem get?_insert (m : NameMap α) (j k : Name) (a : α) :
    (m.insert k a).get? j = if j = k then some a else m.get? j := by
  unfold get? insert
  split
  · rename_i h
    rw [h, lookup_put_self]
  · rename_i h
    rw [lookup_put_of_ne h]

theorem lookup_filter_ne (k j : Name) :
    ∀ l : List (Name × α), lookup j (l.filter fun e => e.1 ≠ k) = if j = k then none else lookup j l
  | [] => by simp [lookup]
  | (n, b) :: rest => by
    have ih := lookup_filter_ne k j rest
    by_cases hn : n = k
    · rw [List.filter_cons_of_neg (by simp [hn]), ih]
      by_cases hj : j = k
      · simp [hj]
      · simp [hj, lookup, hn]
    · rw [List.filter_cons_of_pos (by simp [hn]), lookup, ih]
      by_cases hj : j = k
      · simp [hj, Ne.symm hn]
      · simp [hj, lookup]

theorem get?_erase (m : NameMap α) (j k : Name) :
    (m.erase k).get? j = if j = k then none else m.get? j :=
  lookup_filter_ne k j m.entries

@[simp] theorem get?_empty (k : Name) : (empty : NameMap α).get? k = none := rfl

end NameMap

end FrameGraph
