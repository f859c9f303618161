import Mathlib.Data.List.Forall2

/-! # Traversals that may fail -/

namespace FrameGraph.Traversal

set_option autoImplicit false

variable {α β ε : Type}

theorem bind_eq_ok {work : Except ε α} {next : α → Except ε β} {b : β} :
    work >>= next = .ok b ↔ ∃ a, work = .ok a ∧ next a = .ok b := by
  cases work with
  | error e =>
    constructor
    · intro h
      cases h
    · rintro ⟨_, h, -⟩
      cases h
  | ok a =>
    constructor
    · intro h
      exact ⟨a, rfl, h⟩
    · rintro ⟨_, ⟨⟩, h⟩
      exact h

theorem bind_eq_error {work : Except ε α} {next : α → Except ε β} {e : ε} :
    work >>= next = .error e ↔ work = .error e ∨ ∃ a, work = .ok a ∧ next a = .error e := by
  cases work with
  | error e' =>
    constructor
    · rintro ⟨⟩
      exact .inl rfl
    · rintro (⟨⟨⟩⟩ | ⟨_, h, -⟩)
      · rfl
      · cases h
  | ok a =>
    constructor
    · intro h
      exact .inr ⟨a, rfl, h⟩
    · rintro (h | ⟨_, ⟨⟩, h⟩)
      · cases h
      · exact h

theorem mapM_eq_ok {f : α → Except ε β} (as : List α) (bs : List β) :
    as.mapM f = .ok bs ↔ List.Forall₂ (fun a b => f a = .ok b) as bs := by
  induction as generalizing bs with
  | nil =>
    rw [List.mapM_nil, List.forall₂_nil_left_iff]
    constructor
    · rintro ⟨⟩
      rfl
    · rintro rfl
      rfl
  | cons a as ih =>
    rw [List.mapM_cons, bind_eq_ok]
    constructor
    · rintro ⟨b, hb, hRest⟩
      obtain ⟨rest, hMap, ⟨⟩⟩ := bind_eq_ok.mp hRest
      exact .cons hb ((ih rest).mp hMap)
    · rintro (_ | ⟨hb, hRest⟩)
      exact ⟨_, hb, bind_eq_ok.mpr ⟨_, (ih _).mpr hRest, rfl⟩⟩

theorem mapM_cons_eq_error {f : α → Except ε β} {a : α} {as : List α} {e : ε} :
    (a :: as).mapM f = .error e ↔
      f a = .error e ∨ (∃ b, f a = .ok b) ∧ as.mapM f = .error e := by
  rw [List.mapM_cons, bind_eq_error]
  refine or_congr_right ?_
  constructor
  · rintro ⟨b, hb, hRest⟩
    rcases bind_eq_error.mp hRest with hRest | ⟨_, -, ⟨⟩⟩
    exact ⟨⟨b, hb⟩, hRest⟩
  · rintro ⟨⟨b, hb⟩, hRest⟩
    exact ⟨b, hb, bind_eq_error.mpr (.inl hRest)⟩

/-- A traversal fails with the error of the first member that fails. -/
theorem mapM_eq_error {f : α → Except ε β} {as : List α} {e : ε} :
    as.mapM f = .error e ↔ ∃ before a after, as = before ++ a :: after ∧
      (∀ b ∈ before, ∃ y, f b = .ok y) ∧ f a = .error e := by
  induction as with
  | nil =>
    constructor
    · nofun
    · rintro ⟨before, a, after, h, -⟩
      simp at h
  | cons x as ih =>
    rw [mapM_cons_eq_error, ih]
    constructor
    · rintro (hHead | ⟨hHead, before, a, after, rfl, hBefore, ha⟩)
      · exact ⟨[], x, as, rfl, nofun, hHead⟩
      · exact ⟨x :: before, a, after, rfl, List.forall_mem_cons.mpr ⟨hHead, hBefore⟩, ha⟩
    · rintro ⟨before, a, after, hSplit, hBefore, ha⟩
      cases before with
      | nil =>
        obtain ⟨rfl, rfl⟩ := List.cons.inj hSplit
        exact .inl ha
      | cons b before =>
        obtain ⟨rfl, rfl⟩ := List.cons.inj hSplit
        obtain ⟨hHead, hBefore⟩ := List.forall_mem_cons.mp hBefore
        exact .inr ⟨hHead, before, a, after, rfl, hBefore, ha⟩

/-- A loop fails at the first member with which its body fails. -/
theorem foldlM_eq_error {f : β → α → Except ε β} {b : β} {as : List α} {e : ε} :
    as.foldlM f b = .error e ↔ ∃ before a after c, as = before ++ a :: after ∧
      before.foldlM f b = .ok c ∧ f c a = .error e := by
  induction as generalizing b with
  | nil =>
    constructor
    · nofun
    · rintro ⟨before, a, after, c, h, -⟩
      simp at h
  | cons x as ih =>
    rw [List.foldlM_cons, bind_eq_error]
    constructor
    · rintro (hHead | ⟨b', hHead, hRest⟩)
      · exact ⟨[], x, as, b, rfl, rfl, hHead⟩
      · obtain ⟨before, a, after, c, rfl, hBefore, ha⟩ := ih.mp hRest
        refine ⟨x :: before, a, after, c, rfl, ?_, ha⟩
        exact bind_eq_ok.mpr ⟨b', hHead, hBefore⟩
    · rintro ⟨before, a, after, c, hSplit, hBefore, ha⟩
      cases before with
      | nil =>
        obtain ⟨rfl, rfl⟩ := List.cons.inj hSplit
        cases hBefore
        exact .inl ha
      | cons y before =>
        obtain ⟨rfl, rfl⟩ := List.cons.inj hSplit
        obtain ⟨b', hHead, hBefore⟩ := bind_eq_ok.mp hBefore
        exact .inr ⟨b', hHead, ih.mpr ⟨before, a, after, c, rfl, hBefore, ha⟩⟩

theorem foldlM_snoc_eq_ok {f : β → α → Except ε β} {b d : β} {as : List α} {a : α} :
    (as ++ [a]).foldlM f b = .ok d ↔ ∃ c, as.foldlM f b = .ok c ∧ f c a = .ok d := by
  rw [List.foldlM_append, bind_eq_ok]
  refine exists_congr fun c => and_congr_right fun _ => ?_
  rw [List.foldlM_cons, bind_eq_ok]
  constructor
  · rintro ⟨_, hLast, ⟨⟩⟩
    exact hLast
  · exact fun hLast => ⟨d, hLast, rfl⟩

theorem map_eq_ok {f : α → β} {result : Except ε α} {b : β} :
    result.map f = .ok b ↔ ∃ a, result = .ok a ∧ f a = b := by
  cases result with
  | ok a =>
    constructor
    · rintro ⟨⟩
      exact ⟨a, rfl, rfl⟩
    · rintro ⟨_, ⟨⟩, rfl⟩
      rfl
  | error e => exact iff_of_false nofun nofun

theorem map_eq_error {f : α → β} {result : Except ε α} {e : ε} :
    result.map f = .error e ↔ result = .error e := by
  cases result with
  | ok a => exact iff_of_false nofun nofun
  | error e' =>
    constructor
    · rintro ⟨⟩
      rfl
    · rintro ⟨⟩
      rfl

theorem exists_ok_or_error (result : Except ε α) :
    (∃ a, result = .ok a) ∨ ∃ e, result = .error e := by
  cases result with
  | ok a => exact .inl ⟨a, rfl⟩
  | error e => exact .inr ⟨e, rfl⟩

theorem exists_eq_ok_iff {result : Except ε α} :
    (∃ a, result = .ok a) ↔ ∀ e, result ≠ .error e := by
  cases result with
  | ok a => exact iff_of_true ⟨a, rfl⟩ nofun
  | error e => exact iff_of_false nofun fun h => h e rfl

theorem exists_mapM_eq_ok {f : α → Except ε β} {as : List α} :
    (∃ bs, as.mapM f = .ok bs) ↔ ∀ a ∈ as, ∃ b, f a = .ok b := by
  induction as with
  | nil => exact iff_of_true ⟨[], rfl⟩ nofun
  | cons a as ih =>
    rw [List.forall_mem_cons, ← ih, List.mapM_cons]
    constructor
    · rintro ⟨_, hOk⟩
      obtain ⟨b, hb, hRest⟩ := bind_eq_ok.mp hOk
      obtain ⟨bs, hbs, -⟩ := bind_eq_ok.mp hRest
      exact ⟨⟨b, hb⟩, ⟨bs, hbs⟩⟩
    · rintro ⟨⟨b, hb⟩, ⟨bs, hbs⟩⟩
      exact ⟨b :: bs, bind_eq_ok.mpr ⟨b, hb, bind_eq_ok.mpr ⟨bs, hbs, rfl⟩⟩⟩

theorem exists_left_of_mem {R : α → β → Prop} {as : List α} {bs : List β}
    (h : List.Forall₂ R as bs) {b : β} (hb : b ∈ bs) : ∃ a ∈ as, R a b := by
  induction h with
  | nil => cases hb
  | cons hHead _ ih =>
    rcases List.mem_cons.mp hb with rfl | hb
    · exact ⟨_, List.mem_cons_self, hHead⟩
    · obtain ⟨a, ha, hR⟩ := ih hb
      exact ⟨a, List.mem_cons_of_mem _ ha, hR⟩

theorem exists_getElem?_of_forall₂ {R : α → β → Prop} {as : List α} {bs : List β}
    (h : List.Forall₂ R as bs) {k : Nat} {a : α} (ha : as[k]? = some a) :
    ∃ b, bs[k]? = some b ∧ R a b := by
  induction h generalizing k with
  | nil => cases ha
  | cons hHead _ ih =>
    cases k with
    | zero =>
      cases ha
      exact ⟨_, rfl, hHead⟩
    | succ k => exact ih ha

theorem map_eq_of_forall₂ {γ : Type} {R : α → β → Prop} {f : α → γ} {g : β → γ}
    (hSame : ∀ a b, R a b → g b = f a) {as : List α} {bs : List β} (h : List.Forall₂ R as bs) :
    bs.map g = as.map f := by
  induction h with
  | nil => rfl
  | cons hHead _ ih => rw [List.map_cons, List.map_cons, hSame _ _ hHead, ih]

theorem map_eq_of_rel {γ : Type} {R : α → β → Prop} {f : α → γ} {g : β → γ}
    (hSame : ∀ a b, R a b → g b = f a) {a : Option α} {b : Option β} (h : Option.Rel R a b) :
    b.map g = a.map f := by
  cases h with
  | some hR => exact congrArg some (hSame _ _ hR)
  | none => rfl

theorem forM_eq_ok {f : α → Except ε Unit} {as : List α} :
    as.forM f = .ok () ↔ ∀ a ∈ as, f a = .ok () := by
  induction as with
  | nil => exact ⟨fun _ => nofun, fun _ => rfl⟩
  | cons a as ih =>
    rw [List.forall_mem_cons, ← ih]
    constructor
    · intro h
      obtain ⟨⟨⟩, ha, hRest⟩ := bind_eq_ok.mp h
      exact ⟨ha, hRest⟩
    · rintro ⟨ha, hRest⟩
      exact bind_eq_ok.mpr ⟨(), ha, hRest⟩

/-- A traversal fails where it first meets a member of a sort with which it fails, if it goes on
with all others. -/
theorem mapM_eq_error_of_find? {f : α → Except ε β} {bad : α → Bool}
    (hGood : ∀ a, bad a = false → ∃ b, f a = .ok b) {as : List α} {a : α}
    (hFirst : as.find? bad = some a) {e : ε} (ha : f a = .error e) : as.mapM f = .error e := by
  obtain ⟨-, before, after, hSplit, hBefore⟩ := List.find?_eq_some_iff_append.mp hFirst
  refine mapM_eq_error.mpr ⟨before, a, after, hSplit, fun b hb => ?_, ha⟩
  exact hGood b (by simpa using hBefore b hb)

theorem forM_eq_mapM (f : α → Except ε Unit) (as : List α) :
    as.forM f = (as.mapM f).map fun _ => () := by
  induction as with
  | nil => rfl
  | cons a as ih =>
    have hForM : (a :: as).forM f = f a >>= fun _ => as.forM f := rfl
    rw [hForM, ih, List.mapM_cons]
    cases f a with
    | error e => rfl
    | ok u => cases as.mapM f <;> rfl

theorem mapM_eq_some {f : α → Option β} {g : α → β} {as : List α}
    (h : ∀ a ∈ as, f a = some (g a)) : as.mapM f = some (as.map g) := by
  induction as with
  | nil => rfl
  | cons a as ih =>
    obtain ⟨hHead, hTail⟩ := List.forall_mem_cons.mp h
    rw [List.mapM_cons, hHead, ih hTail]
    rfl

theorem exists_append_of_getElem? {as : List α} {k : Nat} {a : α} (h : as[k]? = some a) :
    ∃ before after, as = before ++ a :: after ∧ before.length = k := by
  obtain ⟨hk, rfl⟩ := List.getElem?_eq_some_iff.mp h
  refine ⟨as.take k, as.drop (k + 1), ?_, List.length_take_of_le (Nat.le_of_lt hk)⟩
  rw [← List.drop_eq_getElem_cons hk, List.take_append_drop]

end FrameGraph.Traversal
