import FrameGraph.Proofs.Traversal
import FrameGraph.Proofs.Vertex.Division

/-! # What packing lays out

A packing in progress has dealt out the locations so far as the bindings ask for them, and the
open binding is the one that feeds the next location. `Placed` lists what placing one more input
may come to.
-/

namespace FrameGraph

set_option autoImplicit false

open Traversal VertexBinding

theorem addWords_cases (a b : Nat) :
    addWords a b = .ok (a + b) ∨ UInt32.size ≤ a + b ∧ addWords a b = .error .wordOverflow := by
  unfold addWords
  split
  · exact .inl rfl
  · exact .inr ⟨by omega, rfl⟩

theorem Attribute.columns_eq {a : Attribute} {format : Format} {n : Nat}
    (h : a.type.columns? = some (format, n)) :
    a.columns = List.replicate n ⟨format, a.byteSize / n⟩ := by
  rw [columns, h]

theorem Attribute.bytes_eq {a : Attribute} {format : Format} {n : Nat}
    (h : a.type.columns? = some (format, n)) : a.bytes = n * (a.byteSize / n) := by
  simp [bytes, columns_eq h]

theorem Attribute.width_eq {a : Attribute} {format : Format} {n : Nat}
    (h : a.type.columns? = some (format, n)) : a.width = n := by
  rw [width, columns_eq h, List.length_replicate]

namespace Packing

/-- Places one location in the open binding. -/
def put (p : Packing) (c : Column) : Packing where
  layout :=
    { p.layout with
      locations := p.layout.locations ++ [⟨p.location, p.binding, c.format, p.offset⟩] }
  location := p.location + 1
  first := p.first
  offset := p.offset + c.size

def putAll (p : Packing) (columns : List Column) : Packing := columns.foldl put p

section Put

variable (p : Packing)

@[simp] theorem putAll_cons (c : Column) (columns : List Column) :
    p.putAll (c :: columns) = (p.put c).putAll columns := rfl

@[simp] theorem put_location (c : Column) : (p.put c).location = p.location + 1 := rfl

@[simp] theorem put_offset (c : Column) : (p.put c).offset = p.offset + c.size := rfl

@[simp] theorem put_binding (c : Column) : (p.put c).binding = p.binding := rfl

@[simp] theorem closeBinding_binding (rate : InputRate) :
    (p.closeBinding rate).binding = p.binding + 1 := by
  simp [closeBinding, binding]

@[simp] theorem putAll_first (columns : List Column) : (p.putAll columns).first = p.first := by
  induction columns generalizing p with
  | nil => rfl
  | cons c columns ih => exact ih (p.put c)

@[simp] theorem putAll_binding (columns : List Column) :
    (p.putAll columns).binding = p.binding := by
  induction columns generalizing p with
  | nil => rfl
  | cons c columns ih => exact ih (p.put c)

@[simp] theorem putAll_location (columns : List Column) :
    (p.putAll columns).location = p.location + columns.length := by
  induction columns generalizing p with
  | nil => rfl
  | cons c columns ih =>
    rw [putAll_cons, ih, put_location, List.length_cons]
    omega

end Put

theorem placeColumns_cases (format : Format) (size n : Nat) (p : Packing) :
    placeColumns format size n p = .ok (p.putAll (List.replicate n ⟨format, size⟩)) ∨
      (UInt32.size ≤ p.location + n ∨ UInt32.size ≤ p.offset + n * size) ∧
        placeColumns format size n p = .error .wordOverflow := by
  induction n generalizing p with
  | zero => exact .inl rfl
  | succ n ih =>
    rw [List.replicate_succ, putAll_cons, placeColumns, Nat.succ_mul]
    rcases addWords_cases p.location 1 with hLocation | ⟨hWords, hLocation⟩
    · rcases addWords_cases p.offset size with hOffset | ⟨hWords, hOffset⟩
      · rw [hLocation, hOffset]
        rcases ih (p.put ⟨format, size⟩) with hRest | ⟨hWords, hRest⟩
        · exact .inl hRest
        · refine .inr ⟨?_, hRest⟩
          simp only [put_location, put_offset] at hWords
          omega
      · rw [hLocation, hOffset]
        exact .inr ⟨by omega, rfl⟩
    · rw [hLocation]
      exact .inr ⟨by omega, rfl⟩

/-- What placing one more input may come to. -/
inductive Placed (declared : List VertexBinding) (p : Packing) (a : Attribute) :
    Except PackingError Packing → Prop
  | wordOverflow (hWords : UInt32.size ≤ p.location + a.width ∨ UInt32.size ≤ p.offset + a.bytes ∨
      ∃ b, declared[p.binding]? = some b ∧ UInt32.size ≤ p.first + b.count) :
      Placed declared p a (.error .wordOverflow)
  | noFormat (hType : a.type.columns? = none) : Placed declared p a (.error (.noFormat p.location))
  | straddling (b : VertexBinding) (hType : a.type.columns? ≠ none)
      (hBinding : declared[p.binding]? = some b)
      (hBehind : p.first + b.count < p.location + a.width) :
      Placed declared p a
        (.error (.straddling p.binding b.count (p.location + a.width - p.first)))
  | full (b : VertexBinding) (hType : a.type.columns? ≠ none)
      (hBinding : declared[p.binding]? = some b)
      (hStop : p.location + a.width = p.first + b.count) :
      Placed declared p a (.ok ((p.putAll a.columns).closeBinding b.rate))
  | within (hType : a.type.columns? ≠ none)
      (hInside : ∀ b, declared[p.binding]? = some b → p.location + a.width < p.first + b.count) :
      Placed declared p a (.ok (p.putAll a.columns))

theorem placed (declared : List VertexBinding) (p : Packing) (a : Attribute) :
    Placed declared p a (p.place declared a) := by
  unfold place
  cases hType : a.type.columns? with
  | none => exact .noFormat hType
  | some columns =>
    obtain ⟨format, n⟩ := columns
    have hSome : a.type.columns? ≠ none := by simp [hType]
    rcases placeColumns_cases format (a.byteSize / n) n p with hPut | ⟨hWords, hPut⟩
    · simp only [hPut, ← Attribute.columns_eq hType]
      change Placed declared p a (settle declared (p.putAll a.columns))
      have hLocation : (p.putAll a.columns).location = p.location + a.width :=
        p.putAll_location a.columns
      rw [settle, putAll_binding]
      cases hBinding : declared[p.binding]? with
      | none => exact .within hSome fun b hb => by simp [hBinding] at hb
      | some b =>
        rcases addWords_cases p.first b.count with hStop | ⟨hWords, hStop⟩
        · simp only [putAll_first, putAll_location, hStop, bind, Except.bind]
          change Placed declared p a (if p.location + a.width = p.first + b.count then _ else
            if p.first + b.count < p.location + a.width then _ else _)
          split
          · exact .full b hSome hBinding ‹_›
          · split
            · exact .straddling b hSome hBinding ‹_›
            · refine .within hSome fun b' hb' => ?_
              obtain rfl := Option.some.inj (hBinding.symm.trans hb')
              omega
        · simp only [putAll_first, hStop]
          exact .wordOverflow (.inr (.inr ⟨b, hBinding, hWords⟩))
    · simp only [hPut]
      rw [← Attribute.bytes_eq hType, ← Attribute.width_eq hType] at hWords
      exact .wordOverflow (hWords.imp_right .inl)

end Packing

/-! ## The layout that the bindings ask for -/

/-- The rate of a buffer: that of its binding, or of the last one for what is left behind them. -/
inductive Rated (declared : List VertexBinding) : Nat → InputRate → Prop
  | declared {k : Nat} {b : VertexBinding} (h : declared[k]? = some b) : Rated declared k b.rate
  | leftover {b : VertexBinding} (h : declared.getLast? = some b) :
      Rated declared declared.length b.rate
  | undeclared (h : declared = []) : Rated declared 0 .perVertex

/-- Where every location lies: in the binding that feeds it, behind the bytes of the earlier
locations there. -/
structure Dealt (declared : List VertexBinding) (columns : List Column)
    (locations : List LocationSlot) : Prop where
  length_eq : locations.length = columns.length
  slot : ∀ i c, columns[i]? = some c → locations[i]? = some
    ({ location := i
       binding := feeding declared i
       format := c.format
       offset := bytesIn declared (feeding declared i) (columns.take i) } : LocationSlot)

/-- Each buffer has the stride and the rate of its binding. -/
def Buffered (declared : List VertexBinding) (columns : List Column) (buffers : List BufferSlot) :
    Prop :=
  ∀ k b, buffers[k]? = some b →
    b.binding = k ∧ b.stride = bytesIn declared k columns ∧ Rated declared k b.rate

/-- A layout of the columns with a buffer for each binding that feeds one of them, and for no
other one. -/
structure VertexLayout.Packs (declared : List VertexBinding) (columns : List Column)
    (l : VertexLayout) : Prop where
  dealt : Dealt declared columns l.locations
  used : ∀ k, k < l.buffers.length ↔ ∃ i < columns.length, feeding declared i = k
  buffered : Buffered declared columns l.buffers

theorem Dealt.snoc {declared : List VertexBinding} {columns : List Column}
    {locations : List LocationSlot} (h : Dealt declared columns locations) (c : Column) :
    Dealt declared (columns ++ [c])
      (locations ++
        [⟨columns.length, feeding declared columns.length, c.format,
          bytesIn declared (feeding declared columns.length) columns⟩]) where
  length_eq := by simp [h.length_eq]
  slot := by
    intro i c' hc
    by_cases hi : i < columns.length
    · rw [List.getElem?_append_left hi] at hc
      rw [List.getElem?_append_left (by rwa [h.length_eq]), h.slot i c' hc,
        List.take_append_of_le_length (Nat.le_of_lt hi)]
    · have hLast : i = columns.length := by
        have := (List.getElem?_eq_some_iff.mp hc).1
        rw [List.length_append, List.length_singleton] at this
        omega
      subst hLast
      obtain rfl : c = c' := by simpa using hc
      rw [← h.length_eq, List.getElem?_concat_length, h.length_eq]
      simp

namespace Packing

/-- The columns were dealt out and the bindings before the open one closed. -/
structure Lays (declared : List VertexBinding) (columns : List Column) (p : Packing) : Prop where
  location : p.location = columns.length
  binding_le : p.binding ≤ declared.length
  first : p.first = VertexBinding.start declared p.binding
  first_le : p.first ≤ p.location
  offset : p.offset = bytesIn declared p.binding columns
  dealt : Dealt declared columns p.layout.locations
  buffered : Buffered declared columns p.layout.buffers

/-- The open binding is not full yet. -/
def Settled (declared : List VertexBinding) (p : Packing) : Prop :=
  p.binding < declared.length → p.location < VertexBinding.start declared (p.binding + 1)

variable {declared : List VertexBinding} {columns : List Column} {p : Packing}

theorem lays_start (declared : List VertexBinding) : Lays declared [] .start where
  location := rfl
  binding_le := Nat.zero_le _
  first := rfl
  first_le := Nat.le_refl _
  offset := rfl
  dealt := ⟨rfl, nofun⟩
  buffered := nofun

namespace Lays

theorem feeds (h : Lays declared columns p) (hSettled : Settled declared p) :
    Feeds declared p.binding p.location :=
  ⟨h.binding_le, h.first ▸ h.first_le, hSettled⟩

theorem put (h : Lays declared columns p) (hSettled : Settled declared p) (c : Column) :
    Lays declared (columns ++ [c]) (p.put c) := by
  have hOpen : feeding declared columns.length = p.binding :=
    h.location ▸ (h.feeds hSettled).feeding_eq
  refine ⟨?_, h.binding_le, h.first, Nat.le_succ_of_le h.first_le, ?_, ?_, fun k b hb => ?_⟩
  · rw [put_location, h.location, List.length_append, List.length_singleton]
  · rw [put_binding, bytesIn_snoc, if_pos hOpen, ← h.offset]
    rfl
  · have hDealt := h.dealt.snoc c
    rwa [hOpen, ← h.offset, ← h.location] at hDealt
  · obtain ⟨hBinding, hStride, hRate⟩ := h.buffered k b hb
    have hk : k < p.binding := (List.getElem?_eq_some_iff.mp hb).1
    rw [bytesIn_snoc, if_neg (by omega), Nat.add_zero]
    exact ⟨hBinding, hStride, hRate⟩

theorem putAll {more : List Column} (h : Lays declared columns p)
    (hRoom : p.binding < declared.length →
      p.location + more.length ≤ VertexBinding.start declared (p.binding + 1)) :
    Lays declared (columns ++ more) (p.putAll more) := by
  induction more generalizing columns p with
  | nil => rwa [List.append_nil]
  | cons c more ih =>
    rw [List.length_cons] at hRoom
    rw [List.append_cons, putAll_cons]
    refine ih (h.put (fun hk => ?_) c) fun hk => ?_
    · have := hRoom hk
      omega
    · have := hRoom hk
      rw [put_binding, put_location]
      omega

theorem buffered_closeBinding {rate : InputRate} (h : Lays declared columns p)
    (hRate : Rated declared p.binding rate) :
    Buffered declared columns (p.closeBinding rate).layout.buffers := by
  intro k b hb
  by_cases hk : k < p.binding
  · refine h.buffered k b ?_
    rwa [closeBinding, List.getElem?_append_left hk] at hb
  · have hLast : k = p.binding := by
      have := (List.getElem?_eq_some_iff.mp hb).1
      change k < (p.closeBinding rate).binding at this
      rw [closeBinding_binding] at this
      omega
    subst hLast
    obtain rfl := Option.some.inj (List.getElem?_concat_length.symm.trans hb)
    exact ⟨rfl, h.offset, hRate⟩

theorem closeBinding {b : VertexBinding} (h : Lays declared columns p)
    (hBinding : declared[p.binding]? = some b) (hStop : p.location = p.first + b.count) :
    Lays declared columns (p.closeBinding b.rate) := by
  have hStart : p.location = VertexBinding.start declared (p.binding + 1) := by
    rw [hStop, h.first, VertexBinding.start_succ hBinding]
  have hNone : bytesIn declared (p.binding + 1) columns = 0 :=
    bytesIn_eq_zero (Nat.le_of_eq (h.location.symm.trans hStart))
  have hBuffered := h.buffered_closeBinding (.declared hBinding)
  refine ⟨h.location, ?_, ?_, Nat.le_refl _, ?_, h.dealt, hBuffered⟩
  · rw [closeBinding_binding]
    exact (List.getElem?_eq_some_iff.mp hBinding).1
  · rw [closeBinding_binding, ← hStart]
    rfl
  · rw [closeBinding_binding, hNone]
    rfl

end Lays

theorem settled_start (hAll : AllFeed declared) : Settled declared .start := hAll.start_lt

theorem settled_closeBinding (hAll : AllFeed declared) (h : Lays declared columns p)
    {b : VertexBinding} (hBinding : declared[p.binding]? = some b)
    (hStop : p.location = p.first + b.count) : Settled declared (p.closeBinding b.rate) := by
  intro hk
  have hClosed := h.closeBinding hBinding hStop
  have hFull : (p.closeBinding b.rate).location = (p.closeBinding b.rate).first := rfl
  rw [hFull, hClosed.first]
  exact hAll.start_lt hk

theorem Lays.place {p' : Packing} {a : Attribute} (hAll : AllFeed declared)
    (h : Lays declared columns p) (hPlace : p.place declared a = .ok p') :
    Lays declared (columns ++ a.columns) p' ∧ Settled declared p' := by
  have hPlaced := placed declared p a
  rw [hPlace] at hPlaced
  cases hPlaced with
  | full b hType hBinding hStop =>
    have hPut : Lays declared (columns ++ a.columns) (p.putAll a.columns) := by
      refine h.putAll fun _ => ?_
      rw [VertexBinding.start_succ hBinding, ← h.first]
      exact Nat.le_of_eq hStop
    have hFull : (p.putAll a.columns).location = (p.putAll a.columns).first + b.count := by
      rw [putAll_location, putAll_first]
      exact hStop
    rw [← putAll_binding] at hBinding
    exact ⟨hPut.closeBinding hBinding hFull, settled_closeBinding hAll hPut hBinding hFull⟩
  | within hType hInside =>
    have hRoom : p.binding < declared.length →
        p.location + a.columns.length < VertexBinding.start declared (p.binding + 1) := by
      intro hk
      have hBinding := List.getElem?_eq_getElem hk
      rw [VertexBinding.start_succ hBinding, ← h.first]
      exact hInside _ hBinding
    refine ⟨h.putAll fun hk => Nat.le_of_lt (hRoom hk), fun hk => ?_⟩
    rw [putAll_binding, putAll_location]
    exact hRoom (putAll_binding p a.columns ▸ hk)

theorem lays_placeAll (hAll : AllFeed declared) {attributes : List Attribute}
    (hPlace : attributes.foldlM (place declared) start = .ok p) :
    Lays declared (attributes.flatMap Attribute.columns) p ∧ Settled declared p := by
  induction attributes using List.reverseRecOn generalizing p with
  | nil =>
    cases hPlace
    exact ⟨lays_start declared, settled_start hAll⟩
  | append_singleton attributes a ih =>
    obtain ⟨q, hFront, hLast⟩ := foldlM_snoc_eq_ok.mp hPlace
    rw [List.flatMap_append, List.flatMap_singleton]
    exact (ih hFront).1.place hAll hLast

theorem rated_lastRate (hBinding : p.binding ≤ declared.length) :
    Rated declared p.binding (lastRate declared p.binding) := by
  unfold lastRate
  by_cases hk : p.binding < declared.length
  · rw [List.getElem?_eq_getElem hk]
    exact .declared (List.getElem?_eq_getElem hk)
  · have hLeft : p.binding = declared.length := by omega
    rw [hLeft, List.getElem?_eq_none (Nat.le_refl _)]
    cases hLast : declared.getLast? with
    | none =>
      obtain rfl := List.getLast?_eq_none_iff.mp hLast
      exact .undeclared rfl
    | some b => exact .leftover hLast

theorem Lays.packs_finish (hAll : AllFeed declared) (h : Lays declared columns p)
    (hSettled : Settled declared p) : (p.finish declared).Packs declared columns := by
  have hUsed : ∀ k, (∃ i < columns.length, feeding declared i = k) ↔
      k ≤ declared.length ∧ VertexBinding.start declared k < p.location := by
    intro k
    rw [hAll.exists_feeding_iff, h.location]
  have hBelow : ∀ k < p.binding, VertexBinding.start declared k < p.first := by
    intro k hk
    have hNext : VertexBinding.start declared (k + 1) ≤ p.first :=
      h.first ▸ VertexBinding.start_mono hk
    have hLength := h.binding_le
    exact Nat.lt_of_lt_of_le (hAll.start_lt (by omega)) hNext
  have hAbove : ∀ k ≤ declared.length, p.binding < k →
      p.location < VertexBinding.start declared k := by
    intro k hLength hk
    exact Nat.lt_of_lt_of_le (hSettled (by omega)) (VertexBinding.start_mono hk)
  have hFirst := h.first_le
  have hLength := h.binding_le
  unfold finish
  split
  · refine ⟨h.dealt, fun k => ?_, h.buffered⟩
    rw [hUsed]
    change k < p.binding ↔ _
    constructor
    · intro hk
      exact ⟨by omega, Nat.lt_of_lt_of_le (hBelow k hk) hFirst⟩
    · rintro ⟨hkLength, hkStart⟩
      by_contra hk
      have hMono : VertexBinding.start declared p.binding ≤ VertexBinding.start declared k :=
        VertexBinding.start_mono (Nat.le_of_not_lt hk)
      rw [← h.first] at hMono
      omega
  · refine ⟨h.dealt, fun k => ?_, h.buffered_closeBinding (rated_lastRate h.binding_le)⟩
    rw [hUsed]
    change k < (p.closeBinding _).binding ↔ _
    rw [closeBinding_binding]
    constructor
    · intro hk
      refine ⟨by omega, ?_⟩
      rcases Nat.lt_succ_iff_lt_or_eq.mp hk with hk | rfl
      · exact Nat.lt_of_lt_of_le (hBelow k hk) hFirst
      · rw [← h.first]
        omega
    · rintro ⟨hkLength, hkStart⟩
      by_contra hk
      have hkAbove := hAbove k hkLength (by omega)
      omega

end Packing

namespace VertexLayout

variable {attributes : List Attribute} {declared : List VertexBinding}

theorem findIdx_empty_eq_none :
    declared.findIdx? (fun b => b.count = 0) = none ↔ AllFeed declared := by
  rw [List.findIdx?_eq_none_iff, AllFeed]
  exact forall₂_congr fun b _ => by simp [Nat.pos_iff_ne_zero]

theorem pack_of_allFeed (hAll : AllFeed declared) :
    pack attributes declared =
      (attributes.foldlM (Packing.place declared) .start).map (Packing.finish declared) := by
  rw [pack, findIdx_empty_eq_none.mpr hAll]
  cases attributes.foldlM (Packing.place declared) .start <;> rfl

theorem allFeed_of_pack {result : Except PackingError VertexLayout}
    (h : pack attributes declared = result) (hResult : ∀ i, result ≠ .error (.emptyBinding i)) :
    AllFeed declared := by
  refine findIdx_empty_eq_none.mp ?_
  cases hFind : declared.findIdx? fun b => b.count = 0 with
  | none => rfl
  | some i =>
    rw [pack, hFind] at h
    exact absurd h.symm (hResult i)

theorem packs_of_pack {l : VertexLayout} (h : pack attributes declared = .ok l) :
    l.Packs declared (attributes.flatMap Attribute.columns) := by
  have hAll := allFeed_of_pack h nofun
  rw [pack_of_allFeed hAll, map_eq_ok] at h
  obtain ⟨p, hPlace, rfl⟩ := h
  obtain ⟨hLays, hSettled⟩ := Packing.lays_placeAll hAll hPlace
  exact hLays.packs_finish hAll hSettled

end VertexLayout

end FrameGraph
