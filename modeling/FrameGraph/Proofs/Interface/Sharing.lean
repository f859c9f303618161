import FrameGraph.Proofs.Interface.Requests
import FrameGraph.Proofs.Interface.Slots
import Mathlib.Data.Set.Card

/-! # Set layouts are shared between equal interfaces

All that a cache has was created once and returned, to whoever asked for the interface and to nobody
else. It keeps the layouts until it is dropped.
-/

namespace FrameGraph

set_option autoImplicit false

open Host

/-! ## All operations -/

namespace LayoutCache

/-- The cache has just the layouts that were created, each for slots of its own, and just those
that were returned. -/
structure Keeps (c : LayoutCache) (answers : List Answer) (log : List Call) : Prop where
  created : Log.setLayouts log = c.layouts.map fun e => ({ slots := e.1 }, e.2)
  distinct : (c.layouts.map Prod.fst).Nodup
  answered : ∀ a ∈ answers, ∀ layout, a.result = .ok layout →
    ∃ slots, StageUniforms.merge a.stages = .ok slots ∧ (slots, layout) ∈ c.layouts
  returned : ∀ e ∈ c.layouts, ∃ a ∈ answers, a.result = .ok e.2 ∧
    StageUniforms.merge a.stages = .ok e.1
  spared : ∀ o ∈ Log.destroyed log, o.kind ≠ .setLayout

theorem mem_of_find? {c : LayoutCache} {slots : List ResourceSlot} {layout : Handle .setLayout}
    (hFind : c.find? slots = some layout) : (slots, layout) ∈ c.layouts := by
  obtain ⟨before, after, hLayouts, -⟩ := List.lookup_eq_some_iff.mp hFind
  rw [hLayouts]
  exact List.mem_append_right _ List.mem_cons_self

theorem not_mem_of_find? {c : LayoutCache} {slots : List ResourceSlot}
    (hFind : c.find? slots = none) : slots ∉ c.layouts.map Prod.fst := by
  intro hMem
  obtain ⟨e, he, rfl⟩ := List.mem_map.mp hMem
  exact absurd (List.lookup_eq_none_iff.mp hFind e he) (by simp)

namespace Keeps

variable {c : LayoutCache} {answers : List Answer} {log next : List Call}

theorem empty : Keeps {} [] [] :=
  ⟨rfl, .nil, List.forall_mem_nil _, List.forall_mem_nil _, List.forall_mem_nil _⟩

/-- Nothing was created, and the further answers only returned what the cache has. -/
theorem stay (h : c.Keeps answers log) {more : List Answer}
    (hMore : ∀ a ∈ more, ∀ layout, a.result = .ok layout →
      ∃ slots, StageUniforms.merge a.stages = .ok slots ∧ (slots, layout) ∈ c.layouts)
    (hLayouts : Log.setLayouts next = [])
    (hSpared : ∀ o ∈ Log.destroyed next, o.kind ≠ .setLayout) :
    c.Keeps (answers ++ more) (log ++ next) where
  created := by rw [Log.setLayouts_append, hLayouts, List.append_nil, h.created]
  distinct := h.distinct
  answered := List.forall_mem_append.mpr ⟨h.answered, hMore⟩
  returned := by
    intro e he
    obtain ⟨a, ha, hReturned⟩ := h.returned e he
    exact ⟨a, List.mem_append_left _ ha, hReturned⟩
  spared := by
    rw [Log.destroyed_append]
    exact List.forall_mem_append.mpr ⟨h.spared, hSpared⟩

/-- A layout was created for slots that had none. -/
theorem add (h : c.Keeps answers log) {stages : List StageUniforms} {slots : List ResourceSlot}
    {layout : Handle .setLayout} (hMerge : StageUniforms.merge stages = .ok slots)
    (hFind : c.find? slots = none) (hLayouts : Log.setLayouts next = [({ slots := slots }, layout)])
    (hSpared : ∀ o ∈ Log.destroyed next, o.kind ≠ .setLayout) :
    (c.add slots layout).Keeps (answers ++ [⟨stages, .ok layout⟩]) (log ++ next) where
  created := by
    rw [Log.setLayouts_append, hLayouts, h.created, LayoutCache.add, List.map_append]
    rfl
  distinct := by
    rw [LayoutCache.add, List.map_append]
    exact h.distinct.append (List.nodup_singleton slots)
      (List.disjoint_singleton.mpr (not_mem_of_find? hFind))
  answered := by
    refine List.forall_mem_append.mpr ⟨fun a ha layout' hResult => ?_, ?_⟩
    · obtain ⟨slots', hMerge', hMem⟩ := h.answered a ha layout' hResult
      exact ⟨slots', hMerge', List.mem_append_left _ hMem⟩
    · refine List.forall_mem_singleton.mpr fun layout' hResult => ?_
      cases hResult
      exact ⟨slots, hMerge, List.mem_append_right _ List.mem_cons_self⟩
  returned := by
    refine List.forall_mem_append.mpr ⟨fun e he => ?_, ?_⟩
    · obtain ⟨a, ha, hReturned⟩ := h.returned e he
      exact ⟨a, List.mem_append_left _ ha, hReturned⟩
    · exact List.forall_mem_singleton.mpr
        ⟨_, List.mem_append_right _ List.mem_cons_self, rfl, hMerge⟩
  spared := by
    rw [Log.destroyed_append]
    exact List.forall_mem_append.mpr ⟨h.spared, hSpared⟩

theorem turn (h : c.Keeps answers log) {d : Device} {answer : Option Answer} {later : LayoutCache}
    (hTurn : c.Turn d answer later next) :
    later.Keeps (answers ++ answer.toList) (log ++ next) := by
  cases hTurn with
  | idle hSpares =>
    exact h.stay (List.forall_mem_nil _) (Log.setLayouts_of_spares hSpares)
      (Log.destroyed_of_spares hSpares)
  | failed hServed =>
    obtain ⟨hMade, hDestroyed⟩ := hServed.error_calls
    refine h.stay (List.forall_mem_singleton.mpr nofun) ?_ ?_
    · -- The request may be in the log, but it has made nothing.
      have hNone := Log.setLayouts_sublist_made next
      rw [hMade, List.sublist_nil, List.map_eq_nil_iff] at hNone
      exact hNone
    · rw [hDestroyed]
      exact List.forall_mem_nil _
  | @answered stages layout _ _ rest hServed hSpares =>
    have hRest := Log.setLayouts_of_spares hSpares
    have hSpared := Log.destroyed_of_spares hSpares
    cases hServed with
    | found hMerge hFind =>
      refine h.stay (List.forall_mem_singleton.mpr fun layout' hResult => ?_) hRest hSpared
      cases hResult
      exact ⟨_, hMerge, mem_of_find? hFind⟩
    | created hMerge hFind =>
      refine h.add hMerge hFind ?_ hSpared
      rw [Log.setLayouts_append, hRest]
      rfl

end Keeps

theorem run_cons (c : LayoutCache) (op : CacheOperation) (operations : List CacheOperation)
    (h : Host) : (c.run (op :: operations)).run h =
      let later := (((c.step op).run h).1.run operations).run ((c.step op).run h).2
      ((((c.answer? op).run h).1.toList ++ later.1.1, later.1.2), later.2) := rfl

theorem run_keeps (operations : List CacheOperation) {c : LayoutCache} {answers : List Answer}
    {log : List Call} (h : Host) (hKeeps : c.Keeps answers log) :
    ∃ answers' c' h' next, (c.run operations).run h = ((answers', c'), h') ∧ Sent h h' next ∧
      c'.Keeps (answers ++ answers') (log ++ next) := by
  induction operations generalizing c answers log h with
  | nil =>
    refine ⟨[], c, h, [], rfl, .refl h, ?_⟩
    rwa [List.append_nil, List.append_nil]
  | cons op operations ih =>
    obtain ⟨first, hFirst, hTurn⟩ := c.step_turn op h
    obtain ⟨answers', c', h', rest, hRun, hRest, hKeeps'⟩ :=
      ih ((c.step op).run h).2 (hKeeps.turn hTurn)
    refine ⟨((c.answer? op).run h).1.toList ++ answers', c', h', first ++ rest, ?_,
      hFirst.trans hRest, ?_⟩
    · rw [run_cons, hRun]
    · rwa [← List.append_assoc, ← List.append_assoc]

end LayoutCache

/-! ## Sharing -/

def SetLayoutInfo.interface (info : SetLayoutInfo) : Set ResourceSlot :=
  {slot | slot ∈ info.slots}

/-- The interfaces of which a layout was returned. -/
def returnedInterfaces (answers : List Answer) : Set (Set ResourceSlot) :=
  {i | ∃ a ∈ answers, (∃ layout, a.result = .ok layout) ∧ StageUniforms.interface a.stages = i}

namespace LayoutCache

/-- Equal interfaces share a layout, and other interfaces do not. -/
structure Shares (c : LayoutCache) (answers : List Answer) (log : List Call) : Prop where
  shared : ∀ a ∈ answers, ∀ b ∈ answers, ∀ layout layout',
    a.result = .ok layout → b.result = .ok layout' →
      (layout = layout' ↔ StageUniforms.interface a.stages = StageUniforms.interface b.stages)
  /-- The order of stages and uniforms does not count, and neither do repetitions. -/
  unordered : ∀ a ∈ answers, ∀ b ∈ answers, ∀ layout layout',
    a.result = .ok layout → b.result = .ok layout' →
      (∀ e, e ∈ StageUniforms.flatten a.stages ↔ e ∈ StageUniforms.flatten b.stages) →
        layout = layout'
  contents : ∀ a ∈ answers, ∀ layout, a.result = .ok layout →
    ∃ info, (info, layout) ∈ Log.setLayouts log ∧ info.interface = StageUniforms.interface a.stages
  increasing : ∀ e ∈ Log.setLayouts log, ResourceSlot.Increasing e.1.slots
  once : ((Log.setLayouts log).map fun e => e.1.interface).Nodup
  returned : {i | i ∈ (Log.setLayouts log).map fun e => e.1.interface} = returnedInterfaces answers
  size : c.size = (returnedInterfaces answers).ncard
  spared : ∀ o ∈ Log.destroyed log, o.kind ≠ .setLayout

/-- A request that fails leaves the cache as it is, and the device with no more and no fewer
objects. The next request is answered as if there had been no failure, unless the device itself
takes it differently. -/
def ForgetsFailures (c : LayoutCache) (h : Host) : Prop :=
  ∀ op stages e, ((c.answer? op).run h).1 = some ⟨stages, .error e⟩ →
    ((c.step op).run h).1 = c ∧
    (∃ log, Sent h ((c.step op).run h).2 log ∧ Log.made log = [] ∧ Log.destroyed log = []) ∧
    ∀ again, ((c.step op).run h).2.device.answer (.create .setLayout) =
        h.device.answer (.create .setLayout) →
      ((c.layoutFor again).run.run ((c.step op).run h).2).1 = ((c.layoutFor again).run.run h).1

namespace Keeps

variable {c : LayoutCache} {answers : List Answer} {log : List Call}

theorem increasing (h : c.Keeps answers log) {e : List ResourceSlot × Handle .setLayout}
    (he : e ∈ c.layouts) : ResourceSlot.Increasing e.1 := by
  obtain ⟨a, -, -, hMerge⟩ := h.returned e he
  exact (StageUniforms.lists_of_merge hMerge).increasing

theorem eq_of_slots (h : c.Keeps answers log) {e e' : List ResourceSlot × Handle .setLayout}
    (he : e ∈ c.layouts) (he' : e' ∈ c.layouts)
    (hSame : {slot | slot ∈ e.1} = {slot | slot ∈ e'.1}) : e = e' := by
  have hSlots := (StageUniforms.slots_eq_iff (h.increasing he) (h.increasing he')).mpr hSame
  exact List.inj_on_of_nodup_map h.distinct he he' hSlots

theorem interfaces (h : c.Keeps answers log) :
    ((Log.setLayouts log).map fun e => e.1.interface) =
      c.layouts.map fun e => {slot | slot ∈ e.1} := by
  rw [h.created, List.map_map]
  rfl

theorem once (h : c.Keeps answers log) :
    ((Log.setLayouts log).map fun e => e.1.interface).Nodup := by
  rw [h.interfaces]
  exact h.distinct.of_map.map_on fun e he e' he' => h.eq_of_slots he he'

theorem returned_eq (h : c.Keeps answers log) :
    {i | i ∈ (Log.setLayouts log).map fun e => e.1.interface} = returnedInterfaces answers := by
  rw [h.interfaces]
  refine Set.ext fun i => ⟨fun hi => ?_, ?_⟩
  · obtain ⟨e, he, rfl⟩ := List.mem_map.mp hi
    obtain ⟨a, ha, hResult, hMerge⟩ := h.returned e he
    exact ⟨a, ha, ⟨e.2, hResult⟩, (StageUniforms.mem_slots hMerge).symm⟩
  · rintro ⟨a, ha, ⟨layout, hResult⟩, rfl⟩
    obtain ⟨slots, hMerge, hMem⟩ := h.answered a ha layout hResult
    rw [← StageUniforms.mem_slots hMerge]
    exact List.mem_map_of_mem (f := fun e => {slot | slot ∈ e.1}) hMem

theorem size_eq (h : c.Keeps answers log) : c.size = (returnedInterfaces answers).ncard := by
  classical
  rw [← h.returned_eq, ← List.coe_toFinset, Set.ncard_coe_finset,
    List.toFinset_card_of_nodup h.once, h.interfaces, List.length_map]
  rfl

theorem shared_iff (h : c.Keeps answers log) (hLayouts : (c.layouts.map Prod.snd).Nodup)
    {a b : Answer} (ha : a ∈ answers) (hb : b ∈ answers) {layout layout' : Handle .setLayout}
    (hResult : a.result = .ok layout) (hResult' : b.result = .ok layout') :
    layout = layout' ↔ StageUniforms.interface a.stages = StageUniforms.interface b.stages := by
  obtain ⟨slots, hMerge, hMem⟩ := h.answered a ha layout hResult
  obtain ⟨slots', hMerge', hMem'⟩ := h.answered b hb layout' hResult'
  rw [← StageUniforms.mem_slots hMerge, ← StageUniforms.mem_slots hMerge']
  constructor
  · intro hSame
    obtain ⟨rfl, -⟩ := Prod.mk.inj (List.inj_on_of_nodup_map hLayouts hMem hMem' hSame)
    rfl
  · intro hSame
    exact congrArg Prod.snd (h.eq_of_slots hMem hMem' hSame)

theorem contents (h : c.Keeps answers log) {a : Answer} (ha : a ∈ answers)
    {layout : Handle .setLayout} (hResult : a.result = .ok layout) :
    ∃ info, (info, layout) ∈ Log.setLayouts log ∧
      info.interface = StageUniforms.interface a.stages := by
  obtain ⟨slots, hMerge, hMem⟩ := h.answered a ha layout hResult
  refine ⟨{ slots := slots }, ?_, StageUniforms.mem_slots hMerge⟩
  rw [h.created]
  exact List.mem_map.mpr ⟨_, hMem, rfl⟩

theorem shares (h : c.Keeps answers log) (hLayouts : (c.layouts.map Prod.snd).Nodup) :
    c.Shares answers log where
  shared := fun _ ha _ hb _ _ => h.shared_iff hLayouts ha hb
  unordered := fun _ ha _ hb _ _ hResult hResult' hSame =>
    (h.shared_iff hLayouts ha hb hResult hResult').mpr (StageUniforms.interface_congr hSame)
  contents := fun _ ha _ => h.contents ha
  increasing := by
    rw [h.created]
    refine List.forall_mem_map.mpr fun e he => h.increasing he
  once := h.once
  returned := h.returned_eq
  size := h.size_eq
  spared := h.spared

theorem nodup (hKeeps : c.Keeps answers log) {h h' : Host} (hSent : Sent h h' log) :
    (c.layouts.map Prod.snd).Nodup := by
  -- The device gives no two objects the same identifier.
  have hMade := hSent.nodup.sublist (Log.setLayouts_sublist_made log)
  rw [hKeeps.created, List.map_map] at hMade
  refine List.Nodup.of_map Handle.object ?_
  rwa [List.map_map]

end Keeps

theorem forgetsFailures (c : LayoutCache) (h : Host) : c.ForgetsFailures h := by
  intro op stages e hAnswer
  obtain ⟨log, hSent, hTurn⟩ := c.step_turn op h
  rw [hAnswer] at hTurn
  generalize hLater : ((c.step op).run h).1 = later at hTurn ⊢
  cases hTurn with
  | failed hServed =>
    obtain ⟨hMade, hDestroyed⟩ := hServed.error_calls
    refine ⟨rfl, ⟨log, hSent, hMade, hDestroyed⟩, fun again hSame => ?_⟩
    have hIssued : ((c.step op).run h).2.device.issued = h.device.issued := by
      rw [hSent.issued, hMade, List.length_nil, Nat.add_zero]
    obtain ⟨_, -, hRetry⟩ := c.served again ((c.step op).run h).2
    obtain ⟨_, -, hFirst⟩ := c.served again h
    exact hRetry.unique hFirst hSame hIssued

theorem sent_drop (c : LayoutCache) (h : Host) :
    ∃ gone : List (SetLayoutInfo × Handle .setLayout),
      gone.Perm (c.layouts.map fun l => ({ slots := l.1 }, l.2)) ∧
      Sent h (c.drop.run h).2 (gone.map fun e => .destroy e.2.object) := by
  let released := h.device.script.shuffled (fun l => [l.2.object]) c.layouts
  refine ⟨released.map fun l => ({ slots := l.1 }, l.2),
    (h.device.script.shuffled_perm _ c.layouts).map _, ?_⟩
  have hDrop := sent_destroyAll (released.map fun l => l.2.object) h
  rw [List.map_map] at hDrop ⊢
  exact hDrop

/-- Whatever a new cache is asked for, and whatever the device refuses, the answers share layouts
between equal interfaces and only between those. Neither shaders nor passes ever touch the layouts,
each of which is destroyed once, when the cache is dropped. -/
theorem equal_interfaces_share (operations : List CacheOperation) (h : Host) :
    ∃ answers c h' log, (run {} operations).run h = ((answers, c), h') ∧ Sent h h' log ∧
      c.Shares answers log ∧ c.ForgetsFailures h' ∧
      ((Log.setLayouts log).map Prod.snd).Nodup ∧
      (∃ gone : List (SetLayoutInfo × Handle .setLayout), gone.Perm (Log.setLayouts log) ∧
        Sent h' (c.drop.run h').2 (gone.map fun e => .destroy e.2.object)) ∧
      ∀ op, op.stages? = none → Within Call.SparesLayouts (c.step op) := by
  obtain ⟨answers, c, h', log, hRun, hSent, hKeeps⟩ := run_keeps operations h .empty
  rw [List.nil_append, List.nil_append] at hKeeps
  have hNodup := hKeeps.nodup hSent
  refine ⟨answers, c, h', log, hRun, hSent, hKeeps.shares hNodup, c.forgetsFailures h', ?_, ?_,
    fun op hIdle => c.within_step hIdle⟩
  · rw [hKeeps.created, List.map_map]
    exact hNodup
  · rw [hKeeps.created]
    exact c.sent_drop h'

end LayoutCache

end FrameGraph
