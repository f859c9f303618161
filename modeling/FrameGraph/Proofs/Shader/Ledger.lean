import FrameGraph.Proofs.Shader.Footprint

/-! # The ledger of shader modules

Every module that was made or handed over belongs to a shader, or was lost with a shader that
could not be made. The modules that are gone are those that were lost and those of the shaders
that nobody holds any more. This balance holds between any two steps, whoever holds what.
-/

namespace FrameGraph

set_option autoImplicit false

open Host

namespace Shader

def allObjects (shaders : List Shader) : List Object := shaders.flatMap objects

theorem count_objects_le {s : Shader} {shaders : List Shader} (hs : s ∈ shaders) (o : Object) :
    s.objects.count o ≤ (allObjects shaders).count o := by
  obtain ⟨before, after, rfl⟩ := List.append_of_mem hs
  simp only [allObjects, List.flatMap_append, List.flatMap_cons, List.count_append]
  omega

/-- The shaders that are not held. -/
def unheld (shaders held : List Shader) : List Shader := shaders.filter fun s => !held.contains s

variable {shaders held held' : List Shader} {s : Shader}

theorem count_held_add_unheld (hs : s ∈ shaders) (hHeld : s ∈ held) (o : Object) :
    s.objects.count o + (allObjects (unheld shaders held)).count o ≤
      (allObjects shaders).count o := by
  have hPerm := (List.filter_append_perm (fun s => !held.contains s) shaders).flatMap_right objects
  have hSplit := hPerm.count_eq o
  rw [List.flatMap_append, List.count_append] at hSplit
  have hMem : s ∈ shaders.filter fun s => !!held.contains s :=
    List.mem_filter.mpr ⟨hs, by simpa using hHeld⟩
  have hLe := count_objects_le hMem o
  unfold allObjects unheld at *
  omega

theorem unheld_congr (h : ∀ s, s ∈ held ↔ s ∈ held') : unheld shaders held = unheld shaders held' :=
  List.filter_congr fun s _ => by simp [h s]

theorem unheld_cons (hHeld : s ∈ held) : unheld shaders (s :: held) = unheld shaders held := by
  refine unheld_congr fun t => ?_
  rw [List.mem_cons, or_iff_right_of_imp]
  rintro rfl
  exact hHeld

/-- The shaders that are not held are one more when the last owner of one goes. -/
theorem count_unheld_last (hNodup : shaders.Nodup) (hs : s ∈ shaders) (hLast : s ∉ held)
    (o : Object) : (allObjects (unheld shaders held)).count o =
      s.objects.count o + (allObjects (unheld shaders (s :: held))).count o := by
  have hMem : s ∈ unheld shaders held := List.mem_filter.mpr ⟨hs, by simpa using hLast⟩
  have hErase : (unheld shaders held).erase s = unheld shaders (s :: held) := by
    have hFilter : (unheld shaders held).Nodup := hNodup.filter _
    rw [hFilter.erase_eq_filter, unheld, List.filter_filter, unheld]
    refine List.filter_congr fun t _ => Bool.eq_iff_iff.mpr ?_
    simp
  have hPerm := (List.perm_cons_erase hMem).flatMap_right objects
  rw [hErase, List.flatMap_cons] at hPerm
  rw [← List.count_append]
  exact hPerm.count_eq o

end Shader

/-- The shaders that were made, those that are held, each as often as it has owners, the modules
that were lost, and those that were handed over. -/
structure Ledger where
  shaders : List Shader
  held : List Shader
  lost : List Object
  adopted : List Object

namespace Ledger

/-- How often a module was made or handed over. -/
def total (l : Ledger) (o : Object) : Nat := (Shader.allObjects l.shaders).count o + l.lost.count o

/-- The modules of a pipeline were there when it was made. -/
def Covers (l : Ledger) (log : List Call) : Prop :=
  ∀ before c after info, log = before ++ c :: after → c.pipeline? = some info →
    ∃ s ∈ l.shaders, info.stages = s.stageInfos ∧
      ∀ o, s.objects.count o + (Log.destroyedModules before).count o ≤ l.total o

structure Balances (l : Ledger) (h : Host) (log : List Call) : Prop where
  owners : h.owners.Perm (l.held.map Shader.key)
  keys : (l.shaders.map Shader.key).Nodup
  past : ∀ s ∈ l.shaders, s.key ≤ h.lastKey
  known : ∀ s ∈ l.held, s ∈ l.shaders
  gone : ∀ o, (Log.destroyedModules log).count o =
    (Shader.allObjects (Shader.unheld l.shaders l.held)).count o + l.lost.count o
  origin : ∀ o, l.total o = (Log.madeModules log).count o + l.adopted.count o
  covers : l.Covers log

variable {l : Ledger} {h h' : Host} {log next : List Call}

theorem Balances.nodup (hBalances : l.Balances h log) : l.shaders.Nodup :=
  .of_map Shader.key hBalances.keys

theorem Balances.eq_of_key (hBalances : l.Balances h log) {s t : Shader} (hs : s ∈ l.shaders)
    (ht : t ∈ l.shaders) (hKey : s.key = t.key) : s = t :=
  List.inj_on_of_nodup_map hBalances.keys hs ht hKey

theorem Balances.count_held (hBalances : l.Balances h log) {s : Shader} (hHeld : s ∈ l.held)
    (o : Object) : s.objects.count o + (Log.destroyedModules log).count o ≤ l.total o := by
  have hLe := Shader.count_held_add_unheld (hBalances.known s hHeld) hHeld o
  rw [hBalances.gone, total]
  omega

theorem Covers.idle {l' : Ledger} (hCovers : l.Covers log)
    (hNext : ∀ c ∈ next, c.pipeline? = none) (hShaders : l.shaders ⊆ l'.shaders)
    (hTotal : ∀ o, l.total o ≤ l'.total o) : l'.Covers (log ++ next) := by
  intro before c after info hSplit hInfo
  rcases Log.split_append hSplit with ⟨rest, hLog, -⟩ | ⟨mid, -, hMid⟩
  · obtain ⟨s, hs, hStages, hCount⟩ := hCovers before c rest info hLog hInfo
    exact ⟨s, hShaders hs, hStages, fun o => Nat.le_trans (hCount o) (hTotal o)⟩
  · have hNone := hNext c (hMid ▸ List.mem_append_cons_self)
    rw [hNone] at hInfo
    cases hInfo

/-! ## Work that uses shaders -/

/-- Pipelines are made from the modules of shaders that are held. -/
theorem Balances.quiet (hBalances : l.Balances h log) (hUses : ∀ c ∈ next, c.UsesOnly l.held)
    (hOwnership : ownership h' = ownership h) : l.Balances h' (log ++ next) where
  owners := by
    have hOwners : h'.owners = h.owners := congrArg Prod.fst hOwnership
    rw [hOwners]
    exact hBalances.owners
  keys := hBalances.keys
  past := by
    have hLast : h'.lastKey = h.lastKey := congrArg Prod.snd hOwnership
    rw [hLast]
    exact hBalances.past
  known := hBalances.known
  gone o := by
    rw [Log.destroyedModules_append, Log.destroyedModules_of_uses hUses, List.append_nil]
    exact hBalances.gone o
  origin o := by
    rw [Log.madeModules_append, Log.madeModules_of_uses hUses, List.append_nil]
    exact hBalances.origin o
  covers := by
    intro before c after info hSplit hInfo
    rcases Log.split_append hSplit with ⟨rest, hLog, -⟩ | ⟨mid, rfl, rfl⟩
    · exact hBalances.covers before c rest info hLog hInfo
    · obtain ⟨hMid, hLater⟩ := List.forall_mem_append.mp hUses
      obtain ⟨s, hHeld, hStages⟩ := (hLater c List.mem_cons_self).pipelines info hInfo
      refine ⟨s, hBalances.known s hHeld, hStages, fun o => ?_⟩
      rw [Log.destroyedModules_append, Log.destroyedModules_of_uses hMid, List.append_nil]
      exact hBalances.count_held hHeld o

/-! ## Owners come and go -/

def withHeld (l : Ledger) (held : List Shader) : Ledger := { l with held := held }

theorem Balances.perm (hBalances : l.Balances h log) {held : List Shader}
    (hPerm : l.held.Perm held) : (l.withHeld held).Balances h log where
  owners := hBalances.owners.trans (hPerm.map Shader.key)
  keys := hBalances.keys
  past := hBalances.past
  known s hs := hBalances.known s (hPerm.mem_iff.mpr hs)
  gone o := by
    rw [hBalances.gone, Shader.unheld_congr fun s => hPerm.mem_iff]
    rfl
  origin := hBalances.origin
  covers := hBalances.covers

theorem Balances.retain (hBalances : l.Balances h log) {s : Shader} (hs : s ∈ l.shaders)
    (hHeld : s ∈ l.held) : (l.withHeld (s :: l.held)).Balances (s.retain.run h).2 log where
  owners := hBalances.owners.cons s.key
  keys := hBalances.keys
  past := hBalances.past
  known t ht := by
    rcases List.mem_cons.mp ht with rfl | ht
    · exact hs
    · exact hBalances.known t ht
  gone o := by
    rw [hBalances.gone, ← Shader.unheld_cons hHeld]
    rfl
  origin := hBalances.origin
  covers := hBalances.covers

theorem Balances.release {s : Shader} {rest : List Shader}
    (hBalances : (l.withHeld (s :: rest)).Balances h log) :
    ∃ next, Sent h (s.release.run h).2 next ∧
      (l.withHeld rest).Balances (s.release.run h).2 (log ++ next) := by
  obtain ⟨hSent, hOwnership⟩ := s.run_release h
  have hOwners : (s.release.run h).2.owners = h.owners.erase s.key := congrArg Prod.fst hOwnership
  have hLast : (s.release.run h).2.lastKey = h.lastKey := congrArg Prod.snd hOwnership
  have hs : s ∈ l.shaders := hBalances.known s List.mem_cons_self
  have hLeft : (h.owners.erase s.key).Perm (rest.map Shader.key) := by
    have hErase := hBalances.owners.erase s.key
    rwa [withHeld, List.map_cons, List.erase_cons_head] at hErase
  -- Keys tell shaders apart, so the key is still there just when the shader is still held.
  have hStays : (h.owners.erase s.key).contains s.key = true ↔ s ∈ rest := by
    rw [List.contains_iff_mem, hLeft.mem_iff, List.mem_map]
    constructor
    · rintro ⟨t, ht, hKey⟩
      have hKnown : t ∈ l.shaders := hBalances.known t (List.mem_cons_of_mem s ht)
      exact hBalances.eq_of_key hKnown hs hKey ▸ ht
    · intro hMem
      exact ⟨s, hMem, rfl⟩
  have hModules : ∀ o ∈ s.modulesLeft (h.owners.erase s.key), o.kind = .shaderModule := by
    intro o ho
    unfold Shader.modulesLeft at ho
    split at ho
    · cases ho
    · exact Shader.kind_of_mem_objects ho
  refine ⟨_, hSent, ?_, hBalances.keys, ?_, ?_, fun o => ?_, fun o => ?_, ?_⟩
  · rw [hOwners]
    exact hLeft
  · rw [hLast]
    exact hBalances.past
  · intro t ht
    exact hBalances.known t (List.mem_cons_of_mem s ht)
  · have hGone : (Log.destroyedModules log).count o =
        (Shader.allObjects (Shader.unheld l.shaders (s :: rest))).count o + l.lost.count o :=
      hBalances.gone o
    rw [Log.destroyedModules_append, Log.destroyedModules_destroys hModules, List.count_append,
      hGone, Shader.modulesLeft]
    change _ = (Shader.allObjects (Shader.unheld l.shaders rest)).count o + l.lost.count o
    by_cases hRest : s ∈ rest
    · rw [if_pos (hStays.mpr hRest), Shader.unheld_cons hRest]
      rfl
    · have hNodup : l.shaders.Nodup := hBalances.nodup
      rw [if_neg (mt hStays.mp hRest), Shader.count_unheld_last hNodup hs hRest]
      omega
  · rw [Log.madeModules_append, Log.madeModules_destroys, List.append_nil]
    exact hBalances.origin o
  · refine hBalances.covers.idle ?_ (fun _ ht => ht) fun _ => Nat.le_refl _
    intro c hc
    obtain ⟨o, -, rfl⟩ := List.mem_map.mp hc
    rfl

theorem Balances.drop_pass {p : Pass} {rest : List Shader}
    (hBalances : (l.withHeld (p.shaders ++ rest)).Balances h log) :
    ∃ next, Sent h (p.drop.run h).2 next ∧
      (l.withHeld rest).Balances (p.drop.run h).2 (log ++ next) := by
  unfold Pass.drop
  unfold Pass.shaders at hBalances
  cases hPipeline : p.pipeline with
  | none =>
    rw [hPipeline] at hBalances
    exact ⟨[], .refl h, log.append_nil.symm ▸ hBalances⟩
  | some choice =>
    rw [hPipeline] at hBalances
    exact hBalances.release

theorem Balances.drop_passes {passes : List Pass} {rest : List Shader}
    (hBalances : (l.withHeld (passes.flatMap Pass.shaders ++ rest)).Balances h log) :
    ∃ next, Sent h ((passes.forM Pass.drop : HostM Unit).run h).2 next ∧
      (l.withHeld rest).Balances ((passes.forM Pass.drop : HostM Unit).run h).2 (log ++ next) := by
  induction passes generalizing h log with
  | nil => exact ⟨[], .refl h, log.append_nil.symm ▸ hBalances⟩
  | cons p passes ih =>
    rw [List.flatMap_cons, List.append_assoc] at hBalances
    obtain ⟨first, hSent, hFirst⟩ := hBalances.drop_pass
    obtain ⟨later, hLater, hRest⟩ := ih hFirst
    exact ⟨first ++ later, hSent.trans hLater, List.append_assoc .. ▸ hRest⟩

/-! ## Shaders are made -/

/-- A new shader with its first owner. Its modules were made or are handed over. -/
theorem Balances.enter {s : Shader} {given : List Object} (hBalances : l.Balances h log)
    (hKey : s.key = h.lastKey + 1) (hOwnership : ownership h' = (s.key :: h.owners, s.key))
    (hIdle : ∀ c ∈ next, c.pipeline? = none) (hDestroyed : Log.destroyedModules next = [])
    (hObjects : ∀ o, s.objects.count o = (Log.madeModules next).count o + given.count o) :
    ({ shaders := s :: l.shaders, held := s :: l.held, lost := l.lost,
       adopted := l.adopted ++ given } : Ledger).Balances h' (log ++ next) := by
  have hOwners : h'.owners = s.key :: h.owners := congrArg Prod.fst hOwnership
  have hLast : h'.lastKey = s.key := congrArg Prod.snd hOwnership
  -- The new key is greater than all earlier ones, so the new shader is none of the earlier ones.
  have hNew : ∀ t ∈ l.shaders, t.key < s.key := fun t ht => by
    rw [hKey]
    exact Nat.lt_succ_of_le (hBalances.past t ht)
  have hAll : ∀ o, (Shader.allObjects (s :: l.shaders)).count o =
      s.objects.count o + (Shader.allObjects l.shaders).count o := fun o => by
    rw [Shader.allObjects, List.flatMap_cons, List.count_append, Shader.allObjects]
  refine ⟨?_, ?_, ?_, ?_, fun o => ?_, fun o => ?_, ?_⟩
  · rw [hOwners]
    exact hBalances.owners.cons s.key
  · refine List.nodup_cons.mpr ⟨fun hMem => ?_, hBalances.keys⟩
    obtain ⟨t, ht, hSame⟩ := List.mem_map.mp hMem
    exact absurd hSame (Nat.ne_of_lt (hNew t ht))
  · rw [hLast]
    refine List.forall_mem_cons.mpr ⟨Nat.le_refl _, fun t ht => Nat.le_of_lt (hNew t ht)⟩
  · intro t ht
    rcases List.mem_cons.mp ht with rfl | ht
    · exact List.mem_cons_self
    · exact List.mem_cons_of_mem s (hBalances.known t ht)
  · have hUnheld : Shader.unheld (s :: l.shaders) (s :: l.held) =
        Shader.unheld l.shaders l.held := by
      have hNone : Shader.unheld (s :: l.shaders) (s :: l.held) =
          Shader.unheld l.shaders (s :: l.held) := by simp [Shader.unheld]
      rw [hNone]
      refine List.filter_congr fun t ht => ?_
      have hApart : t ≠ s := fun hSame => Nat.lt_irrefl _ (hSame ▸ hNew t ht)
      simp [hApart]
    rw [Log.destroyedModules_append, hDestroyed, List.append_nil, hBalances.gone, hUnheld]
  · have hOrigin := hBalances.origin o
    have hModules := hObjects o
    unfold total at *
    simp only [hAll, Log.madeModules_append, List.count_append]
    omega
  · refine hBalances.covers.idle hIdle (fun t ht => List.mem_cons_of_mem s ht) fun o => ?_
    unfold total
    simp only [hAll]
    omega

/-- A shader could not be made, and its modules are gone again. -/
theorem Balances.lose (hBalances : l.Balances h log) (hOwnership : ownership h' = ownership h)
    (hIdle : ∀ c ∈ next, c.pipeline? = none)
    (hLost : (Log.destroyedModules next).Perm (Log.madeModules next)) :
    ({ l with lost := l.lost ++ Log.madeModules next } : Ledger).Balances h' (log ++ next) := by
  have hOwners : h'.owners = h.owners := congrArg Prod.fst hOwnership
  have hLast : h'.lastKey = h.lastKey := congrArg Prod.snd hOwnership
  refine ⟨?_, hBalances.keys, ?_, hBalances.known, fun o => ?_, fun o => ?_, ?_⟩
  · rw [hOwners]
    exact hBalances.owners
  · rw [hLast]
    exact hBalances.past
  · rw [Log.destroyedModules_append, List.count_append, hBalances.gone, hLost.count_eq,
      List.count_append, Nat.add_assoc]
  · have hOrigin := hBalances.origin o
    unfold total at *
    simp only [Log.madeModules_append, List.count_append]
    omega
  · refine hBalances.covers.idle hIdle (fun _ ht => ht) fun o => ?_
    unfold total
    simp only [List.count_append]
    omega

end Ledger

end FrameGraph
