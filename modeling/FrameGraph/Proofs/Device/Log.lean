import FrameGraph.Device.Call

/-! # What a list of calls makes and destroys

An object that was made from another one relies on it and has to be destroyed first. A list of
calls builds when it only makes objects, and reverts when it destroys all that it made, users
before what they rely on.
-/

namespace FrameGraph

set_option autoImplicit false

structure Reliance where
  user : Object
  base : Object
  deriving DecidableEq

/-- What an object made from the request relies on as long as it exists. Shader modules and set
layouts are only read while the object is made. -/
def CreateInfo.bases : CreateInfo → List Object
  | .imageView info => [info.image.object]
  | .framebuffer info => info.renderPass.object :: info.views.map Handle.object
  | .pipeline info => [info.layout.object, info.renderPass.object]
  | _ => []

namespace Call

/-- The object that the call brings into being, also if the request is refused. -/
def made : Call → List Object
  | .create info (.made id) => [⟨info.kind, id⟩]
  | .create info (.refused _ (some id)) => [⟨info.kind, id⟩]
  | _ => []

def destroyed : Call → List Object
  | .destroy o => [o]
  | _ => []

/-- A new object relies on its bases, an image on the memory that it is put into. -/
def reliances : Call → List Reliance
  | .create info outcome =>
    (Call.create info outcome).made.flatMap fun o => info.bases.map fun b => ⟨o, b⟩
  | .bindMemory image memory _ none => [⟨image.object, memory.object⟩]
  | _ => []

end Call

namespace Log

def made (log : List Call) : List Object := log.flatMap Call.made

def destroyed (log : List Call) : List Object := log.flatMap Call.destroyed

def reliances (log : List Call) : List Reliance := log.flatMap Call.reliances

@[simp] theorem made_nil : made [] = [] := rfl

@[simp] theorem made_append (log next : List Call) : made (log ++ next) = made log ++ made next :=
  List.flatMap_append

@[simp] theorem destroyed_nil : destroyed [] = [] := rfl

@[simp] theorem destroyed_append (log next : List Call) :
    destroyed (log ++ next) = destroyed log ++ destroyed next := List.flatMap_append

@[simp] theorem reliances_append (log next : List Call) :
    reliances (log ++ next) = reliances log ++ reliances next := List.flatMap_append

@[simp] theorem made_destroys (os : List Object) : made (os.map .destroy) = [] := by
  simp [made, List.flatMap_map, Call.made]

@[simp] theorem destroyed_destroys (os : List Object) : destroyed (os.map .destroy) = os := by
  simp [destroyed, List.flatMap_map, Call.destroyed]

@[simp] theorem reliances_destroys (os : List Object) : reliances (os.map .destroy) = [] := by
  simp [reliances, List.flatMap_map, Call.reliances]

theorem mem_destroyed {o : Object} {log : List Call} : o ∈ destroyed log ↔ .destroy o ∈ log := by
  constructor
  · intro h
    obtain ⟨c, hc, ho⟩ := List.mem_flatMap.mp h
    cases c with
    | destroy q =>
      obtain rfl := List.mem_singleton.mp ho
      exact hc
    | _ => cases ho
  · intro h
    exact List.mem_flatMap.mpr ⟨_, h, List.mem_singleton_self o⟩

/-- The calls only make objects, those of `kept`, and all may be destroyed in the order of
`kept`, before the objects of `later`. Shader modules are made elsewhere. -/
structure Builds (later : List Object) (log : List Call) (kept : List Object) : Prop where
  nothingDestroyed : destroyed log = []
  complete : kept.Perm (made log)
  usersFirst : ∀ r ∈ reliances log, [r.user, r.base].Sublist (kept ++ later)
  noModules : ∀ o ∈ kept, o.kind ≠ .shaderModule

/-- The calls end with the destruction of all that they made. -/
def Reverts (later : List Object) (log : List Call) : Prop :=
  ∃ building undone, log = building ++ undone.map .destroy ∧ Builds later building undone

/-- No object is destroyed before it is made, or while something that relies on it still
exists. -/
def Orderly (log : List Call) : Prop :=
  ∀ before o after, log = before ++ .destroy o :: after →
    o ∉ made after ∧ ∀ r ∈ reliances before, r.base = o → r.user ∈ destroyed before

@[simp] theorem made_records (buffer : CommandBuffer) (commands : List Command) :
    made (commands.map (.record buffer)) = [] := by
  simp [made, List.flatMap_map, Call.made]

@[simp] theorem destroyed_records (buffer : CommandBuffer) (commands : List Command) :
    destroyed (commands.map (.record buffer)) = [] := by
  simp [destroyed, List.flatMap_map, Call.destroyed]

/-! ## Orders of destruction -/

theorem split_append {α : Type} {log next before after : List α} {c : α}
    (h : log ++ next = before ++ c :: after) :
    (∃ rest, log = before ++ c :: rest ∧ after = rest ++ next) ∨
      ∃ mid, before = log ++ mid ∧ next = mid ++ c :: after := by
  rcases List.append_eq_append_iff.mp h with ⟨mid, hBefore, hNext⟩ | ⟨rest, hLog, hAfter⟩
  · exact .inr ⟨mid, hBefore, hNext⟩
  · cases rest with
    | nil => exact .inr ⟨[], by simpa using hLog.symm, hAfter.symm⟩
    | cons d rest =>
      obtain ⟨rfl, rfl⟩ := List.cons.inj hAfter
      exact .inl ⟨rest, hLog, rfl⟩

theorem split_destroys {os : List Object} {before after : List Call} {o : Object}
    (h : os.map .destroy = before ++ .destroy o :: after) :
    ∃ left right, os = left ++ o :: right ∧ before = left.map .destroy ∧
      after = right.map .destroy := by
  obtain ⟨left, tail, rfl, rfl, hTail⟩ := List.map_eq_append_iff.mp h
  obtain ⟨q, right, rfl, hq, rfl⟩ := List.map_eq_cons_iff.mp hTail
  cases hq
  exact ⟨left, right, rfl, rfl, rfl⟩

theorem mem_of_pair_sublist {α : Type} {a b : α} {left right : List α} (hLeft : b ∉ left)
    (hRight : b ∉ right) (h : [a, b].Sublist (left ++ b :: right)) : a ∈ left := by
  induction left with
  | nil =>
    cases h with
    | cons _ h => exact absurd (h.subset (by simp)) hRight
    | cons_cons _ h => exact absurd (List.singleton_sublist.mp h) hRight
  | cons x left ih =>
    cases h with
    | cons _ h =>
      exact List.mem_cons_of_mem x (ih (fun hb => hLeft (List.mem_cons_of_mem x hb)) h)
    | cons_cons _ h => exact List.mem_cons_self

/-- Where calls that destroy nothing are followed by destructions, a destruction is one of the
latter. -/
theorem split_at_destroy {building before after : List Call} {undone : List Object} {o : Object}
    (hBuilding : destroyed building = [])
    (h : building ++ undone.map .destroy = before ++ .destroy o :: after) :
    ∃ left right, undone = left ++ o :: right ∧ before = building ++ left.map .destroy ∧
      after = right.map .destroy := by
  rcases split_append h with ⟨rest, rfl, -⟩ | ⟨mid, rfl, hNext⟩
  · have hMem : o ∈ destroyed (before ++ .destroy o :: rest) := mem_destroyed.mpr (by simp)
    rw [hBuilding] at hMem
    cases hMem
  · obtain ⟨left, right, hUndone, rfl, hAfter⟩ := split_destroys hNext
    exact ⟨left, right, hUndone, rfl, hAfter⟩

theorem base_ne_shaderModule {log : List Call} {r : Reliance} (hr : r ∈ reliances log) :
    r.base.kind ≠ .shaderModule := by
  obtain ⟨c, -, hr⟩ := List.mem_flatMap.mp hr
  cases c with
  | create info outcome =>
    obtain ⟨o, -, hr⟩ := List.mem_flatMap.mp hr
    obtain ⟨b, hb, rfl⟩ := List.mem_map.mp hr
    cases info with
    | imageView _ =>
      obtain rfl := List.mem_singleton.mp hb
      exact fun h => nomatch h
    | framebuffer _ =>
      rcases List.mem_cons.mp hb with rfl | hb
      · exact fun h => nomatch h
      · obtain ⟨v, -, rfl⟩ := List.mem_map.mp hb
        exact fun h => nomatch h
    | pipeline _ =>
      rcases List.mem_cons.mp hb with rfl | hb
      · exact fun h => nomatch h
      · obtain rfl := List.mem_singleton.mp hb
        exact fun h => nomatch h
    | _ => cases hb
  | bindMemory image memory offset refusal =>
    cases refusal with
    | none =>
      obtain rfl := List.mem_singleton.mp hr
      exact fun h => nomatch h
    | some _ => cases hr
  | _ => cases hr

namespace Builds

variable {later later' kept kept' : List Object} {log next : List Call}

theorem nil : Builds later [] [] := ⟨rfl, .refl _, nofun, nofun⟩

theorem idle {c : Call} (hMade : c.made = []) (hDestroyed : c.destroyed = [])
    (hReliances : c.reliances = []) : Builds later [c] [] where
  nothingDestroyed := by simp [destroyed, hDestroyed]
  complete := by simp [made, hMade]
  usersFirst := by simp [reliances, hReliances]
  noModules := nofun

/-- A request that made an object, even if it was refused. -/
theorem create {info : CreateInfo} {outcome : Creation} {o : Object}
    (hMade : (Call.create info outcome).made = [o]) (hKind : o.kind ≠ .shaderModule)
    (hBases : ∀ b ∈ info.bases, b ∈ later) : Builds later [.create info outcome] [o] where
  nothingDestroyed := rfl
  complete := by simp [made, hMade]
  usersFirst r hr := by
    simp only [reliances, List.flatMap_cons, List.flatMap_nil, List.append_nil, Call.reliances,
      hMade, List.mem_map] at hr
    obtain ⟨b, hb, rfl⟩ := hr
    exact (List.singleton_sublist.mpr (hBases b hb)).cons_cons o
  noModules q hq := by
    obtain rfl := List.mem_singleton.mp hq
    exact hKind

theorem bind {image : Handle .image} {memory : Handle .memory}
    (h : [image.object, memory.object].Sublist later) :
    Builds later [.bindMemory image memory 0 none] [] where
  nothingDestroyed := rfl
  complete := .refl _
  usersFirst r hr := by
    obtain rfl := List.mem_singleton.mp hr
    exact h
  noModules := nofun

theorem mono (hLater : later.Sublist later') (h : Builds later log kept) :
    Builds later' log kept :=
  ⟨h.nothingDestroyed, h.complete,
    fun r hr => (h.usersFirst r hr).trans (hLater.append_left kept), h.noModules⟩

/-- What is there may go in another order, as long as users go before what they rely on. -/
theorem reorder (h : Builds later log kept) (hPerm : kept'.Perm kept)
    (hFirst : ∀ r ∈ reliances log, [r.user, r.base].Sublist (kept' ++ later)) :
    Builds later log kept' :=
  ⟨h.nothingDestroyed, hPerm.trans h.complete, hFirst,
    fun o ho => h.noModules o (hPerm.mem_iff.mp ho)⟩

/-- What is made next may rely on what is there, and goes before it. -/
theorem append (h : Builds later log kept) (hNext : Builds (kept ++ later) next kept') :
    Builds later (log ++ next) (kept' ++ kept) where
  nothingDestroyed := by rw [destroyed_append, h.nothingDestroyed, hNext.nothingDestroyed]; rfl
  complete := by
    rw [made_append]
    exact List.perm_append_comm.trans (h.complete.append hNext.complete)
  usersFirst r hr := by
    rw [List.append_assoc]
    rcases List.mem_append.mp (reliances_append log next ▸ hr) with hr | hr
    · exact (h.usersFirst r hr).trans (List.sublist_append_right _ _)
    · exact hNext.usersFirst r hr
  noModules o ho := (List.mem_append.mp ho).elim (hNext.noModules o) (h.noModules o)

/-- What is made next and does not rely on what is there may also go after it. -/
theorem beside (h : Builds later log kept) (hNext : Builds later next kept') :
    Builds later (log ++ next) (kept ++ kept') where
  nothingDestroyed := by rw [destroyed_append, h.nothingDestroyed, hNext.nothingDestroyed]; rfl
  complete := by
    rw [made_append]
    exact h.complete.append hNext.complete
  usersFirst r hr := by
    rw [List.append_assoc]
    rcases List.mem_append.mp (reliances_append log next ▸ hr) with hr | hr
    · exact (h.usersFirst r hr).trans ((List.sublist_append_right _ _).append_left kept)
    · exact (hNext.usersFirst r hr).trans (List.sublist_append_right _ _)
  noModules o ho := (List.mem_append.mp ho).elim (h.noModules o) (hNext.noModules o)

theorem undo (h : Builds later log kept) : Reverts later (log ++ kept.map .destroy) :=
  ⟨log, kept, rfl, h⟩

theorem orderly (h : Builds later log kept) : Orderly log := by
  intro before o after hSplit
  have : o ∈ destroyed log := mem_destroyed.mpr (by rw [hSplit]; simp)
  rw [h.nothingDestroyed] at this
  cases this

end Builds

namespace Reverts

variable {later kept : List Object} {log next : List Call}

/-- A refused request, together with what it left behind. -/
theorem refused {info : CreateInfo} {code : ResultCode} :
    Reverts later [.create info (.refused code none)] :=
  (Builds.idle rfl rfl rfl).undo

theorem leftover {info : CreateInfo} {code : ResultCode} {id : Nat}
    (hKind : info.kind ≠ .shaderModule) (hBases : ∀ b ∈ info.bases, b ∈ later) :
    Reverts later [.create info (.refused code (some id)), .destroy ⟨info.kind, id⟩] :=
  (Builds.create rfl hKind hBases).undo

theorem mono {later' : List Object} (hLater : later.Sublist later') (h : Reverts later log) :
    Reverts later' log := by
  obtain ⟨building, undone, hLog, hBuilds⟩ := h
  exact ⟨building, undone, hLog, hBuilds.mono hLater⟩

/-- A failure after some building: what was built goes after all that the failure undoes. -/
theorem after (h : Builds later log kept) (hNext : Reverts (kept ++ later) next) :
    Reverts later (log ++ (next ++ kept.map .destroy)) := by
  obtain ⟨building, undone, rfl, hBuilds⟩ := hNext
  refine ⟨log ++ building, undone ++ kept, ?_, h.append hBuilds⟩
  simp [List.append_assoc]

theorem destroyed_perm (h : Reverts later log) : (destroyed log).Perm (made log) := by
  obtain ⟨building, undone, rfl, hBuilds⟩ := h
  simpa [hBuilds.nothingDestroyed] using hBuilds.complete

theorem made_ne_shaderModule (h : Reverts later log) {o : Object} (ho : o ∈ made log) :
    o.kind ≠ .shaderModule := by
  obtain ⟨building, undone, rfl, hBuilds⟩ := h
  exact hBuilds.noModules o (hBuilds.complete.mem_iff.mpr (by simpa using ho))

theorem orderly (h : Reverts later log) (hNodup : (made log).Nodup)
    (hLater : ∀ o ∈ made log, o ∉ later) : Orderly log := by
  obtain ⟨building, undone, rfl, hBuilds⟩ := h
  simp only [made_append, made_destroys, List.append_nil] at hNodup hLater
  intro before o after hSplit
  obtain ⟨left, right, rfl, rfl, rfl⟩ := split_at_destroy hBuilds.nothingDestroyed hSplit
  refine ⟨by simp, fun r hr hBase => ?_⟩
  have hUndone : (left ++ o :: right).Nodup := hBuilds.complete.nodup_iff.mpr hNodup
  obtain ⟨-, hTail, hDisjoint⟩ := List.nodup_append.mp hUndone
  have hLeft : o ∉ left := fun ho => hDisjoint o ho o List.mem_cons_self rfl
  have hRight : o ∉ right ++ later := fun ho => by
    rcases List.mem_append.mp ho with ho | ho
    · exact (List.nodup_cons.mp hTail).1 ho
    · exact hLater o (hBuilds.complete.mem_iff.mp (by simp)) ho
  have hFirst := hBuilds.usersFirst r (by simpa using hr)
  rw [hBase, List.append_assoc, List.cons_append] at hFirst
  have hUser : r.user ∈ left := mem_of_pair_sublist hLeft hRight hFirst
  simpa [hBuilds.nothingDestroyed] using hUser

end Reverts

/-- Shader modules may go at any time, since nothing relies on them. -/
theorem Orderly.append_modules {log : List Call} {os : List Object} (h : Orderly log)
    (hModules : ∀ o ∈ os, o.kind = .shaderModule) : Orderly (log ++ os.map .destroy) := by
  intro before o after hSplit
  rcases split_append hSplit with ⟨rest, rfl, rfl⟩ | ⟨mid, rfl, hNext⟩
  · simpa using h before o rest rfl
  · obtain ⟨left, right, rfl, rfl, rfl⟩ := split_destroys hNext
    refine ⟨by simp, fun r hr hBase => absurd (hModules o (by simp)) ?_⟩
    exact hBase ▸ base_ne_shaderModule hr

end Log

end FrameGraph
