import FrameGraph.Proofs.Image.Attempts

/-! # Where an image gets its memory, and what a failure leaves

The memory of an image is of the first type that suits it, and a failure leaves nothing behind. If
there is an image, it owns its objects until it is dropped.
-/

namespace FrameGraph

set_option autoImplicit false

open Host

theorem MemoryTable.not_overruns (t : MemoryTable) (hCount : t.count ≤ capacity) :
    ¬ t.overruns = true := by
  simpa [overruns] using hCount

/-- The memory that is asked for, also where the request is refused. -/
def Log.memories (log : List Call) : List MemoryInfo :=
  log.filterMap fun c => match c with
    | .create (.memory info) _ => some info
    | _ => none

namespace ImageRequest

namespace Attempts

variable {r : ImageRequest} {t : MemoryTable} {d : Device} {result : Except ImageError Image}
  {log : List Call}

/-- Memory is asked for once at most. -/
theorem memories (h : r.Attempts t d result log) : Log.memories log = [] ∨
    ∃ i, t.FirstSuits d.nextNeeds.typeBits i ∧ Log.memories log = [⟨d.nextNeeds.size, i⟩] := by
  cases h with
  | noImage | overrun | noType => exact .inl rfl
  | noMemory _ i _ _ hType | unbound _ _ i _ _ hType | noView _ _ i _ _ hType =>
    exact .inr ⟨i, hType, rfl⟩
  | created _ _ _ i _ _ hType _ _ _ hNaming =>
    rcases hNaming with rfl | ⟨name, refusal, rfl⟩ <;> exact .inr ⟨i, hType, rfl⟩

theorem ok_iff (hCount : t.count ≤ MemoryTable.capacity) (h : r.Attempts t d result log) :
    (∃ i, result = .ok i) ↔
      d.answer (.create .image) = none ∧ (∃ i, t.Suits d.nextNeeds.typeBits i) ∧
        d.answer (.create .memory) = none ∧ d.answer .bindMemory = none ∧
        d.answer (.create .imageView) = none := by
  cases h with
  | noImage _ hImage => exact iff_of_false nofun fun hAll => by simp [hAll.1] at hImage
  | overrun _ _ hOverrun => exact absurd hOverrun (t.not_overruns hCount)
  | noType _ _ hType => exact iff_of_false nofun fun hAll => hAll.2.1.elim hType
  | noMemory _ _ _ _ _ hMemory => exact iff_of_false nofun fun hAll => by simp [hAll] at hMemory
  | unbound _ _ _ _ _ _ _ hBind => exact iff_of_false nofun fun hAll => by simp [hAll] at hBind
  | noView _ _ _ _ _ _ _ _ hView => exact iff_of_false nofun fun hAll => by simp [hAll] at hView
  | created _ _ _ i _ hImage hType hMemory hBind hView =>
    exact iff_of_true ⟨_, rfl⟩ ⟨hImage, ⟨i, hType.1⟩, hMemory, hBind, hView⟩

theorem eq_noSuitableMemory (hCount : t.count ≤ MemoryTable.capacity)
    (h : r.Attempts t d result log)
    (hImage : d.answer (.create .image) = none)
    (hType : ∀ i, ¬ t.Suits d.nextNeeds.typeBits i) :
    result = .error (.noSuitableMemory r.name d.nextNeeds.typeBits) := by
  cases h with
  | noImage _ hRefused => simp [hImage] at hRefused
  | overrun _ _ hOverrun => exact absurd hOverrun (t.not_overruns hCount)
  | noType => rfl
  | noMemory _ i _ _ hFirst | unbound _ _ i _ _ hFirst | noView _ _ i _ _ hFirst
  | created _ _ _ i _ _ hFirst => exact absurd hFirst.1 (hType i)

/-- What was made is destroyed in the order in which it was made. -/
theorem undone {e : ImageError} (h : r.Attempts t d (.error e) log) :
    Log.destroyed log = Log.made log ∧
      (Log.made log).map Object.kind <+: [.image, .memory] := by
  cases h <;> exact ⟨rfl, _, rfl⟩

theorem kept {i : Image} (h : r.Attempts t d (.ok i) log) : Log.destroyed log = [] ∧
    ∃ memory : Handle .memory, i.memory = some memory ∧
      Log.made log = [i.handle.object, memory.object, i.view.object] := by
  cases h with
  | created image memory view _ naming _ _ _ _ _ hNaming =>
    rcases hNaming with rfl | ⟨name, refusal, rfl⟩ <;> exact ⟨rfl, memory, rfl, rfl⟩

end Attempts

end ImageRequest

/-- What comes of the creation of an image, by what the device answers, and what becomes of the
objects that it makes. Whether the image could be named does not matter. -/
structure ImageRequest.Settled (r : ImageRequest) (t : MemoryTable) (d : Device)
    (result : Except ImageError Image) (log : List Call) : Prop where
  memory : ∀ info ∈ Log.memories log,
    info.size = d.nextNeeds.size ∧ t.FirstSuits d.nextNeeds.typeBits info.typeIndex
  unsuited : (∀ i, ¬ t.Suits d.nextNeeds.typeBits i) → Log.memories log = [] ∧
    (d.answer (.create .image) = none →
      result = .error (.noSuitableMemory r.name d.nextNeeds.typeBits))
  succeeds : (∃ i, result = .ok i) ↔ d.answer (.create .image) = none ∧
    (∃ i, t.Suits d.nextNeeds.typeBits i) ∧ d.answer (.create .memory) = none ∧
      d.answer .bindMemory = none ∧ d.answer (.create .imageView) = none
  /-- The image and the memory that were made are destroyed, once each and in this order. -/
  undone : ∀ e, result = .error e → (Log.made log).Nodup ∧ Log.destroyed log = Log.made log ∧
    (Log.made log).map Object.kind <+: [.image, .memory]
  /-- All is left to the image, which destroys it when it is dropped. -/
  owned : ∀ i, result = .ok i → Log.destroyed log = [] ∧ ∃ memory : Handle .memory,
    Log.made log = [i.handle.object, memory.object, i.view.object] ∧
      ∀ h, Sent h (i.drop.run h).2
        [.destroy i.view.object, .destroy i.handle.object, .destroy memory.object]

namespace Image

theorem create_attempts (env : Environment) (r : ImageRequest) (h : Host) :
    ∃ result h' log, (create env r).run.run h = (result, h') ∧ Sent h h' log ∧
      r.Attempts env.memory h.device result log := by
  rcases (ends_create_attempts env r h).cases with
    ⟨i, h', log, hRun, hSent, hEnd⟩ | ⟨e, h', log, hRun, hSent, hEnd⟩
  · exact ⟨_, h', log, hRun, hSent, hEnd⟩
  · exact ⟨_, h', log, hRun, hSent, hEnd⟩

theorem sent_drop {i : Image} {memory : Handle .memory} (hMemory : i.memory = some memory)
    (h : Host) : Sent h (i.drop.run h).2
      [.destroy i.view.object, .destroy i.handle.object, .destroy memory.object] := by
  have hObjects : i.objects = [i.view.object, i.handle.object, memory.object] := by
    rw [objects, hMemory]
  have hDrop : Sent h (i.drop.run h).2 (i.objects.map .destroy) := sent_destroyAll i.objects h
  rwa [hObjects] at hDrop

/-- An image is created in memory that suits it or not at all. Dropping it destroys what was
created for it, and dropping an image of someone else destroys nothing. -/
theorem create_outcome (env : Environment) (hCount : env.memory.count ≤ MemoryTable.capacity)
    (r : ImageRequest) (h : Host) :
    (∃ result h' log, (create env r).run.run h = (result, h') ∧ Sent h h' log ∧
      r.Settled env.memory h.device result log) ∧
    ∀ name handle view extent format h₁,
      ((foreign name handle view extent format).drop.run h₁).2 = h₁ := by
  refine ⟨?_, fun name handle view extent format h₁ => rfl⟩
  obtain ⟨result, h', log, hRun, hSent, hAttempts⟩ := create_attempts env r h
  refine ⟨result, h', log, hRun, hSent, ?_⟩
  constructor
  · intro info hInfo
    rcases hAttempts.memories with hNone | ⟨i, hType, hMemory⟩
    · rw [hNone] at hInfo
      cases hInfo
    · rw [hMemory] at hInfo
      obtain rfl := List.mem_singleton.mp hInfo
      exact ⟨rfl, hType⟩
  · intro hType
    refine ⟨?_, fun hImage => hAttempts.eq_noSuitableMemory hCount hImage hType⟩
    rcases hAttempts.memories with hNone | ⟨i, hFirst, -⟩
    · exact hNone
    · exact absurd hFirst.1 (hType i)
  · exact hAttempts.ok_iff hCount
  · rintro e rfl
    exact ⟨hSent.nodup, hAttempts.undone⟩
  · rintro i rfl
    obtain ⟨hNothing, memory, hMemory, hMade⟩ := hAttempts.kept
    exact ⟨hNothing, memory, hMade, sent_drop hMemory⟩

end Image

/-! ## A view that is refused

The first type of memory is not on the device, and the second one is not allowed. -/

namespace ViewRefused

def environment : Environment where
  memory := { types := [.none, .deviceLocal, .deviceLocal], count := 3 }
  surface := default
  namesObjects := true

def host : Host where
  device := { script := .ofLists [⟨.create .imageView, 1, ⟨-2⟩⟩] [⟨8192, 5⟩] false }

def request : ImageRequest where
  name := ⟨"scene"⟩
  extent := ⟨640, 480⟩
  format := ⟨44⟩
  usage := .colorTarget
  aspect := .color

theorem create_undone : environment.memory.count ≤ MemoryTable.capacity ∧ ∃ e h' log,
    (Image.create environment request).run.run host = (.error e, h') ∧ Sent host h' log ∧
      Log.destroyed log = Log.made log ∧ ∀ info ∈ Log.memories log, info.typeIndex = 2 := by
  have hCount : environment.memory.count ≤ MemoryTable.capacity := by decide
  obtain ⟨⟨result, h', log, hRun, hSent, hSettled⟩, -⟩ :=
    Image.create_outcome environment hCount request host
  have hLast : environment.memory.Suits 5 2 := ⟨by decide, by decide, by decide⟩
  have hOthers : ∀ i < 2, ¬ environment.memory.Suits 5 i := by
    rintro (_ | _ | i) hi ⟨-, hAllowed, hLocal⟩
    · exact absurd hLocal (by decide)
    · exact absurd hAllowed (by decide)
    · omega
  have hRefused : host.device.answer (.create .imageView) ≠ none := by decide
  refine ⟨hCount, ?_⟩
  cases result with
  | ok i => exact absurd (hSettled.succeeds.mp ⟨i, rfl⟩).2.2.2.2 hRefused
  | error e =>
    refine ⟨e, h', log, hRun, hSent, (hSettled.undone e rfl).2.1, fun info hInfo => ?_⟩
    obtain ⟨-, hSuits, hFirst⟩ := hSettled.memory info hInfo
    by_contra hOther
    rcases Nat.lt_or_gt_of_ne hOther with hLess | hMore
    · exact hOthers _ hLess hSuits
    · exact hFirst 2 hMore hLast

end ViewRefused

end FrameGraph
