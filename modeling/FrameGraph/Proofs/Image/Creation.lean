import FrameGraph.Proofs.Image.Attempts

/-! # The calls that create an image

A successful creation is always the same row of calls; a failed one ends with the destruction of
what it made.
-/

namespace FrameGraph

set_option autoImplicit false

open Host

/-- The device refuses nothing, and whatever an image needs, there is memory for it. -/
structure Script.Obliging (s : Script) (memory : MemoryTable) : Prop where
  refusesNothing : ∀ request turn, s.refusal request turn = none
  hasMemory : ∀ query, ∃ index,
    memory.search (s.needs query).typeBits .deviceLocal = .ok (some index)

theorem Host.ends_acquire_reverts {ε : Type} (later : List Object) (info : CreateInfo)
    (failure : ResultCode → ε) (memory : MemoryTable) (h : Host)
    (hKind : info.kind ≠ .shaderModule) (hBases : ∀ b ∈ info.bases, b ∈ later) :
    Ends (acquire info failure) h (fun handle log => log = [.create info (.made handle.id)])
      fun _ log => Log.Reverts later log ∧ ¬ h.device.script.Obliging memory := by
  apply (ends_acquire info failure h).mono_failed
  rintro e log ⟨code, hAnswer, -, hLog⟩
  constructor
  · rcases hLog with rfl | ⟨id, rfl⟩
    · exact .refused
    · exact .leftover hKind hBases
  · intro hObliging
    rw [Device.answer, hObliging.refusesNothing] at hAnswer
    cases hAnswer

/-- The image and the calls that created it. The calls at the end name the image for tools. -/
inductive ImageRequest.Fulfilled (r : ImageRequest) : Image → List Call → Prop
  | intro (image : Handle .image) (memory : Handle .memory) (view : Handle .imageView)
      (info : MemoryInfo) (naming : List Call)
      (hNaming : naming = [] ∨ ∃ name refusal,
        naming = [.nameObject imageObjectType image.object name refusal]) :
      Fulfilled r ⟨r.name, r.extent, r.format, r.usage, r.aspect, image, view, some memory⟩
        ([.create (.image r.info) (.made image.id), .queryMemoryNeeds image,
          .create (.memory info) (.made memory.id), .bindMemory image memory 0 none,
          .create (.imageView (r.viewInfo image)) (.made view.id)] ++ naming)

namespace ImageRequest

theorem builds_queried (r : ImageRequest) (image : Handle .image) :
    Log.Builds [] [.create (.image r.info) (.made image.id), .queryMemoryNeeds image]
      [image.object] := by
  have hImage : Log.Builds [] [.create (.image r.info) (.made image.id)] [image.object] :=
    .create rfl nofun nofun
  have hQuery : Log.Builds [] [.queryMemoryNeeds image] [] := .idle rfl rfl rfl
  exact hImage.beside hQuery

theorem builds_taken (r : ImageRequest) (image : Handle .image) (memory : Handle .memory)
    (info : MemoryInfo) : Log.Builds [] [.create (.image r.info) (.made image.id),
      .queryMemoryNeeds image, .create (.memory info) (.made memory.id)]
      [image.object, memory.object] := by
  have hMemory : Log.Builds [] [.create (.memory info) (.made memory.id)] [memory.object] :=
    .create rfl nofun nofun
  exact (r.builds_queried image).beside hMemory

/-- The view relies on the image and the image on its memory, and so they are destroyed. -/
theorem Fulfilled.builds {r : ImageRequest} {i : Image} {log : List Call}
    (h : r.Fulfilled i log) : Log.Builds [] log i.objects := by
  obtain ⟨image, memory, view, info, naming, hNaming⟩ := h
  have hViewed : Log.Builds [image.object, memory.object]
      [.bindMemory image memory 0 none, .create (.imageView (r.viewInfo image)) (.made view.id)]
      [view.object] := by
    have hBound : Log.Builds [image.object, memory.object] [.bindMemory image memory 0 none] [] :=
      .bind (.refl _)
    refine hBound.beside (.create rfl nofun fun b hb => ?_)
    obtain rfl := List.mem_singleton.mp hb
    exact List.mem_cons_self
  have hNamed : Log.Builds [] naming [] := by
    rcases hNaming with rfl | ⟨name, refusal, rfl⟩
    · exact .nil
    · exact .idle rfl rfl rfl
  exact ((r.builds_taken image memory info).append hViewed).beside hNamed

theorem Fulfilled.objects_eq {r : ImageRequest} {i : Image} {log : List Call}
    (h : r.Fulfilled i log) : ∃ memory : Handle .memory,
      i.objects = [i.view.object, i.handle.object, memory.object] := by
  obtain ⟨image, memory, view, info, naming, hNaming⟩ := h
  exact ⟨memory, rfl⟩

theorem Fulfilled.view_mem {r : ImageRequest} {i : Image} {log : List Call}
    (h : r.Fulfilled i log) :
    .create (.imageView (r.viewInfo i.handle)) (.made i.view.id) ∈ log := by
  obtain ⟨image, memory, view, info, naming, hNaming⟩ := h
  simp

namespace Attempts

variable {r : ImageRequest} {t : MemoryTable} {d : Device} {log : List Call}

theorem fulfilled {i : Image} (h : r.Attempts t d (.ok i) log) : r.Fulfilled i log := by
  cases h with
  | created image memory view _ naming _ _ _ _ _ hNaming =>
    exact .intro image memory view _ naming hNaming

theorem reverts {e : ImageError} (h : r.Attempts t d (.error e) log) : Log.Reverts [] log := by
  have hIdle : ∀ (later : List Object) (info : CreateInfo) (code : ResultCode),
      Log.Builds later [.create info (.refused code none)] [] := fun _ _ _ => .idle rfl rfl rfl
  cases h with
  | noImage => exact .refused
  | overrun image | noType image => exact (r.builds_queried image).undo
  | noMemory image => exact ((r.builds_queried image).beside (hIdle [] _ _)).undo
  | unbound image memory => exact ((r.builds_taken image memory _).beside (.idle rfl rfl rfl)).undo
  | noView image memory =>
    exact ((r.builds_taken image memory _).append ((Log.Builds.bind (.refl _)).beside
      (hIdle _ _ _))).undo

theorem not_obliging {e : ImageError} (h : r.Attempts t d (.error e) log) :
    ¬ d.script.Obliging t := by
  intro hObliging
  have hAnswer : ∀ q, d.answer q = none := fun q => hObliging.refusesNothing q _
  obtain ⟨index, hIndex⟩ := hObliging.hasMemory d.queries
  obtain ⟨hSearched, hFirst⟩ := MemoryTable.firstSuits_of_search hIndex
  cases h with
  | noImage _ hRefused | noMemory _ _ _ _ _ hRefused | unbound _ _ _ _ _ _ _ hRefused
  | noView _ _ _ _ _ _ _ _ hRefused => simp [hAnswer] at hRefused
  | overrun _ _ hOverrun => exact hSearched hOverrun
  | noType _ _ hType => exact hType index hFirst.1

end Attempts

end ImageRequest

end FrameGraph
