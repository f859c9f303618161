import FrameGraph.Proofs.Image.Confinement

/-! # How the creation of an image ends

An image takes memory of the first type that suits it. Of the four requests that it takes, each can
be refused; what the earlier ones made is destroyed then, the image before its memory.
-/

namespace FrameGraph

set_option autoImplicit false

open Host

namespace MemoryTable

/-- The word of type bits allows the type, and its memory is on the device. -/
structure Suits (t : MemoryTable) (typeBits : BitVec 32) (i : Nat) : Prop where
  listed : i < t.count
  allowed : typeBits.getLsbD i = true
  onDevice : (t.properties i).includes .deviceLocal = true

def FirstSuits (t : MemoryTable) (typeBits : BitVec 32) (i : Nat) : Prop :=
  t.Suits typeBits i ∧ ∀ j < i, ¬ t.Suits typeBits j

variable {t : MemoryTable} {typeBits : BitVec 32}

theorem suits_iff {i : Nat} : t.Suits typeBits i ↔
    i ∈ List.range t.count ∧ t.fits typeBits .deviceLocal i = true := by
  rw [List.mem_range, fits, Bool.and_eq_true]
  exact ⟨fun h => ⟨h.listed, h.allowed, h.onDevice⟩, fun h => ⟨h.1, h.2.1, h.2.2⟩⟩

theorem firstSuits_of_firstFit {i : Nat} (h : t.firstFit typeBits .deviceLocal = some i) :
    t.FirstSuits typeBits i := by
  obtain ⟨hFits, hListed, hEarlier⟩ := List.find?_range_eq_some.mp h
  refine ⟨suits_iff.mpr ⟨hListed, hFits⟩, fun j hj hSuits => ?_⟩
  have hNot := hEarlier j hj
  rw [(suits_iff.mp hSuits).2] at hNot
  exact nomatch hNot

theorem not_suits_of_firstFit (h : t.firstFit typeBits .deviceLocal = none) (i : Nat) :
    ¬ t.Suits typeBits i := fun hSuits =>
  List.find?_eq_none.mp h i (suits_iff.mp hSuits).1 (suits_iff.mp hSuits).2

theorem firstSuits_of_search {i : Nat} (h : t.search typeBits .deviceLocal = .ok (some i)) :
    ¬ t.overruns = true ∧ t.FirstSuits typeBits i := by
  unfold search at h
  by_cases hOverrun : t.overruns = true
  · rw [if_pos hOverrun] at h
    cases h
  · rw [if_neg hOverrun] at h
    exact ⟨hOverrun, firstSuits_of_firstFit (Except.ok.inj h)⟩

/-- What comes of a search for memory on the device. -/
theorem search_cases (t : MemoryTable) (typeBits : BitVec 32) :
    (t.overruns = true ∧ t.search typeBits .deviceLocal = .error .overrun) ∨
      ((∀ i, ¬ t.Suits typeBits i) ∧ t.search typeBits .deviceLocal = .ok none) ∨
      ∃ i, t.FirstSuits typeBits i ∧ t.search typeBits .deviceLocal = .ok (some i) := by
  unfold search
  by_cases hOverrun : t.overruns = true
  · exact .inl ⟨hOverrun, if_pos hOverrun⟩
  · rw [if_neg hOverrun]
    cases hFit : t.firstFit typeBits .deviceLocal with
    | none => exact .inr (.inl ⟨not_suits_of_firstFit hFit, rfl⟩)
    | some i => exact .inr (.inr ⟨i, firstSuits_of_firstFit hFit, rfl⟩)

end MemoryTable

namespace ImageRequest

/-- How the creation of an image ends, and with which calls. The calls at the end of the last
case name the image for tools. -/
inductive Attempts (r : ImageRequest) (t : MemoryTable) (d : Device) :
    Except ImageError Image → List Call → Prop
  | noImage (code : ResultCode) (hImage : d.answer (.create .image) = some code) :
      Attempts r t d (.error (.refused r.name code))
        [.create (.image r.info) (.refused code none)]
  | overrun (image : Handle .image) (hImage : d.answer (.create .image) = none)
      (hOverrun : t.overruns = true) :
      Attempts r t d (.error .memoryTableOverrun)
        [.create (.image r.info) (.made image.id), .queryMemoryNeeds image,
          .destroy image.object]
  | noType (image : Handle .image) (hImage : d.answer (.create .image) = none)
      (hType : ∀ i, ¬ t.Suits d.nextNeeds.typeBits i) :
      Attempts r t d (.error (.noSuitableMemory r.name d.nextNeeds.typeBits))
        [.create (.image r.info) (.made image.id), .queryMemoryNeeds image,
          .destroy image.object]
  | noMemory (image : Handle .image) (i : Nat) (code : ResultCode)
      (hImage : d.answer (.create .image) = none)
      (hType : t.FirstSuits d.nextNeeds.typeBits i)
      (hMemory : d.answer (.create .memory) = some code) :
      Attempts r t d (.error (.refused r.name code))
        [.create (.image r.info) (.made image.id), .queryMemoryNeeds image,
          .create (.memory ⟨d.nextNeeds.size, i⟩) (.refused code none), .destroy image.object]
  | unbound (image : Handle .image) (memory : Handle .memory) (i : Nat) (code : ResultCode)
      (hImage : d.answer (.create .image) = none)
      (hType : t.FirstSuits d.nextNeeds.typeBits i)
      (hMemory : d.answer (.create .memory) = none)
      (hBind : d.answer .bindMemory = some code) :
      Attempts r t d (.error (.refused r.name code))
        [.create (.image r.info) (.made image.id), .queryMemoryNeeds image,
          .create (.memory ⟨d.nextNeeds.size, i⟩) (.made memory.id),
          .bindMemory image memory 0 (some code), .destroy image.object, .destroy memory.object]
  | noView (image : Handle .image) (memory : Handle .memory) (i : Nat) (code : ResultCode)
      (hImage : d.answer (.create .image) = none)
      (hType : t.FirstSuits d.nextNeeds.typeBits i)
      (hMemory : d.answer (.create .memory) = none) (hBind : d.answer .bindMemory = none)
      (hView : d.answer (.create .imageView) = some code) :
      Attempts r t d (.error (.refused r.name code))
        [.create (.image r.info) (.made image.id), .queryMemoryNeeds image,
          .create (.memory ⟨d.nextNeeds.size, i⟩) (.made memory.id),
          .bindMemory image memory 0 none,
          .create (.imageView (r.viewInfo image)) (.refused code none),
          .destroy image.object, .destroy memory.object]
  | created (image : Handle .image) (memory : Handle .memory) (view : Handle .imageView) (i : Nat)
      (naming : List Call) (hImage : d.answer (.create .image) = none)
      (hType : t.FirstSuits d.nextNeeds.typeBits i)
      (hMemory : d.answer (.create .memory) = none) (hBind : d.answer .bindMemory = none)
      (hView : d.answer (.create .imageView) = none)
      (hNaming : naming = [] ∨ ∃ name refusal,
        naming = [.nameObject imageObjectType image.object name refusal]) :
      Attempts r t d
        (.ok ⟨r.name, r.extent, r.format, r.usage, r.aspect, image, view, some memory⟩)
        ([.create (.image r.info) (.made image.id), .queryMemoryNeeds image,
          .create (.memory ⟨d.nextNeeds.size, i⟩) (.made memory.id),
          .bindMemory image memory 0 none,
          .create (.imageView (r.viewInfo image)) (.made view.id)] ++ naming)

variable (env : Environment) (r : ImageRequest)

/-- Memory is taken of the first type that suits the needs, and of none if no type does. -/
theorem ends_allocate (image : Handle .image) (h : Host) :
    Ends (r.allocate env image) h
      (fun memory log => ∃ i, env.memory.FirstSuits h.device.nextNeeds.typeBits i ∧
        h.device.answer (.create .memory) = none ∧ log = [.queryMemoryNeeds image,
          .create (.memory ⟨h.device.nextNeeds.size, i⟩) (.made memory.id)])
      fun e log =>
        (env.memory.overruns = true ∧ e = .memoryTableOverrun ∧ log = [.queryMemoryNeeds image]) ∨
        ((∀ i, ¬ env.memory.Suits h.device.nextNeeds.typeBits i) ∧
          e = .noSuitableMemory r.name h.device.nextNeeds.typeBits ∧
          log = [.queryMemoryNeeds image]) ∨
        ∃ i code, env.memory.FirstSuits h.device.nextNeeds.typeBits i ∧
          h.device.answer (.create .memory) = some code ∧ e = .refused r.name code ∧
          log = [.queryMemoryNeeds image,
            .create (.memory ⟨h.device.nextNeeds.size, i⟩) (.refused code none)] := by
  have hNeeds : Ends (always (ask (Device.memoryNeeds image))) h
      (fun needs log => needs = h.device.nextNeeds ∧ log = [.queryMemoryNeeds image])
      fun (_ : ImageError) _ => False :=
    .always (sent_memoryNeeds image h) ⟨rfl, rfl⟩
  refine (hNeeds.mono_failed fun _ _ => False.elim).bind_counting
    (Counts.memoryNeeds image) ?_
  rintro needs _ h₁ ⟨rfl, rfl⟩ hSent hCounted
  have hAnswer := hSent.answer_of_not_mem hCounted (r := .create .memory) nofun
  rcases env.memory.search_cases h.device.nextNeeds.typeBits with
    ⟨hOverrun, hSearch⟩ | ⟨hNone, hSearch⟩ | ⟨i, hFirst, hSearch⟩
  · rw [hSearch]
    exact .throw (.inl ⟨hOverrun, rfl, rfl⟩)
  · rw [hSearch]
    exact .throw (.inr (.inl ⟨hNone, rfl, rfl⟩))
  · rw [hSearch, ← hAnswer]
    refine (ends_acquire_outright (.memory ⟨_, i⟩) _ h₁ nofun).mono ?_ ?_
    · rintro memory _ ⟨hMade, -, rfl⟩
      exact ⟨i, hFirst, hMade, rfl⟩
    · rintro e _ ⟨code, hRefused, rfl, rfl⟩
      exact .inr (.inr ⟨i, code, hFirst, hRefused, rfl, rfl⟩)

/-- A view is only asked for if the memory was bound. -/
theorem ends_bindAndView (image : Handle .image) (memory : Handle .memory) (h : Host) :
    Ends (r.bindAndView image memory) h
      (fun view log => h.device.answer .bindMemory = none ∧
        h.device.answer (.create .imageView) = none ∧ log = [.bindMemory image memory 0 none,
          .create (.imageView (r.viewInfo image)) (.made view.id)])
      fun e log => ∃ code, e = .refused r.name code ∧
        ((h.device.answer .bindMemory = some code ∧
            log = [.bindMemory image memory 0 (some code)]) ∨
          h.device.answer .bindMemory = none ∧ h.device.answer (.create .imageView) = some code ∧
            log = [.bindMemory image memory 0 none,
              .create (.imageView (r.viewInfo image)) (.refused code none)]) := by
  have hAsked : Ends (always (ask (Device.bindMemory image memory))) h
      (fun refusal log => h.device.answer .bindMemory = refusal ∧
        log = [.bindMemory image memory 0 refusal])
      fun (_ : ImageError) _ => False :=
    .always (sent_bindMemory image memory h) ⟨rfl, rfl⟩
  refine (hAsked.mono_failed fun _ _ => False.elim).bind_counting
    (Counts.bindMemory image memory) ?_
  rintro refusal _ h₁ ⟨hBind, rfl⟩ hSent hCounted
  cases refusal with
  | some code => exact .throw ⟨code, rfl, .inl ⟨hBind, rfl⟩⟩
  | none =>
    rw [← hSent.answer_of_not_mem hCounted (r := .create .imageView) (by simp [Log.requests,
      Call.request?])]
    refine (ends_acquire_outright (.imageView (r.viewInfo image)) _ h₁
      (by simp [CreateInfo.kind])).mono ?_ ?_
    · rintro view _ ⟨hNone, -, rfl⟩
      exact ⟨hBind, hNone, rfl⟩
    · rintro e _ ⟨code, hRefused, rfl, rfl⟩
      exact ⟨code, rfl, .inr ⟨hBind, hRefused, rfl⟩⟩

end ImageRequest

namespace Image

theorem sent_attachName (env : Environment) (name : Name) (image : Handle .image) (h : Host) :
    ∃ naming, Sent h ((attachName env name image).run h).2 naming ∧
      (naming = [] ∨ ∃ text refusal,
        naming = [.nameObject imageObjectType image.object text refusal]) := by
  unfold attachName
  by_cases hNames : env.namesObjects = true
  · by_cases hNul : name.text.contains '\x00' = true
    · rw [if_pos hNames, if_pos hNul]
      exact ⟨[], sent_report _ h, .inl rfl⟩
    · rw [if_pos hNames, if_neg hNul, StateT.run_bind]
      have hSent := sent_nameImage image name.text h
      generalize (ask (Device.nameImage image name.text)).run h = answered at hSent ⊢
      rcases answered with ⟨_ | code, h₁⟩
      · exact ⟨_, hSent, .inr ⟨_, _, rfl⟩⟩
      · exact ⟨_, hSent.trans (sent_report _ h₁), .inr ⟨_, _, rfl⟩⟩
  · rw [if_neg hNames]
    exact ⟨[], .refl h, .inl rfl⟩

theorem ends_create_attempts (env : Environment) (r : ImageRequest) (h : Host) :
    Ends (create env r) h
    (fun i log => r.Attempts env.memory h.device (.ok i) log)
    fun e log => r.Attempts env.memory h.device (.error e) log := by
  have hImage : Ends (acquire (.image r.info) (.refused r.name)) h
      (fun (image : Handle .image) log => h.device.answer (.create .image) = none ∧
        log = [.create (.image r.info) (.made image.id)])
      fun e log => r.Attempts env.memory h.device (.error e) log := by
    refine (ends_acquire_outright (.image r.info) _ h nofun).mono ?_ ?_
    · rintro image _ ⟨hNone, -, rfl⟩
      exact ⟨hNone, rfl⟩
    · rintro _ _ ⟨code, hRefused, rfl, rfl⟩
      exact .noImage code hRefused
  have hAsked : Confined (.about kinds) (fun _ => True)
      (acquire (.image r.info) (ImageError.refused r.name)) := .acquire_about image_mem_kinds _
  refine hImage.bind_counting hAsked.counts ?_
  rintro image _ h₁ ⟨hImage, rfl⟩ hSent₁ hCounted₁
  have hAnswer₁ (q : Request) (hq : q ≠ .create .image) :
      h₁.device.answer q = h.device.answer q :=
    hSent₁.answer_of_not_mem hCounted₁ fun hMem => hq (List.mem_singleton.mp hMem)
  have hMemory := r.ends_allocate env image h₁
  rw [hAnswer₁ (.create .memory) nofun, hSent₁.nextNeeds hCounted₁ rfl] at hMemory
  have hDestroy : Call.Concerns kinds (.destroy image.object) :=
    Call.concerns_destroy image_mem_kinds
  have hTaken := Confined.cleaningUp (.destroy hDestroy) (r.confined_allocate env image)
  refine (Ends.cleaningUp [image.object] (fun h _ => sent_destroy image.object h)
    (hMemory.mono_failed ?_)).bind_counting hTaken.counts ?_
  · rintro e _ (⟨hOverrun, rfl, rfl⟩ | ⟨hType, rfl, rfl⟩ | ⟨i, code, hType, hRefused, rfl, rfl⟩)
    · exact .overrun image hImage hOverrun
    · exact .noType image hImage hType
    · exact .noMemory image i code hImage hType hRefused
  rintro memory _ h₂ ⟨i, hType, hMemory, rfl⟩ hSent₂ hCounted₂
  have hAnswer₂ (q : Request) (hFirst : q ≠ .create .image) (hNext : q ≠ .create .memory) :
      h₂.device.answer q = h.device.answer q :=
    (hSent₂.answer_of_not_mem hCounted₂ fun hMem => hNext (List.mem_singleton.mp hMem)).trans
      (hAnswer₁ q hFirst)
  have hView := r.ends_bindAndView image memory h₂
  rw [hAnswer₂ .bindMemory nofun nofun, hAnswer₂ (.create .imageView) nofun nofun] at hView
  refine (Ends.cleaningUp [image.object, memory.object] (fun h _ => sent_destroyAll _ h)
    (hView.mono_failed ?_)).bind ?_
  · rintro e _ ⟨code, rfl, ⟨hBind, rfl⟩ | ⟨hBind, hRefused, rfl⟩⟩
    · exact .unbound image memory i code hImage hType hMemory hBind
    · exact .noView image memory i code hImage hType hMemory hBind hRefused
  rintro view _ h₃ ⟨hBind, hView, rfl⟩ hSent₃
  obtain ⟨naming, hSent₄, hNaming⟩ := sent_attachName env r.name image h₃
  refine Ends.of_ok (by rw [run_bind, run_always]; rfl) hSent₄ ?_
  exact .created image memory view i naming hImage hType hMemory hBind hView hNaming

end Image

end FrameGraph
