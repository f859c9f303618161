import FrameGraph.Pass.Targets
import FrameGraph.Plan.States
import FrameGraph.Proofs.Layout.Replay

/-! # States of names and layouts of images

While uses are replayed, an image is in the layout of the state that its name has, once its name
has been used. As long as it has not, the layout of the image does not matter, because the first
use forgets it.
-/

namespace FrameGraph

set_option autoImplicit false

open LayoutEvent

namespace ImageState

theorem layout_eq_undefined {s : ImageState} : s.layout = .undefined ↔ s = .unknown := by
  cases s <;> decide

end ImageState

namespace ImageMap

/-- The image belongs to the map. -/
def Holds (images : ImageMap) (image : Handle .image) : Prop :=
  ∃ n i, images.get? n = some i ∧ i.handle = image

/-- Different names have different images. -/
def Separate (images : ImageMap) : Prop :=
  ∀ ⦃m n i j⦄, images.get? m = some i → images.get? n = some j → i.handle = j.handle → m = n

end ImageMap

namespace StateMap

@[simp] theorem stateOf_step (s : StateMap) (use : Name × ImageState) (n : Name)
    (hLive : use.1.isPlaceholder = false) :
    (s.step use).stateOf n = if n = use.1 then use.2 else s.stateOf n := by
  obtain ⟨m, role⟩ := use
  unfold step stateOf
  rw [if_neg (by simpa using hLive), List.lookup_cons]
  by_cases hn : n = m
  · rw [if_pos hn, beq_iff_eq.mpr hn]
    rfl
  · rw [if_neg hn, beq_eq_false_iff_ne.mpr hn]

theorem steps_append (s : StateMap) (uses more : List (Name × ImageState)) :
    s.steps (uses ++ more) = (s.steps uses).steps more := List.foldl_append

/-- The image of the name is moved into the role, unless it is only sampled again. -/
def event (images : ImageMap) (s : StateMap) (use : Name × ImageState) : List LayoutEvent :=
  if use.1.isPlaceholder ∨ (s.stateOf use.1 = .shaderRead ∧ use.2 = .shaderRead) then []
  else ((images.get? use.1).map fun i =>
    .move i.handle (s.stateOf use.1).layout use.2.layout).toList

def events (images : ImageMap) : StateMap → List (Name × ImageState) → List LayoutEvent
  | _, [] => []
  | s, use :: rest => s.event images use ++ events images (s.step use) rest

theorem events_append (images : ImageMap) (s : StateMap) (uses more : List (Name × ImageState)) :
    s.events images (uses ++ more) =
      s.events images uses ++ (s.steps uses).events images more := by
  induction uses generalizing s with
  | nil => rfl
  | cons use uses ih =>
    rw [List.cons_append, events, ih, events, List.append_assoc]
    rfl

/-- The states say which images were touched and in which layouts they are. -/
structure Tracks (images : ImageMap) (s : StateMap) (layouts : Layouts)
    (touched : List (Handle .image)) : Prop where
  fresh : ∀ {n i}, images.get? n = some i → (s.stateOf n = .unknown ↔ i.handle ∉ touched)
  current : ∀ {n i}, images.get? n = some i → s.stateOf n ≠ .unknown →
    layouts i.handle = (s.stateOf n).layout

/-- Before the first use nothing is known, whatever the layouts are. -/
theorem Tracks.start (images : ImageMap) (layouts : Layouts) : Tracks images {} layouts [] where
  fresh _ := ⟨fun _ => nofun, fun _ => rfl⟩
  current _ hUsed := absurd rfl hUsed

section Simulation

variable {images : ImageMap} {s : StateMap} {layouts : Layouts} {touched : List (Handle .image)}

theorem Tracks.fits (hTracks : Tracks images s layouts touched) {n : Name} {i : Image}
    (hImage : images.get? n = some i) (after : Layout) :
    (LayoutEvent.move i.handle (s.stateOf n).layout after).Fits images.Holds layouts touched := by
  constructor
  · by_cases hUnknown : s.stateOf n = .unknown
    · exact .inl (ImageState.layout_eq_undefined.mpr hUnknown)
    · exact .inr (hTracks.current hImage hUnknown).symm
  · intro _
    rw [ImageState.layout_eq_undefined]
    exact hTracks.fresh hImage

/-- One use keeps the states and the layouts in step. -/
theorem Tracks.step (hSeparate : images.Separate) (hTracks : Tracks images s layouts touched)
    {use : Name × ImageState} (hRole : use.2 ≠ .unknown) :
    Replays images.Holds layouts touched (s.event images use) ∧
      Tracks images (s.step use) (replay layouts (s.event images use))
        (touched ++ (s.event images use).flatMap moved) := by
  unfold event
  by_cases hPlaceholder : use.1.isPlaceholder = true
  · rw [if_pos (.inl hPlaceholder), StateMap.step, if_pos hPlaceholder, List.flatMap_nil,
      List.append_nil]
    exact ⟨trivial, hTracks⟩
  have hLive : use.1.isPlaceholder = false := by simpa using hPlaceholder
  by_cases hAgain : s.stateOf use.1 = .shaderRead ∧ use.2 = .shaderRead
  · rw [if_pos (.inr hAgain), List.flatMap_nil, List.append_nil]
    have hSame : ∀ n, (s.step use).stateOf n = s.stateOf n := by
      intro n
      rw [stateOf_step s use n hLive]
      by_cases hn : n = use.1
      · rw [if_pos hn, hn, hAgain.1, hAgain.2]
      · rw [if_neg hn]
    refine ⟨trivial, ⟨fun hImage => ?_, fun hImage hUsed => ?_⟩⟩
    · rw [hSame]
      exact hTracks.fresh hImage
    · rw [hSame] at hUsed ⊢
      exact hTracks.current hImage hUsed
  rw [if_neg (not_or.mpr ⟨hPlaceholder, hAgain⟩)]
  cases hImage : images.get? use.1 with
  | none =>
    have hOther : ∀ {n i}, images.get? n = some i → (s.step use).stateOf n = s.stateOf n := by
      intro n i hOther
      rw [stateOf_step s use n hLive, if_neg]
      rintro rfl
      rw [hImage] at hOther
      cases hOther
    refine ⟨trivial, ⟨fun hName => ?_, fun hName hUsed => ?_⟩⟩
    · rw [hOther hName]
      simpa using hTracks.fresh hName
    · rw [hOther hName] at hUsed ⊢
      exact hTracks.current hName hUsed
  | some i =>
    refine ⟨⟨hTracks.fits hImage _, trivial⟩, ⟨fun {n j} hName => ?_, fun {n j} hName hUsed => ?_⟩⟩
    · rw [stateOf_step s use n hLive]
      by_cases hn : n = use.1
      · subst hn
        cases hImage.symm.trans hName
        simp [moved, hRole]
      · have hHandle : j.handle ≠ i.handle := fun hSame => hn (hSeparate hName hImage hSame)
        rw [if_neg hn, hTracks.fresh hName]
        simp [moved, hHandle]
    · rw [stateOf_step s use n hLive] at hUsed ⊢
      by_cases hn : n = use.1
      · subst hn
        cases hImage.symm.trans hName
        simp [replay, LayoutEvent.apply]
      · have hHandle : j.handle ≠ i.handle := fun hSame => hn (hSeparate hName hImage hSame)
        rw [if_neg hn] at hUsed ⊢
        simpa [replay, LayoutEvent.apply, hHandle] using hTracks.current hName hUsed

theorem Tracks.steps (hSeparate : images.Separate) (hTracks : Tracks images s layouts touched)
    {uses : List (Name × ImageState)} (hRoles : ∀ use ∈ uses, use.2 ≠ .unknown) :
    Replays images.Holds layouts touched (s.events images uses) ∧
      Tracks images (s.steps uses) (replay layouts (s.events images uses))
        (touched ++ (s.events images uses).flatMap moved) := by
  -- What is carried along the uses is that the states track the layouts.
  induction uses generalizing s layouts touched with
  | nil => exact ⟨trivial, by simpa [events, replay, StateMap.steps] using hTracks⟩
  | cons use uses ih =>
    obtain ⟨hRole, hRest⟩ := List.forall_mem_cons.mp hRoles
    obtain ⟨hFirst, hStep⟩ := hTracks.step hSeparate hRole
    obtain ⟨hReplays, hSteps⟩ := ih hStep hRest
    refine ⟨replays_append.mpr ⟨hFirst, hReplays⟩, ?_⟩
    rw [events, List.flatMap_append, ← List.append_assoc, replay, List.foldl_append]
    exact hSteps

end Simulation

end StateMap

theorem Pass.leavesAll_eq (s : StateMap) (passes : List Pass) :
    leavesAll s passes = s.steps (passes.flatMap uses) := by
  induction passes generalizing s with
  | nil => rfl
  | cons p passes ih =>
    rw [List.flatMap_cons, StateMap.steps_append]
    exact ih (p.leaves s)

theorem Pass.uses_roles (p : Pass) : ∀ use ∈ p.uses, use.2 ≠ .unknown := by
  intro use hUse
  simp only [uses, List.mem_append, List.mem_map] at hUse
  rcases hUse with (⟨_, -, rfl⟩ | ⟨_, -, rfl⟩) | ⟨_, -, rfl⟩
  · exact nofun
  · exact nofun
  · exact nofun

theorem Pass.allUses_roles (passes : List Pass) :
    ∀ use ∈ passes.flatMap uses, use.2 ≠ .unknown := by
  intro use hUse
  obtain ⟨p, -, hp⟩ := List.mem_flatMap.mp hUse
  exact p.uses_roles use hp

end FrameGraph
