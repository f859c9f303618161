import FrameGraph.Proofs.Layout.Recording
import FrameGraph.Proofs.Plan.Acceptance

/-! # Layouts over frames

Whatever layouts the images are left in, the next frame moves them only from where they are, and
forgets what is in an image only before it is first used.
-/

namespace FrameGraph

set_option autoImplicit false

open Command Host LayoutEvent

/-- A frame executes the graph, and may show it on an image of the surface. -/
structure Frame where
  buffer : CommandBuffer
  shown : Option (CommandBuffer × Image)
  deriving DecidableEq

namespace ImageMap

theorem separate_of_nodup {images : ImageMap} (hDistinct : images.objects.Nodup)
    (hOwned : ∀ {n i}, images.get? n = some i → i.handle.object ∈ i.objects) :
    images.Separate := by
  intro m n i j hi hj hHandle
  rw [objects_eq] at hDistinct
  have hDisjoint := (List.nodup_flatMap.mp hDistinct).2
  by_contra hNames
  have hEntries : ((m, i) : Name × Image) ≠ (n, j) := fun h => hNames (congrArg Prod.fst h)
  have : Std.Symm (Function.onFun List.Disjoint fun e : Name × Image => e.2.objects) :=
    ⟨fun _ _ hApart _ hRight hLeft => hApart hLeft hRight⟩
  have hApart := hDisjoint.forall (NameMap.get?_eq_some.mp hi) (NameMap.get?_eq_some.mp hj)
    hEntries
  exact hApart (hOwned hi) (hHandle ▸ hOwned hj)

end ImageMap

namespace Graph

def runFrame (g : Graph) (f : Frame) : HostM Graph := do
  let next ← g.execute f.buffer
  f.shown.forM fun s => next.present s.1 s.2
  return next

def runFrames (g : Graph) (frames : List Frame) : HostM Graph := frames.foldlM runFrame g

def frameCommands (g : Graph) (f : Frame) : List Command :=
  g.commands ++ f.shown.toList.flatMap fun s => g.presentation s.2

theorem runFrame_result (g : Graph) (f : Frame) (h : Host) :
    ((g.runFrame f).run h).1 = g.ran := by
  obtain ⟨buffer, shown⟩ := f
  cases shown with
  | none => rfl
  | some s => rfl

theorem sent_runFrame (g : Graph) (f : Frame) (h : Host) :
    ∃ calls, Sent h ((g.runFrame f).run h).2 calls ∧ Log.commands calls = g.frameCommands f := by
  obtain ⟨buffer, shown⟩ := f
  cases shown with
  | none =>
    exact ⟨_, g.sent_execute buffer h, by simp [frameCommands]⟩
  | some s =>
    have hExecute := g.sent_execute buffer h
    have hPresent := g.ran.sent_present s.1 s.2 ((g.execute buffer).run h).2
    refine ⟨_, hExecute.trans hPresent, ?_⟩
    rw [Log.commands_append, Log.commands_records, Log.commands_records]
    simp [frameCommands, presentation, outputImage?, ran]

/-- The graph plays the uses: its commands move images as they say, and it shows its output in
the state in which they leave it. -/
structure Plays (g : Graph) (built : List Call) (uses : List (Name × ImageState)) : Prop where
  commands : allLayoutEvents built g.commands = some (StateMap.events g.images {} uses)
  outputState : g.outputState = (StateMap.steps {} uses).stateOf g.output
  roles : ∀ use ∈ uses, use.2 ≠ .unknown

theorem ran_events (built : List Call) (g : Graph) :
    allLayoutEvents built g.ran.commands = allLayoutEvents built g.commands := by
  obtain ⟨nodes, images, output, outputState⟩ := g
  unfold ran Graph.commands
  rw [List.flatMap_map]
  induction nodes with
  | nil => rfl
  | cons n nodes ih =>
    rw [List.flatMap_cons, List.flatMap_cons, allLayoutEvents_append, ih,
      allLayoutEvents_append, Node.commands_events, Node.commands_events]
    rfl

variable {g : Graph} {built : List Call} {uses : List (Name × ImageState)}

theorem Plays.ran (hPlays : g.Plays built uses) : g.ran.Plays built uses :=
  ⟨(ran_events built g).trans hPlays.commands, hPlays.outputState, hPlays.roles⟩

def presentationEvents (g : Graph) (target : Image) : List LayoutEvent :=
  g.outputImage?.toList.flatMap fun i =>
    [.move i.handle g.outputState.layout .copySource, .move target.handle .undefined .copyTarget,
      .need i.handle .copySource, .need target.handle .copyTarget,
      .move target.handle .copyTarget .presentable]

theorem presentation_events (built : List Call) (g : Graph) (target : Image) :
    allLayoutEvents built (g.presentation target) = some (g.presentationEvents target) := by
  unfold presentation presentationEvents
  cases g.outputImage? with
  | none => rfl
  | some i => rfl

/-- The output is in the state that the frame left it in, and the copy finds both images ready
for it. -/
theorem presentation_replays {s : StateMap} {layouts : Layouts} {touched : List (Handle .image)}
    (hTracks : s.Tracks g.images layouts touched)
    (hState : g.outputState = s.stateOf g.output) {target : Image}
    (hForeign : ¬ g.images.Holds target.handle) :
    Replays g.images.Holds layouts touched (g.presentationEvents target) := by
  unfold presentationEvents
  cases hOutput : g.outputImage? with
  | none => trivial
  | some i =>
    have hDifferent : target.handle ≠ i.handle := fun hSame =>
      hForeign ⟨g.output, i, hOutput, hSame.symm⟩
    rw [hState]
    refine ⟨hTracks.fits hOutput _, ⟨.inl rfl, fun hHolds => absurd hHolds hForeign⟩, ?_, ?_,
      ⟨.inr ?_, fun hHolds => absurd hHolds hForeign⟩, trivial⟩
    · simp [Fits, LayoutEvent.apply, hDifferent.symm]
    · simp [Fits, LayoutEvent.apply]
    · simp [LayoutEvent.apply]

theorem Plays.frame (hPlays : g.Plays built uses) (f : Frame) :
    ∃ events, allLayoutEvents built (g.frameCommands f) = some events ∧
      (g.images.Separate → (∀ s ∈ f.shown, ¬ g.images.Holds s.2.handle) →
        ∀ layouts, Replays g.images.Holds layouts [] events) := by
  obtain ⟨buffer, shown⟩ := f
  unfold frameCommands
  have hTracks : g.images.Separate → ∀ layouts, _ := fun hSeparate layouts =>
    (StateMap.Tracks.start g.images layouts).steps hSeparate hPlays.roles
  cases shown with
  | none =>
    refine ⟨_, by simpa using hPlays.commands, fun hSeparate _ layouts => ?_⟩
    exact (hTracks hSeparate layouts).1
  | some s =>
    have hShown : allLayoutEvents built ((some s).toList.flatMap fun s => g.presentation s.2) =
        some (g.presentationEvents s.2) := by
      simpa using presentation_events built g s.2
    refine ⟨_, allLayoutEvents_append_eq_some hPlays.commands hShown,
      fun hSeparate hForeign layouts => ?_⟩
    obtain ⟨hReplays, hAfter⟩ := hTracks hSeparate layouts
    refine replays_append.mpr ⟨hReplays, ?_⟩
    exact presentation_replays hAfter hPlays.outputState (hForeign s rfl)

/-- All that past frames change is how often the hooks have run. -/
theorem Plays.frames (hPlays : g.Plays built uses) (frames : List Frame) (h : Host) :
    ∃ calls events, Sent h ((g.runFrames frames).run h).2 calls ∧
      Log.layoutEvents built calls = some events ∧
      ((g.runFrames frames).run h).1.Plays built uses ∧
      ((g.runFrames frames).run h).1.images = g.images := by
  induction frames generalizing g h with
  | nil => exact ⟨[], [], .refl h, rfl, hPlays, rfl⟩
  | cons f frames ih =>
    obtain ⟨calls, hSent, hCommands⟩ := g.sent_runFrame f h
    obtain ⟨events, hEvents, -⟩ := hPlays.frame f
    obtain ⟨rest, more, hRest, hMore, hAfter⟩ := ih hPlays.ran ((g.runFrame f).run h).2
    rw [← g.runFrame_result f h] at hRest hAfter
    refine ⟨calls ++ rest, events ++ more, hSent.trans hRest, ?_, hAfter⟩
    rw [Log.layoutEvents, Log.commands_append, hCommands]
    exact allLayoutEvents_append_eq_some hEvents hMore

end Graph

/-- A graph of a draft was assembled by some of the calls that built it, and these tell what its
views are of. -/
theorem Draft.assembled_of_build {d : Draft} {env : Environment} {h h₁ : Host} {g : Graph}
    (hBuilt : (d.plan.build env).run h = (.ok g, h₁)) :
    ∃ imageCalls nodeCalls built, Sent h h₁ built ∧
      d.plan.Assembled env g imageCalls nodeCalls ∧ nodeCalls ⊆ built ∧
      Pass.KnowsViews built g.images ∧ g.images.Separate := by
  obtain ⟨log, os, hSent, -, hEnd⟩ := Plan.build_cases env d.plan h
  rw [hBuilt] at hSent hEnd
  rcases hEnd with ⟨g', imageCalls, nodeCalls, hOk, rfl, hAssembled⟩ | ⟨e, hError, -⟩
  · cases hOk
    have hImages : imageCalls ⊆ imageCalls ++ nodeCalls ++ os.map .destroy :=
      fun c hc => List.mem_append_left _ (List.mem_append_left _ hc)
    have hNodes : nodeCalls ⊆ imageCalls ++ nodeCalls ++ os.map .destroy :=
      fun c hc => List.mem_append_left _ (List.mem_append_right _ hc)
    refine ⟨imageCalls, nodeCalls, _, hSent, hAssembled, hNodes, fun n i hImage => ?_, ?_⟩
    · obtain ⟨_, _, calls, -, -, hFulfilled, hCalls⟩ :=
        hAssembled.images.image_mem (NameMap.get?_eq_some.mp hImage)
      exact Log.viewed?_of_mem hSent.nodup (hImages (hCalls hFulfilled.view_mem))
    · have hDistinct : g.objects.Nodup := by
        apply hAssembled.builds.complete.nodup_iff.mpr
        simpa using hSent.nodup
      refine ImageMap.separate_of_nodup (List.nodup_append.mp hDistinct).2.1 fun hImage => ?_
      obtain ⟨_, _, _, -, -, hFulfilled, -⟩ :=
        hAssembled.images.image_mem (NameMap.get?_eq_some.mp hImage)
      obtain ⟨memory, hObjects⟩ := hFulfilled.objects_eq
      simp [hObjects]
  · cases hError

theorem Draft.plays_of_assembled {d : Draft} {env : Environment} {g : Graph}
    {imageCalls nodeCalls built : List Call}
    (hAssembled : d.plan.Assembled env g imageCalls nodeCalls)
    (hDistinct : (Log.made built).Nodup) (hNodes : nodeCalls ⊆ built)
    (hViews : Pass.KnowsViews built g.images) :
    g.Plays built (d.passes.flatMap Pass.uses) where
  commands := hAssembled.nodes.events hDistinct hViews hNodes
  outputState := by
    rw [hAssembled.outputState, hAssembled.output, ← Pass.leavesAll_eq]
    rfl
  roles := Pass.allUses_roles d.passes

/-- A graph built from a draft plays the uses of its passes. -/
theorem Draft.plays_of_build {d : Draft} {env : Environment} {h h₁ : Host} {g : Graph}
    (hBuilt : (d.plan.build env).run h = (.ok g, h₁)) :
    ∃ built, Sent h h₁ built ∧ g.Plays built (d.passes.flatMap Pass.uses) ∧
      g.images.Separate := by
  obtain ⟨_, _, built, hSent, hAssembled, hNodes, hViews, hSeparate⟩ := assembled_of_build hBuilt
  exact ⟨built, hSent, plays_of_assembled hAssembled hSent.nodup hNodes hViews, hSeparate⟩

/-- After any frames of a graph that was built from a draft, all images being undefined at first,
every event of the next frame fits: an image is moved from where it is or forgotten, the graph
forgets an image of its own exactly when the frame first touches it, and the copy to the surface
finds its images in the layouts that it names. -/
theorem frame_layouts_sound (d : Draft) (env : Environment) (h : Host) {g g' : Graph}
    {h₁ h₂ : Host} (hBuilt : (d.plan.build env).run h = (.ok g, h₁)) (past : List Frame)
    (hPast : (g.runFrames past).run h₁ = (g', h₂)) (frame : Frame)
    (hForeign : ∀ s ∈ frame.shown, ¬ g.images.Holds s.2.handle) :
    ∃ built before calls earlier events, Sent h h₁ built ∧ Sent h₁ h₂ before ∧
      Sent h₂ ((g'.runFrame frame).run h₂).2 calls ∧
      Log.layoutEvents built before = some earlier ∧ Log.layoutEvents built calls = some events ∧
      Replays g.images.Holds (replay (fun _ => .undefined) earlier) [] events := by
  obtain ⟨built, hSent, hPlays, hSeparate⟩ := Draft.plays_of_build hBuilt
  obtain ⟨before, earlier, hBefore, hEarlier, hStill, hImages⟩ := hPlays.frames past h₁
  rw [hPast] at hBefore hStill hImages
  obtain ⟨calls, hCalls, hCommands⟩ := g'.sent_runFrame frame h₂
  obtain ⟨events, hEvents, hReplays⟩ := hStill.frame frame
  refine ⟨built, before, calls, earlier, events, hSent, hBefore, hCalls, hEarlier, ?_, ?_⟩
  · rw [Log.layoutEvents, hCommands]
    exact hEvents
  · rw [← hImages] at hSeparate hForeign ⊢
    exact hReplays hSeparate hForeign _

namespace TwoPasses

def shownFrame : Frame := ⟨⟨1⟩, some (⟨1⟩, .foreign ⟨"surface"⟩ ⟨100⟩ ⟨101⟩ ⟨800, 600⟩ ⟨44⟩)⟩

theorem layouts_sound : ∃ g g' h₁ h₂, (draft.plan.build environment).run host = (.ok g, h₁) ∧
    (g.runFrames [⟨⟨1⟩, none⟩]).run h₁ = (g', h₂) ∧ ¬ g.images.Holds ⟨100⟩ ∧
    ∃ built before calls earlier events, Sent host h₁ built ∧ Sent h₁ h₂ before ∧
      Sent h₂ ((g'.runFrame shownFrame).run h₂).2 calls ∧
      Log.layoutEvents built before = some earlier ∧ Log.layoutEvents built calls = some events ∧
      Replays g.images.Holds (replay (fun _ => .undefined) earlier) [] events := by
  obtain ⟨g, h₁, hBuilt, hHandles⟩ := builds
  have hForeign : ¬ g.images.Holds ⟨100⟩ := by
    rintro ⟨n, i, hImage, hHandle⟩
    have hMem : i.handle ∈ g.images.values.map Image.handle :=
      List.mem_map_of_mem (List.mem_map_of_mem (NameMap.get?_eq_some.mp hImage))
    rw [hHandles, hHandle] at hMem
    simp at hMem
  refine ⟨g, _, h₁, _, hBuilt, rfl, hForeign, ?_⟩
  refine frame_layouts_sound draft environment host hBuilt [⟨⟨1⟩, none⟩] rfl shownFrame ?_
  rintro _ ⟨⟩
  exact hForeign

end TwoPasses

end FrameGraph
