import FrameGraph.Proofs.Layout.Frame
import FrameGraph.Proofs.Plan.Independence

/-! # The transitions of one image

A frame changes the layout of an image as the roles of its name say, whatever else it does. So
passes that have no name in common may change places without a difference to any image.
-/

namespace FrameGraph

set_option autoImplicit false

open Host LayoutEvent

/-- The layouts that an image goes through, from its state, in the roles. It is not moved to be
sampled once more. -/
def ImageState.changes : ImageState → List ImageState → List (Layout × Layout)
  | _, [] => []
  | s, role :: rest =>
    (if s = .shaderRead ∧ role = .shaderRead then [] else [(s.layout, role.layout)]) ++
      changes role rest

namespace LayoutEvent

/-- Where the image is moved from and to, in the order of the events. -/
def transitions (image : Handle .image) (events : List LayoutEvent) : List (Layout × Layout) :=
  events.filterMap fun e => match e with
    | .move moved before after => if moved = image then some (before, after) else none
    | .need _ _ => none

theorem transitions_append (image : Handle .image) (events more : List LayoutEvent) :
    transitions image (events ++ more) = transitions image events ++ transitions image more :=
  List.filterMap_append

end LayoutEvent

namespace StateMap

variable {images : ImageMap} {n : Name} {i : Image}

theorem transitions_event_self (hImage : images.get? n = some i) (hName : n ≠ .placeholder)
    (s : StateMap) (role : ImageState) : transitions i.handle (s.event images (n, role)) =
      if s.stateOf n = .shaderRead ∧ role = .shaderRead then []
      else [((s.stateOf n).layout, role.layout)] := by
  have hLive : ¬ n.isPlaceholder = true := by rwa [Name.isPlaceholder_iff]
  unfold event
  by_cases hAgain : s.stateOf n = .shaderRead ∧ role = .shaderRead
  · rw [if_pos (.inr hAgain), if_pos hAgain]
    rfl
  · rw [if_neg (not_or.mpr ⟨hLive, hAgain⟩), if_neg hAgain, hImage]
    exact List.filterMap_cons_some (if_pos rfl)

theorem transitions_event_other (hSeparate : images.Separate) (hImage : images.get? n = some i)
    (s : StateMap) {use : Name × ImageState} (hOther : use.1 ≠ n) :
    transitions i.handle (s.event images use) = [] := by
  unfold event
  split
  · rfl
  · cases hMoved : images.get? use.1 with
    | none => rfl
    | some j =>
      have hHandle : j.handle ≠ i.handle := fun hSame => hOther (hSeparate hMoved hImage hSame)
      exact List.filterMap_cons_none (if_neg hHandle)

/-- Among the events of all uses, those of an image are up to the roles of its name. -/
theorem transitions_events (hSeparate : images.Separate) (hImage : images.get? n = some i)
    (hName : n ≠ .placeholder) (s : StateMap) (uses : List (Name × ImageState)) :
    transitions i.handle (s.events images uses) = (s.stateOf n).changes (rolesOf n uses) := by
  induction uses generalizing s with
  | nil => rfl
  | cons use uses ih =>
    obtain ⟨m, role⟩ := use
    have hStep := stateOf_steps s [(m, role)] hName
    change (s.step (m, role)).stateOf n = _ at hStep
    rw [events, transitions_append, ih, hStep]
    by_cases hSame : m = n
    · subst hSame
      rw [transitions_event_self hImage hName, rolesOf_cons_self, rolesOf_cons_self]
      rfl
    · rw [transitions_event_other hSeparate hImage s hSame, rolesOf_cons_other hSame,
        rolesOf_cons_other hSame]
      rfl

end StateMap

namespace Draft

theorem keys_of_build {d : Draft} {env : Environment} {h h₁ : Host} {g : Graph}
    (hBuilt : (d.plan.build env).run h = (.ok g, h₁)) : g.images.keys = d.plan.usages.keys := by
  obtain ⟨log, os, -, -, hEnd⟩ := Plan.build_cases env d.plan h
  rw [hBuilt] at hEnd
  rcases hEnd with ⟨g', imageCalls, nodeCalls, hOk, -, hAssembled⟩ | ⟨e, hError, -⟩
  · cases hOk
    exact hAssembled.images.names
  · cases hError

/-- After whatever frames, executing a graph of the draft moves each image as the roles of its
name say. -/
theorem transitions_of_build {d : Draft} {env : Environment} {h h₁ : Host} {g : Graph}
    (hBuilt : (d.plan.build env).run h = (.ok g, h₁)) : ∃ built, Sent h h₁ built ∧
      ∀ past k buffer k', ∃ calls events,
        Sent k' ((((g.runFrames past).run k).1.execute buffer).run k').2 calls ∧
          Log.layoutEvents built calls = some events ∧
          ∀ n i, g.images.get? n = some i → transitions i.handle events =
            ImageState.unknown.changes (rolesOf n (d.passes.flatMap Pass.uses)) := by
  obtain ⟨built, hSent, hPlays, hSeparate⟩ := plays_of_build hBuilt
  refine ⟨built, hSent, fun past k buffer k' => ?_⟩
  obtain ⟨-, -, -, -, hStill, hImages⟩ := hPlays.frames past k
  have hEvents : Log.layoutEvents built
      (((g.runFrames past).run k).1.commands.map (.record buffer)) =
        some (StateMap.events g.images {} (d.passes.flatMap Pass.uses)) := by
    rw [Log.layoutEvents, Log.commands_records, ← hImages]
    exact hStill.commands
  refine ⟨_, _, ((g.runFrames past).run k).1.sent_execute buffer k', hEvents,
    fun n i hImage => ?_⟩
  have hKey : n ∈ d.plan.usages.keys := by
    rw [← keys_of_build hBuilt]
    exact NameMap.exists_get?_eq_some.mp ⟨i, hImage⟩
  exact StateMap.transitions_events hSeparate hImage (UsageMap.mem_keys_ofPasses.mp hKey).1 {} _

/-- Wherever graphs of the two drafts are built, they have images for the same names, and after
whatever frames they move the images of a name in the same way. -/
def MovesAlike (d d' : Draft) : Prop :=
  ∀ env env' h h' g g' h₁ h₁', (d.plan.build env).run h = (.ok g, h₁) →
    (d'.plan.build env').run h' = (.ok g', h₁') →
      g'.images.keys = g.images.keys ∧ ∃ built built', Sent h h₁ built ∧ Sent h' h₁' built' ∧
        ∀ past past' k k' buffer buffer' k₁ k₁', ∃ calls calls' events events',
          Sent k₁ ((((g.runFrames past).run k).1.execute buffer).run k₁).2 calls ∧
            Sent k₁' ((((g'.runFrames past').run k').1.execute buffer').run k₁').2 calls' ∧
            Log.layoutEvents built calls = some events ∧
            Log.layoutEvents built' calls' = some events' ∧
            ∀ n i i', g.images.get? n = some i → g'.images.get? n = some i' →
              transitions i'.handle events' = transitions i.handle events

theorem movesAlike {d d' : Draft} (hKeys : d'.plan.usages.keys = d.plan.usages.keys)
    (hRoles : ∀ n, n ≠ .placeholder →
      rolesOf n (d'.passes.flatMap Pass.uses) = rolesOf n (d.passes.flatMap Pass.uses)) :
    d.MovesAlike d' := by
  intro env env' h h' g g' h₁ h₁' hBuilt hBuilt'
  refine ⟨by rw [keys_of_build hBuilt, keys_of_build hBuilt', hKeys], ?_⟩
  obtain ⟨built, hSent, hMoves⟩ := transitions_of_build hBuilt
  obtain ⟨built', hSent', hMoves'⟩ := transitions_of_build hBuilt'
  refine ⟨built, built', hSent, hSent', fun past past' k k' buffer buffer' k₁ k₁' => ?_⟩
  obtain ⟨calls, events, hCalls, hEvents, hChanges⟩ := hMoves past k buffer k₁
  obtain ⟨calls', events', hCalls', hEvents', hChanges'⟩ := hMoves' past' k' buffer' k₁'
  refine ⟨calls, calls', events, events', hCalls, hCalls', hEvents, hEvents', ?_⟩
  intro n i i' hImage hImage'
  have hKey : n ∈ d.plan.usages.keys := by
    rw [← keys_of_build hBuilt]
    exact NameMap.exists_get?_eq_some.mp ⟨i, hImage⟩
  rw [hChanges n i hImage, hChanges' n i' hImage',
    hRoles n (UsageMap.mem_keys_ofPasses.mp hKey).1]

/-- Neighbouring passes without a common name may be exchanged: in the plan they are exchanged as
well, with all states of all passes as before, and nothing else is different. Graphs of the two
drafts move each image in the same way. -/
theorem swap_apart {p q : Pass} (hApart : p.Apart q) (before after : List Pass) (output : Name) :
    (Draft.mk (before ++ q :: p :: after) output).plan.outputState =
        (Draft.mk (before ++ p :: q :: after) output).plan.outputState ∧
      (Draft.mk (before ++ q :: p :: after) output).plan.usages =
        (Draft.mk (before ++ p :: q :: after) output).plan.usages ∧
      (∃ before' p' q' after', before'.length = before.length ∧
        (Draft.mk (before ++ p :: q :: after) output).plan.passes =
          before' ++ p' :: q' :: after' ∧
        (Draft.mk (before ++ q :: p :: after) output).plan.passes =
          before' ++ q' :: p' :: after') ∧
      (Draft.mk (before ++ p :: q :: after) output).MovesAlike
        (Draft.mk (before ++ q :: p :: after) output) := by
  refine ⟨outputState_swap hApart before after output, usages_swap before after output,
    hApart.resolveAll_swap before after, movesAlike ?_ fun n => hApart.roles_swap before after⟩
  rw [usages_swap before after output]

end Draft

/-! ## Two passes that may change places

One draws the scene and the other one what is on top of it; a third pass puts them together. -/

namespace Overlay

def scene : Pass := { name := "Scene", colors := [.of ⟨"scene"⟩ .discard] }

def overlay : Pass := { name := "Overlay", colors := [.of ⟨"overlay"⟩ .discard] }

def compose : Pass where
  name := "Compose"
  inputs := [{ name := ⟨"scene"⟩ }, { name := ⟨"overlay"⟩ }]
  colors := [.of ⟨"final"⟩ .discard]

theorem apart : scene.Apart overlay := by
  intro n _ hScene hOverlay
  obtain rfl := List.mem_singleton.mp hScene
  exact absurd (List.mem_singleton.mp hOverlay) (by decide)

/-- Drafts that only draw colors and without pipelines are built on a device that refuses
nothing. -/
theorem builds {d : Draft} (hDepth : ∀ p ∈ d.passes, p.depth = none)
    (hPipeline : ∀ p ∈ d.passes, p.pipeline = none) :
    ∃ g h, (d.plan.build TwoPasses.environment).run TwoPasses.host = (.ok g, h) := by
  have hNoDepth : ∀ n, ¬ d.DrawsDepth n := by
    rintro n ⟨-, p, hp, t, ht, -⟩
    rw [hDepth p hp] at ht
    cases ht
  have hBuildable : d.Buildable := by
    refine ⟨hNoDepth _, fun n hBoth => hNoDepth n hBoth.2, fun p hp hSome => ?_,
      fun p hp choice hSome => ?_⟩
    · exact absurd (hPipeline p hp) hSome
    · rw [hPipeline p hp] at hSome
      cases hSome
  have hFits : TwoPasses.environment.memory.fits Script.ordinaryNeeds.typeBits .deviceLocal 0 =
      true := by decide
  have hObliging : TwoPasses.host.device.script.Obliging TwoPasses.environment.memory :=
    Script.obliging (fun _ _ => rfl) (by decide) fun _ => ⟨0, by decide, hFits⟩
  exact Draft.exists_build hObliging hBuildable

theorem swaps : scene.Apart overlay ∧
    (Draft.mk [overlay, scene, compose] ⟨"final"⟩).plan.usages =
      (Draft.mk [scene, overlay, compose] ⟨"final"⟩).plan.usages ∧
    ∃ g g' h₁ h₁',
      ((Draft.mk [scene, overlay, compose] ⟨"final"⟩).plan.build TwoPasses.environment).run
        TwoPasses.host = (.ok g, h₁) ∧
      ((Draft.mk [overlay, scene, compose] ⟨"final"⟩).plan.build TwoPasses.environment).run
        TwoPasses.host = (.ok g', h₁') ∧
      g'.images.keys = g.images.keys := by
  obtain ⟨-, hUsages, -, hMoves⟩ := Draft.swap_apart apart [] [compose] ⟨"final"⟩
  obtain ⟨g, h₁, hFirst⟩ : ∃ g h, ((Draft.mk [scene, overlay, compose] ⟨"final"⟩).plan.build
      TwoPasses.environment).run TwoPasses.host = (.ok g, h) := builds (by decide) (by decide)
  obtain ⟨g', h₁', hSecond⟩ : ∃ g h, ((Draft.mk [overlay, scene, compose] ⟨"final"⟩).plan.build
      TwoPasses.environment).run TwoPasses.host = (.ok g, h) := builds (by decide) (by decide)
  exact ⟨apart, hUsages, g, g', h₁, h₁', hFirst, hSecond,
    (hMoves _ _ _ _ _ _ _ _ hFirst hSecond).1⟩

end Overlay

end FrameGraph
