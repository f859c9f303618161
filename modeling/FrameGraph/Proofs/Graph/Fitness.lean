import FrameGraph.Proofs.Layout.Frame
import FrameGraph.Proofs.Plan.Fitness

/-! # Images are only used as what they are fit for

Whatever a graph records, it moves its images only between layouts of states that their usages
allow. Its barriers cover the aspect that the image is viewed by, and what is copied to the
surface is a color image that may be copied from.
-/

namespace FrameGraph

set_option autoImplicit false

open Command Host

/-- The layout is that of a state which the image was created for. -/
def Image.Allows (i : Image) (layout : Layout) : Prop :=
  ∃ state : ImageState, state.layout = layout ∧ i.usage.includes state.usage = true

def LayoutEvent.Suits (i : Image) : LayoutEvent → Prop
  | .move image before after => image = i.handle ∧ i.Allows before ∧ i.Allows after
  | .need image layout => image = i.handle ∧ i.Allows layout

/-! ## Events of uses -/

namespace StateMap

theorem stateOf_step_cases (s : StateMap) (use : Name × ImageState) (n : Name) :
    (s.step use).stateOf n = s.stateOf n ∨ (n, (s.step use).stateOf n) = use := by
  by_cases hLive : use.1.isPlaceholder = true
  · rw [step, if_pos hLive]
    exact .inl rfl
  · rw [stateOf_step s use n (Bool.eq_false_iff.mpr hLive)]
    by_cases hn : n = use.1
    · rw [if_pos hn, hn]
      exact .inr rfl
    · rw [if_neg hn]
      exact .inl rfl

/-- A name is in the state it was in, or in one that a use has put it into. -/
theorem stateOf_steps_cases (s : StateMap) (uses : List (Name × ImageState)) (n : Name) :
    (s.steps uses).stateOf n = s.stateOf n ∨ (n, (s.steps uses).stateOf n) ∈ uses := by
  induction uses generalizing s with
  | nil => exact .inl rfl
  | cons use uses ih =>
    rcases ih (s.step use) with hSame | hMem
    · rcases s.stateOf_step_cases use n with hStep | hStep
      · exact .inl (hSame.trans hStep)
      · rw [← hSame] at hStep
        exact .inr (List.mem_cons.mpr (.inl hStep))
    · exact .inr (List.mem_cons_of_mem use hMem)

theorem mem_events {images : ImageMap} {s : StateMap} {uses : List (Name × ImageState)}
    {e : LayoutEvent} (he : e ∈ s.events images uses) :
    ∃ n i before role, images.get? n = some i ∧ (n, role) ∈ uses ∧
      (before = s.stateOf n ∨ (n, before) ∈ uses) ∧
      e = .move i.handle before.layout role.layout := by
  induction uses generalizing s with
  | nil => cases he
  | cons use uses ih =>
    rcases List.mem_append.mp he with he | he
    · unfold event at he
      split at he
      · cases he
      · obtain ⟨i, hi, rfl⟩ := Option.map_eq_some_iff.mp (Option.mem_toList.mp he)
        exact ⟨use.1, i, s.stateOf use.1, use.2, hi, List.mem_cons_self, .inl rfl, rfl⟩
    · obtain ⟨n, i, before, role, hi, hRole, hBefore, rfl⟩ := ih he
      refine ⟨n, i, before, role, hi, List.mem_cons_of_mem use hRole, ?_, rfl⟩
      rcases hBefore with rfl | hBefore
      · rcases s.stateOf_step_cases use n with hStep | hStep
        · exact .inl hStep
        · exact .inr (List.mem_cons.mpr (.inl hStep))
      · exact .inr (List.mem_cons_of_mem use hBefore)

end StateMap

/-! ## Events of a later graph -/

theorem Command.allLayoutEvents_append_iff {built : List Call} {first second : List Command}
    {events : List LayoutEvent} : allLayoutEvents built (first ++ second) = some events ↔
      ∃ early late, allLayoutEvents built first = some early ∧
        allLayoutEvents built second = some late ∧ events = early ++ late := by
  rw [allLayoutEvents_append]
  simp only [Option.bind_eq_bind, Option.pure_def, Option.bind_eq_some_iff, Option.some.injEq]
  constructor
  · rintro ⟨early, hEarly, late, hLate, rfl⟩
    exact ⟨early, late, hEarly, hLate, rfl⟩
  · rintro ⟨early, late, hEarly, hLate, rfl⟩
    exact ⟨early, hEarly, late, hLate, rfl⟩

variable {built : List Call}

/-- A node that lost its objects only keeps its barriers. -/
theorem Node.Becomes.events {images : ImageMap} {n m : Node} (h : n.Becomes m)
    {events : List LayoutEvent}
    (hEvents : allLayoutEvents built (n.commands images) = some events) :
    ∃ left, allLayoutEvents built (m.commands images) = some left ∧ left ⊆ events := by
  rw [Node.commands_events] at hEvents ⊢
  have hBarriers : m.barriers images = n.barriers images := by
    rw [Node.barriers, h.pendingInputs, Node.barriers]
  rw [hBarriers]
  rcases h.objects with hSame | hCleared
  · rw [hSame]
    exact ⟨events, hEvents, List.Subset.refl _⟩
  · obtain ⟨early, late, hEarly, -, rfl⟩ := allLayoutEvents_append_iff.mp hEvents
    have hOpening : m.objects.opening = [] := by rw [hCleared]; rfl
    rw [hOpening, List.append_nil]
    exact ⟨early, hEarly, List.subset_append_left _ _⟩

theorem Graph.Becomes.events {g f : Graph} (h : g.Becomes f) {events : List LayoutEvent}
    (hEvents : allLayoutEvents built g.commands = some events) :
    ∃ left, allLayoutEvents built f.commands = some left ∧ left ⊆ events := by
  rw [Graph.commands, h.images]
  rw [Graph.commands] at hEvents
  have hNodes := h.nodes
  generalize g.nodes = nodes at hNodes hEvents
  generalize f.nodes = nodes' at hNodes
  induction hNodes generalizing events with
  | nil => exact ⟨[], rfl, List.nil_subset _⟩
  | cons hNode _ ih =>
    rw [List.flatMap_cons] at hEvents ⊢
    obtain ⟨early, late, hEarly, hLate, rfl⟩ := allLayoutEvents_append_iff.mp hEvents
    obtain ⟨first, hFirst, hSub⟩ := hNode.events hEarly
    obtain ⟨rest, hRest, hSubRest⟩ := ih hLate
    exact ⟨first ++ rest, allLayoutEvents_append_eq_some hFirst hRest,
      List.append_subset.mpr ⟨fun _ he => List.mem_append_left _ (hSub he),
        fun _ he => List.mem_append_right _ (hSubRest he)⟩⟩

/-! ## Barriers of a graph -/

/-- Apart from its barriers, a node neither waits for images nor copies them. -/
theorem Node.mem_commands {images : ImageMap} {n : Node} {c : Command}
    (hc : c ∈ n.commands images) :
    (∃ name i before, images.get? name = some i ∧ c = i.transition before .shaderRead) ∨
      (∀ info, c ≠ .barrier info) ∧ ∀ info, c ≠ .copyImage info := by
  simp only [commands, List.mem_append] at hc
  rcases hc with ((hc | hc) | hc) | hc
  · obtain ⟨u, -, i, hi, rfl⟩ := mem_barriers hc
    exact .inl ⟨u.name, i, u.initial, hi, rfl⟩
  · right
    unfold PassObjects.opening at hc
    constructor <;> rintro info rfl <;> split at hc <;> simp at hc
  · right
    constructor <;> rintro info rfl <;> simp [hookCommands, Hook.commands] at hc
  · right
    unfold PassObjects.closing at hc
    constructor <;> rintro info rfl <;> split at hc <;> simp at hc

theorem Graph.Becomes.presentationEvents {g f : Graph} (h : g.Becomes f) (target : Image) :
    f.presentationEvents target = g.presentationEvents target := by
  rw [Graph.presentationEvents, h.outputImage?, h.outputState, Graph.presentationEvents]

/-! ## Everything recorded is fitting -/

namespace Image

def shownEvents (target : Image) : List LayoutEvent :=
  [.move target.handle .undefined .copyTarget, .need target.handle .copyTarget,
    .move target.handle .copyTarget .presentable]

end Image

/-- The event is about the image of the surface that the operation shows the graph on. -/
def Operation.Shows (op : Operation) (e : LayoutEvent) : Prop :=
  ∃ k buffer target, op = .present k buffer target ∧ e ∈ target.shownEvents

namespace Draft

variable {d : Draft} {s : Surface} {images : ImageMap}

theorem Fits.allows {n : Name} {i : Image} (h : d.Fits s n i) {state : ImageState}
    (hState : state = .unknown ∨ d.AsksFor n state) : i.Allows state.layout := by
  refine ⟨state, rfl, ?_⟩
  rcases hState with rfl | hAsks
  · exact i.usage.includes_none
  · exact h.usage state hAsks

theorem event_suits (hFits : ∀ n i, images.get? n = some i → d.Fits s n i) {e : LayoutEvent}
    (he : e ∈ StateMap.events images {} (d.passes.flatMap Pass.uses)) :
    ∃ n i, images.get? n = some i ∧ e.Suits i := by
  obtain ⟨n, i, before, role, hi, hRole, hBefore, rfl⟩ := StateMap.mem_events he
  refine ⟨n, i, hi, rfl, (hFits n i hi).allows ?_, (hFits n i hi).allows (.inr (.inl hRole))⟩
  exact hBefore.imp_right .inl

/-- The output is shown from the state in which the passes leave it. -/
theorem shown_event_suits {env : Environment} {g : Graph} {imageCalls nodeCalls : List Call}
    (h : d.plan.Assembled env g imageCalls nodeCalls) {target : Image} {e : LayoutEvent}
    (he : e ∈ g.presentationEvents target) :
    (∃ n i, g.images.get? n = some i ∧ e.Suits i) ∨ e ∈ target.shownEvents := by
  obtain ⟨i, hOutput, he⟩ := List.mem_flatMap.mp he
  have hImage : g.images.get? g.output = some i := Option.mem_toList.mp hOutput
  rw [h.output] at hImage
  have hCopied : i.Allows .copySource := (h.fits hImage).allows (.inr (.inr rfl))
  have hLeft : i.Allows g.outputState.layout := by
    have hState : g.outputState = (StateMap.steps {} (d.passes.flatMap Pass.uses)).stateOf
        d.output := by
      rw [h.outputState, ← Pass.leavesAll_eq]
      rfl
    refine (h.fits hImage).allows ?_
    rw [hState]
    exact (StateMap.stateOf_steps_cases {} _ d.output).imp_right .inl
  simp only [List.mem_cons, List.not_mem_nil, or_false] at he
  rcases he with rfl | rfl | rfl | rfl | rfl
  · exact .inl ⟨d.output, i, hImage, rfl, hLeft, hCopied⟩
  · exact .inr List.mem_cons_self
  · exact .inl ⟨d.output, i, hImage, rfl, hCopied⟩
  · exact .inr (by simp [Image.shownEvents])
  · exact .inr (by simp [Image.shownEvents])

end Draft

/-- What an operation on the graph records fits the images of the graph: it moves them between
layouts that they allow, its barriers cover what they are viewed by, and what it copies to the
surface is a color image to be copied from. -/
structure Graph.RecordsFit (g : Graph) (built : List Call) (op : Operation)
    (next : List Call) : Prop where
  layouts : ∃ events, Log.layoutEvents built next = some events ∧
    ∀ e ∈ events, (∃ n i, g.images.get? n = some i ∧ e.Suits i) ∨ op.Shows e
  barriers : ∀ k buffer, op = .execute k buffer → ∀ info, .barrier info ∈ Log.commands next →
    ∀ b ∈ info.images, ∃ n i, g.images.get? n = some i ∧ b.image = i.handle ∧
      b.range = (i.request.viewInfo i.handle).range
  copies : ∀ info, .copyImage info ∈ Log.commands next → ∃ i, g.outputImage? = some i ∧
    info.source = i.handle ∧ i.aspect = .color ∧ i.usage.includes .copySource = true

namespace Graph.RecordsFit

variable {g f : Graph}

theorem idle {op : Operation} {next : List Call} (h : Log.commands next = []) :
    g.RecordsFit built op next := by
  refine ⟨⟨[], by rw [Log.layoutEvents, h]; rfl, List.forall_mem_nil _⟩, ?_, ?_⟩
  · intro _ _ _ info hInfo
    rw [h] at hInfo
    cases hInfo
  · intro info hInfo
    rw [h] at hInfo
    cases hInfo

variable {d : Draft} {env : Environment} {imageCalls nodeCalls : List Call}

theorem executed (hAssembled : d.plan.Assembled env g imageCalls nodeCalls)
    (hPlays : g.Plays built (d.passes.flatMap Pass.uses)) (hBecomes : g.Becomes f) (k : Nat)
    (buffer : CommandBuffer) :
    g.RecordsFit built (.execute k buffer) (f.commands.map (.record buffer)) := by
  obtain ⟨events, hEvents, hSub⟩ := hBecomes.events hPlays.commands
  refine ⟨⟨events, ?_, fun e he => ?_⟩, ?_, ?_⟩
  · rw [Log.layoutEvents, Log.commands_records]
    exact hEvents
  · exact .inl (Draft.event_suits (fun n i hImage => hAssembled.fits hImage) (hSub he))
  · intro _ _ _ info hInfo b hb
    rw [Log.commands_records] at hInfo
    obtain ⟨n, -, hInfo⟩ := List.mem_flatMap.mp hInfo
    rcases Node.mem_commands hInfo with ⟨name, i, before, hi, hTransition⟩ | ⟨hNone, -⟩
    · cases hTransition
      obtain rfl := List.mem_singleton.mp hb
      exact ⟨name, i, hBecomes.images ▸ hi, rfl, rfl⟩
    · exact absurd rfl (hNone info)
  · intro info hInfo
    rw [Log.commands_records] at hInfo
    obtain ⟨n, -, hInfo⟩ := List.mem_flatMap.mp hInfo
    rcases Node.mem_commands hInfo with ⟨_, _, _, -, hTransition⟩ | ⟨-, hNone⟩
    · cases hTransition
    · exact absurd rfl (hNone info)

theorem presented (hAssembled : d.plan.Assembled env g imageCalls nodeCalls)
    (hBecomes : g.Becomes f) (k : Nat) (buffer : CommandBuffer) (target : Image) :
    g.RecordsFit built (.present k buffer target)
      ((f.presentation target).map (.record buffer)) := by
  refine ⟨⟨f.presentationEvents target, ?_, fun e he => ?_⟩, nofun, ?_⟩
  · rw [Log.layoutEvents, Log.commands_records]
    exact presentation_events built f target
  · rw [hBecomes.presentationEvents] at he
    exact (Draft.shown_event_suits hAssembled he).imp_right fun hShown =>
      ⟨k, buffer, target, rfl, hShown⟩
  · intro info hInfo
    rw [Log.commands_records, presentation, hBecomes.outputImage?] at hInfo
    obtain ⟨i, hOutput, hInfo⟩ := List.mem_flatMap.mp hInfo
    have hShown : g.outputImage? = some i := Option.mem_toList.mp hOutput
    have hFits := hAssembled.fits hShown
    have hCopied : info.source = i.handle := by
      simp only [Image.presentCommands, Image.transition, Image.copyTo, Image.handOver,
        List.mem_cons, reduceCtorEq, Command.copyImage.injEq, false_or, or_false,
        List.not_mem_nil] at hInfo
      rw [hInfo]
    exact ⟨i, hShown, hCopied, hFits.output hAssembled.output,
      hFits.usage .copySource (.inr (by rw [hAssembled.output]; rfl))⟩

end Graph.RecordsFit

namespace TwoPasses

end TwoPasses

end FrameGraph
