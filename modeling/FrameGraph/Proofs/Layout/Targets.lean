import FrameGraph.Proofs.Layout.Transitions
import FrameGraph.Proofs.Plan.Blocks

/-! # Targets of a render pass as it begins

A render pass takes the layouts of all its targets at once, as they are when it begins. The states
of its targets are filled in one after the other, so the first target with an image has the layout
that the image is in, and a later one with the same image has the layout that the first one leaves.
-/

namespace FrameGraph

set_option autoImplicit false

open Command Host LayoutEvent Traversal

/-! ## Layouts before any of the moves -/

namespace StateMap

variable {images : ImageMap} {s : StateMap} {layouts : Layouts} {touched : List (Handle .image)}

/-- A use moves nothing and leaves the states of all images, or it moves the image of its name. -/
theorem event_cases (images : ImageMap) (s : StateMap) (use : Name × ImageState) :
    (s.event images use = [] ∧
      ∀ n i, images.get? n = some i → (s.step use).stateOf n = s.stateOf n) ∨
    ∃ j, images.get? use.1 = some j ∧
      s.event images use = [.move j.handle (s.stateOf use.1).layout use.2.layout] ∧
      ∀ n, n ≠ use.1 → (s.step use).stateOf n = s.stateOf n := by
  unfold event
  by_cases hPlaceholder : use.1 = .placeholder
  · rw [if_pos (.inl (Name.isPlaceholder_iff.mpr hPlaceholder)), step_placeholder hPlaceholder]
    exact .inl ⟨rfl, fun _ _ _ => rfl⟩
  have hLive : use.1.isPlaceholder = false := by rwa [← Bool.not_eq_true, Name.isPlaceholder_iff]
  have hStep := fun n => s.stateOf_step use n hLive
  by_cases hAgain : s.stateOf use.1 = .shaderRead ∧ use.2 = .shaderRead
  · rw [if_pos (.inr hAgain)]
    refine .inl ⟨rfl, fun n _ _ => ?_⟩
    rw [hStep]
    split
    · rw [‹n = use.1›, hAgain.1, hAgain.2]
    · rfl
  rw [if_neg (not_or.mpr ⟨by simp [hLive], hAgain⟩)]
  cases hImage : images.get? use.1 with
  | none =>
    refine .inl ⟨rfl, fun n i hn => ?_⟩
    rw [hStep, if_neg]
    rintro rfl
    cases hImage.symm.trans hn
  | some j =>
    refine .inr ⟨j, rfl, rfl, fun n hn => ?_⟩
    rw [hStep, if_neg hn]

/-- The first move of an image starts in the layout of the state that its name had before. -/
theorem first_move {uses : List (Name × ImageState)} {before after : List LayoutEvent}
    {image : Handle .image} {old new : Layout}
    (h : s.events images uses = before ++ .move image old new :: after)
    (hFirst : image ∉ before.flatMap moved) :
    ∃ n i, images.get? n = some i ∧ i.handle = image ∧ old = (s.stateOf n).layout := by
  -- Until the image moves, no use changes the state of its name.
  induction uses generalizing s before with
  | nil => simp [events] at h
  | cons use uses ih =>
    rw [events] at h
    rcases event_cases images s use with ⟨hEvent, hSame⟩ | ⟨j, hImage, hEvent, hOther⟩
    · rw [hEvent, List.nil_append] at h
      obtain ⟨n, i, hi, hHandle, hOld⟩ := ih h hFirst
      exact ⟨n, i, hi, hHandle, by rw [hOld, hSame n i hi]⟩
    · rw [hEvent, List.singleton_append] at h
      cases before with
      | nil =>
        obtain ⟨hHead, -⟩ := List.cons.inj h
        cases hHead
        exact ⟨use.1, j, hImage, rfl, rfl⟩
      | cons e before =>
        obtain ⟨rfl, hRest⟩ := List.cons.inj h
        rw [List.flatMap_cons, List.mem_append, not_or] at hFirst
        obtain ⟨n, i, hi, hHandle, hOld⟩ := ih hRest hFirst.2
        have hn : n ≠ use.1 := by
          rintro rfl
          cases hImage.symm.trans hi
          exact hFirst.1 (List.mem_singleton.mpr hHandle.symm)
        exact ⟨n, i, hi, hHandle, by rw [hOld, hOther n hn]⟩

theorem Tracks.first_move (hTracks : Tracks images s layouts touched)
    {uses : List (Name × ImageState)} {before after : List LayoutEvent}
    {image : Handle .image} {old new : Layout}
    (h : s.events images uses = before ++ .move image old new :: after)
    (hFirst : image ∉ before.flatMap moved) : old = .undefined ∨ layouts image = old := by
  obtain ⟨n, i, hImage, rfl, rfl⟩ := StateMap.first_move h hFirst
  by_cases hUnknown : s.stateOf n = .unknown
  · exact .inl (ImageState.layout_eq_undefined.mpr hUnknown)
  · exact .inr (hTracks.current hImage hUnknown)

end StateMap

/-! ## Views and names -/

namespace Pass

variable {images : ImageMap} {built : List Call} {p : Pass} {t : TargetSet}

/-- The image of the name has this view. -/
def Shows (images : ImageMap) (n : Name) (v : Handle .imageView) : Prop :=
  ∃ i, images.get? n = some i ∧ v = i.view

theorem biUnique_shows (hSeparate : images.Separate) (hViews : KnowsViews built images) :
    Relator.BiUnique (Shows images) := by
  constructor
  · rintro m v n ⟨i, hi, hv⟩ ⟨j, hj, hv'⟩
    have hHandle : some i.handle = some j.handle := by
      rw [← hViews hi, ← hViews hj, ← hv, hv']
    exact hSeparate hi hj (Option.some.inj hHandle)
  · rintro n v w ⟨i, hi, rfl⟩ ⟨j, hj, rfl⟩
    rw [Option.some.inj (hi.symm.trans hj)]

theorem Binds.shows (h : p.Binds images t) : List.Forall₂ (Shows images)
    (p.liveColors.map (fun c => c.name) ++ p.liveDepth.toList.map fun d => d.name) t.views := by
  rw [TargetSet.views, TargetSet.all, List.map_append]
  refine List.rel_append ?_ ?_
  · rw [List.forall₂_map_left_iff, List.forall₂_map_right_iff]
    refine h.colors.imp fun c b hBound => ?_
    obtain ⟨i, hi, rfl⟩ := hBound
    exact ⟨i, hi, rfl⟩
  · rw [List.forall₂_map_left_iff, List.forall₂_map_right_iff]
    refine h.depth.imp fun d b hBound => ?_
    obtain ⟨i, hi, rfl⟩ := hBound
    exact ⟨i, hi, rfl⟩

/-- The views of a pass are different if and only if its color targets have different names. -/
theorem Binds.nodup_views (h : p.Binds images t) (hSeparate : images.Separate)
    (hViews : KnowsViews built images)
    (hRoles : ∀ c ∈ p.liveColors, ∀ d ∈ p.liveDepth, c.name ≠ d.name) :
    t.views.Nodup ↔ (p.liveColors.map fun c => c.name).Nodup := by
  have hNames : (p.liveColors.map (fun c => c.name) ++
      p.liveDepth.toList.map fun d => d.name).Nodup ↔ t.views.Nodup :=
    List.rel_nodup (biUnique_shows hSeparate hViews) h.shows
  rw [← hNames, List.nodup_append]
  constructor
  · exact And.left
  · refine fun hColors => ⟨hColors, ?_, ?_⟩
    · cases p.liveDepth <;> simp
    · simp only [List.mem_map, Option.mem_toList]
      rintro _ ⟨c, hc, rfl⟩ _ ⟨d, hd, rfl⟩
      exact hRoles c hc d hd

theorem Binds.image_eq (h : p.Binds images t) (hSeparate : images.Separate) {b c : BoundTarget}
    (hb : b ∈ t.all) (hc : c ∈ t.all) (hHandle : b.image.handle = c.image.handle) :
    b.image = c.image := by
  obtain ⟨m, hm⟩ := h.image_mem hb
  obtain ⟨n, hn⟩ := h.image_mem hc
  obtain rfl := hSeparate hm hn hHandle
  exact Option.some.inj (hm.symm.trans hn)

/-- If no earlier target has its view, the image of a target is in the layout that its description
names, or its contents are forgotten. -/
theorem Binds.finds {s : StateMap} {layouts : Layouts} {touched : List (Handle .image)}
    (h : (p.resolve s).Binds images t) (hSeparate : images.Separate)
    (hTracks : (s.steps (p.inputs.map fun u => (u.name, .shaderRead))).Tracks images layouts
      touched) {j : Nat} {b : BoundTarget} (hb : t.all[j]? = some b)
    (hFirst : b.image.view ∉ t.views.take j) :
    b.description.initial = .undefined ∨ layouts b.image.handle = b.description.initial := by
  have hEvents := h.events
  obtain ⟨before, after, hAll, rfl⟩ := exists_append_of_getElem? hb
  rw [hAll, List.map_append, List.map_cons] at hEvents
  -- An earlier target with the image would have its view as well.
  rw [TargetSet.views, hAll, List.map_append, List.take_left' (by simp)] at hFirst
  refine hTracks.first_move hEvents.symm fun hMoved => hFirst ?_
  simp only [List.flatMap_map, BoundTarget.event, moved, List.mem_flatMap,
    List.mem_singleton] at hMoved
  obtain ⟨c, hc, hHandle⟩ := hMoved
  have hImage : b.image = c.image :=
    h.image_eq hSeparate (by simp [hAll]) (by simp [hAll, hc]) hHandle
  exact List.mem_map.mpr ⟨c, hc, by rw [hImage]⟩

end Pass

/-! ## What is created for a render pass -/

/-- The attachment in this place is in the layout that its description names, or its contents are
forgotten. -/
def FindsTarget (built : List Call) (layouts : Layouts) (views : List (Handle .imageView))
    (targets : List TargetDescription) (j : Nat) : Prop :=
  ∀ v t image, views[j]? = some v → targets[j]? = some t → Log.viewed? built v = some image →
    t.initial = .undefined ∨ layouts image = t.initial

/-- The render pass that is begun has these targets, and its framebuffer these views of images. -/
structure BeginInfo.Opens (start : BeginInfo) (built : List Call)
    (views : List (Handle .imageView)) (targets : List TargetDescription) : Prop where
  renderPass : ∃ info, Log.renderPass? built start.renderPass = some info ∧ info.targets = targets
  framebuffer : ∃ framebuffer info, start.framebuffer = some framebuffer ∧
    Log.framebuffer? built framebuffer = some info ∧ info.views = views
  length_eq : views.length = targets.length
  viewed : ∀ v ∈ views, ∃ image, Log.viewed? built v = some image

namespace Pass

variable {images : ImageMap} {built : List Call} {p : Pass}

theorem Binds.viewed {t : TargetSet} (h : p.Binds images t) (hViews : KnowsViews built images)
    {b : BoundTarget} (hb : b ∈ t.all) :
    Log.viewed? built b.image.view = some b.image.handle := by
  obtain ⟨n, hImage⟩ := h.image_mem hb
  exact hViews hImage

theorem Compiled.opens (hDistinct : (Log.made built).Nodup) (hViews : KnowsViews built images)
    {o : PassObjects} {log : List Call} (h : p.Compiled images o log) (hLog : log ⊆ built)
    {start : BeginInfo} (hStart : o.rendering.map Rendering.start = some start) :
    ∃ t, p.Binds images t ∧ start.Opens built t.views t.descriptions := by
  have hOpens : ∀ {t : TargetSet} {renderPass : Handle .renderPass}
      {framebuffer : Handle .framebuffer}, p.Binds images t →
      .create (.renderPass t.renderPassInfo) (.made renderPass.id) ∈ built →
      .create (.framebuffer (t.framebufferInfo renderPass)) (.made framebuffer.id) ∈ built →
      BeginInfo.Opens ⟨renderPass, some framebuffer, t.area, t.clearValues, 0⟩ built t.views
        t.descriptions := by
    intro t renderPass framebuffer hBinds hRenderPass hFramebuffer
    refine ⟨⟨_, Log.renderPass?_of_mem hDistinct hRenderPass, rfl⟩,
      ⟨framebuffer, _, rfl, Log.framebuffer?_of_mem hDistinct hFramebuffer, rfl⟩,
      by simp [TargetSet.views, TargetSet.descriptions], fun v hv => ?_⟩
    obtain ⟨b, hb, rfl⟩ := List.mem_map.mp hv
    exact ⟨_, hBinds.viewed hViews hb⟩
  cases h with
  | bare => cases hStart
  | plain t hTargets =>
    cases hStart
    have hBinds := bindTargets_eq_ok.mp hTargets
    exact ⟨t, hBinds, hOpens hBinds (hLog (by simp)) (hLog (by simp))⟩
  | drawing t hTargets =>
    cases hStart
    have hBinds := bindTargets_eq_ok.mp hTargets
    exact ⟨t, hBinds, hOpens hBinds (hLog (by simp)) (hLog (by simp))⟩

theorem Binds.findsTarget {t : TargetSet} {s : StateMap} {layouts : Layouts}
    {touched : List (Handle .image)} (h : (p.resolve s).Binds images t)
    (hSeparate : images.Separate) (hViews : KnowsViews built images)
    (hTracks : (s.steps (p.inputs.map fun u => (u.name, .shaderRead))).Tracks images layouts
      touched) {j : Nat} (hFirst : ∀ v, t.views[j]? = some v → v ∉ t.views.take j) :
    FindsTarget built layouts t.views t.descriptions j := by
  intro v d image hView hTarget hImage
  rw [TargetSet.views, List.getElem?_map] at hView
  obtain ⟨b, hb, rfl⟩ := Option.map_eq_some_iff.mp hView
  rw [TargetSet.descriptions, List.getElem?_map, hb] at hTarget
  obtain rfl := Option.some.inj hTarget
  obtain rfl := Option.some.inj
    ((h.viewed hViews (List.mem_of_getElem? hb)).symm.trans hImage)
  refine h.finds hSeparate hTracks hb (hFirst _ ?_)
  rw [TargetSet.views, List.getElem?_map, hb]
  rfl

end Pass

/-! ## Commands before a render pass -/

namespace Graph

/-- What the graph records before the render pass of a node. -/
def commandsUntil (g : Graph) (k : Nat) : List Command :=
  (g.nodes.take k).flatMap (Node.commands g.images) ++
    g.nodes[k]?.toList.flatMap (Node.barriers g.images)

theorem commands_eq_until {g : Graph} {k : Nat} {n : Node} {start : BeginInfo}
    (hn : g.nodes[k]? = some n) (hStart : n.objects.rendering.map Rendering.start = some start) :
    ∃ rest, g.commands = g.commandsUntil k ++ .beginRenderPass start :: rest := by
  obtain ⟨r, hRendering, rfl⟩ := Option.map_eq_some_iff.mp hStart
  obtain ⟨before, after, hNodes, rfl⟩ := exists_append_of_getElem? hn
  have hOpening : n.objects.opening = r.opening := by
    simp [n.objects.opening_eq, hRendering]
  rw [commandsUntil, hn, commands, hNodes, List.take_left, List.flatMap_append, List.flatMap_cons,
    Node.commands, hOpening, Rendering.opening]
  exact ⟨_, by simp; rfl⟩

theorem commandsUntil_ran (built : List Call) (g : Graph) (k : Nat) :
    allLayoutEvents built (g.ran.commandsUntil k) = allLayoutEvents built (g.commandsUntil k) := by
  have hImages : g.ran.images = g.images := rfl
  have hNodes : g.ran.nodes.take k = (g.nodes.take k).map Node.ran := List.map_take.symm
  have hBefore : allLayoutEvents built
      (((g.nodes.take k).map Node.ran).flatMap (Node.commands g.images)) =
        allLayoutEvents built ((g.nodes.take k).flatMap (Node.commands g.images)) :=
    ran_events built { g with nodes := g.nodes.take k }
  have hBarriers : g.ran.nodes[k]?.toList.flatMap (Node.barriers g.images) =
      g.nodes[k]?.toList.flatMap (Node.barriers g.images) := by
    rw [Graph.ran, List.getElem?_map]
    cases g.nodes[k]? with
    | none => rfl
    | some n => rfl
  rw [commandsUntil, commandsUntil, hImages, hNodes, hBarriers, allLayoutEvents_append, hBefore,
    allLayoutEvents_append]

/-- The node begins this render pass, and until then the graph moves its images as the uses
say. -/
structure PlaysUntil (g : Graph) (built : List Call) (k : Nat) (start : BeginInfo)
    (uses : List (Name × ImageState)) : Prop where
  node : ∃ n, g.nodes[k]? = some n ∧ n.objects.rendering.map Rendering.start = some start
  commands : allLayoutEvents built (g.commandsUntil k) = some (StateMap.events g.images {} uses)

variable {g : Graph} {built : List Call} {k : Nat} {start : BeginInfo}
  {uses : List (Name × ImageState)}

theorem PlaysUntil.ran (h : g.PlaysUntil built k start uses) :
    g.ran.PlaysUntil built k start uses := by
  obtain ⟨n, hn, hStart⟩ := h.node
  have hNode : g.ran.nodes[k]? = some n.ran := by
    rw [Graph.ran, List.getElem?_map, hn]
    rfl
  exact ⟨⟨n.ran, hNode, hStart⟩, (commandsUntil_ran built g k).trans h.commands⟩

theorem PlaysUntil.runFrames (h : g.PlaysUntil built k start uses) (past : List Frame)
    (h₁ : Host) : ((g.runFrames past).run h₁).1.PlaysUntil built k start uses := by
  induction past generalizing g h₁ with
  | nil => exact h
  | cons f past ih =>
    have hNext := ih h.ran ((g.runFrame f).run h₁).2
    rw [← g.runFrame_result f h₁] at hNext
    exact hNext

/-- After the frames, executing the graph begins the render pass of the node when the images have
these layouts. All images were undefined before the first frame. -/
def BeginsIn (g : Graph) (built : List Call) (past : List Frame) (h : Host) (k : Nat)
    (start : BeginInfo) (layouts : Layouts) : Prop :=
  ∃ before earlier first rest events,
    Sent h ((g.runFrames past).run h).2 before ∧
    Log.layoutEvents built before = some earlier ∧
    (∀ buffer h', Sent h' ((((g.runFrames past).run h).1.execute buffer).run h').2
      ((first ++ .beginRenderPass start :: rest).map (.record buffer))) ∧
    first = ((g.runFrames past).run h).1.commandsUntil k ∧
    allLayoutEvents built first = some events ∧
    layouts = replay (replay (fun _ => .undefined) earlier) events

/-- When the render pass begins, the layouts are those that the states tell. -/
theorem PlaysUntil.beginsIn (hUntil : g.PlaysUntil built k start uses)
    {all : List (Name × ImageState)} (hPlays : g.Plays built all)
    (hSeparate : g.images.Separate) (hRoles : ∀ use ∈ uses, use.2 ≠ .unknown)
    (past : List Frame) (h : Host) : ∃ layouts touched, g.BeginsIn built past h k start layouts ∧
      (StateMap.steps {} uses).Tracks g.images layouts touched := by
  obtain ⟨before, earlier, hBefore, hEarlier, -, hImages⟩ := hPlays.frames past h
  have hNext := hUntil.runFrames past h
  obtain ⟨n, hn, hStart⟩ := hNext.node
  obtain ⟨rest, hCommands⟩ := commands_eq_until hn hStart
  have hEvents := hNext.commands
  rw [hImages] at hEvents
  obtain ⟨-, hTracks⟩ := (StateMap.Tracks.start g.images
    (replay (fun _ => .undefined) earlier)).steps hSeparate hRoles
  refine ⟨_, _, ⟨before, earlier, _, rest, _, hBefore, hEarlier, fun buffer h' => ?_, rfl,
    hEvents, rfl⟩, hTracks⟩
  rw [← hCommands]
  exact sent_execute _ buffer h'

end Graph

/-! ## Graphs of a draft -/

theorem Plan.Compiles.take {images : ImageMap} {passes : List Pass} {nodes : List Node}
    {log : List Call} (h : Compiles images passes nodes log) (k : Nat) :
    ∃ early, Compiles images (passes.take k) (nodes.take k) early ∧ early ⊆ log := by
  induction h generalizing k with
  | nil => exact ⟨[], by simpa using .nil, List.nil_subset _⟩
  | @cons _ _ own next _ _ hPass _ ih =>
    cases k with
    | zero => exact ⟨[], .nil, List.nil_subset _⟩
    | succ k =>
      obtain ⟨early, hBefore, hEarly⟩ := ih k
      exact ⟨own ++ early, .cons hPass hBefore, List.append_subset.mpr
        ⟨List.subset_append_left _ _, fun c hc => List.mem_append_right _ (hEarly hc)⟩⟩

namespace Pass

theorem take_resolveAll (s : StateMap) (passes : List Pass) (k : Nat) :
    (resolveAll s passes).take k = resolveAll s (passes.take k) := by
  induction passes generalizing s k with
  | nil => simp [resolveAll]
  | cons p passes ih =>
    cases k with
    | zero => rfl
    | succ k => simp [resolveAll, ih]

theorem liveColors_resolve (s : StateMap) (p : Pass) :
    (p.resolve s).liveColors.map (fun c => c.name) = p.liveColors.map fun c => c.name := by
  have hLive : ∀ q : Pass, q.liveColors.map (fun c => c.name) =
      (q.colors.map fun c => c.name).filter fun n => !n.isPlaceholder := by
    intro q
    rw [List.filter_map]
    rfl
  rw [hLive, hLive]
  exact congrArg _ (StateMap.stampTargets_names .colorTarget _ p.colors)

end Pass

namespace Draft

/-- The render pass of a pass: how it is begun, and what the graph does until then. -/
structure Renders (d : Draft) (g : Graph) (built : List Call) (k : Nat) (p : Pass)
    (start : BeginInfo) (t : TargetSet) : Prop where
  declared : d.passes[k]? = some p
  binds : (p.resolve (Pass.leavesAll {} (d.passes.take k))).Binds g.images t
  opens : start.Opens built t.views t.descriptions
  plays : g.PlaysUntil built k start
    ((d.passes.take k).flatMap Pass.uses ++ p.inputs.map fun u => (u.name, .shaderRead))

theorem renders_of_assembled {d : Draft} {env : Environment} {g : Graph}
    {imageCalls nodeCalls built : List Call}
    (hAssembled : d.plan.Assembled env g imageCalls nodeCalls)
    (hDistinct : (Log.made built).Nodup) (hNodes : nodeCalls ⊆ built)
    (hViews : Pass.KnowsViews built g.images) {k : Nat} {n : Node} {start : BeginInfo}
    (hn : g.nodes[k]? = some n)
    (hStart : n.objects.rendering.map Rendering.start = some start) :
    ∃ p t, d.Renders g built k p start t := by
  have hAll : g.nodes.length = d.passes.length :=
    hAssembled.nodes.length_eq.trans (Pass.restated_resolveAll {} d.passes).length_eq.symm
  have hBound : k < d.passes.length := hAll ▸ (List.getElem?_eq_some_iff.mp hn).1
  have hp : d.passes[k]? = some d.passes[k] := List.getElem?_eq_getElem hBound
  generalize d.passes[k] = p at hp
  have hPlanned : d.plan.passes[k]? = some (p.resolve (Pass.leavesAll {} (d.passes.take k))) := by
    rw [plan, Pass.getElem?_resolveAll, hp]
    rfl
  obtain ⟨o, own, hNode, hCompiled, hOwn⟩ := hAssembled.nodes.getElem? hPlanned
  obtain rfl := Option.some.inj (hn.symm.trans hNode)
  obtain ⟨t, hBinds, hOpens⟩ :=
    hCompiled.opens hDistinct hViews (List.Subset.trans hOwn.subset hNodes) hStart
  refine ⟨p, t, hp, hBinds, hOpens, ⟨_, hn, hStart⟩, ?_⟩
  obtain ⟨early, hBefore, hEarly⟩ := hAssembled.nodes.take k
  rw [plan, Pass.take_resolveAll] at hBefore
  have hBarriers : allLayoutEvents built (Node.barriers g.images
      (.ofPass (p.resolve (Pass.leavesAll {} (d.passes.take k))) o)) = some _ :=
    (Pass.leavesAll {} (d.passes.take k)).stampUses_events g.images built p.inputs
  have hPlayed := hBefore.events hDistinct hViews (List.Subset.trans hEarly hNodes)
  have hUntil := allLayoutEvents_append_eq_some hPlayed hBarriers
  rw [Pass.leavesAll_eq, ← StateMap.events_append] at hUntil
  rw [Graph.commandsUntil, hn, Pass.leavesAll_eq, Option.toList_some, List.flatMap_singleton]
  exact hUntil

theorem roles_until (d : Draft) (k : Nat) (p : Pass) : ∀ use ∈
    (d.passes.take k).flatMap Pass.uses ++ p.inputs.map (fun u => (u.name, .shaderRead)),
      use.2 ≠ .unknown := by
  intro use hUse
  rcases List.mem_append.mp hUse with hUse | hUse
  · exact Pass.allUses_roles _ use hUse
  · obtain ⟨u, -, rfl⟩ := List.mem_map.mp hUse
    exact nofun

/-- No color target of a pass has the name of its depth target, or its draft had no graph. -/
theorem Renders.nodup_views {d : Draft} {g : Graph} {built : List Call} {k : Nat} {p : Pass}
    {start : BeginInfo} {t : TargetSet} (h : d.Renders g built k p start t)
    (hSeparate : g.images.Separate) (hViews : Pass.KnowsViews built g.images)
    (hRoles : ∀ n, ¬ (d.DrawsColor n ∧ d.DrawsDepth n)) :
    t.views.Nodup ↔ (p.liveColors.map fun c => c.name).Nodup := by
  have hp : p ∈ d.passes := List.mem_of_getElem? h.declared
  rw [h.binds.nodup_views hSeparate hViews, Pass.liveColors_resolve]
  intro c hc e he hSame
  obtain ⟨hColor, hLive⟩ := List.mem_filter.mp hc
  obtain ⟨hDepth, -⟩ := Option.mem_filter_iff.mp he
  have hColorUse : (c.name, .colorTarget) ∈ p.uses := by
    rw [← p.uses_resolve]
    exact Pass.color_mem_uses.mpr ⟨c, hColor, rfl⟩
  have hDepthUse : (c.name, .depthTarget) ∈ p.uses := by
    rw [← p.uses_resolve]
    exact Pass.depth_mem_uses.mpr ⟨e, hDepth, hSame.symm⟩
  have hName : c.name ≠ .placeholder := Use.isLive_iff.mp hLive
  exact hRoles c.name ⟨⟨hName, p, hp, Pass.color_mem_uses.mp hColorUse⟩,
    hName, p, hp, Pass.depth_mem_uses.mp hDepthUse⟩

/-- The views that a render pass binds are different if and only if no two color targets of the
pass have the same name. In every frame, when the render pass begins, the image of each target
is in the layout that its description names, or the description forgets it, as long as no earlier
target of the pass has the same view. -/
theorem targets_found (d : Draft) (env : Environment) (h : Host) {g : Graph} {h₁ : Host}
    (hBuilt : (d.plan.build env).run h = (.ok g, h₁)) : ∃ built, Sent h h₁ built ∧
      ∀ k n start, g.nodes[k]? = some n →
        n.objects.rendering.map Rendering.start = some start →
          ∃ p views targets, d.passes[k]? = some p ∧ start.Opens built views targets ∧
            (views.Nodup ↔ (p.liveColors.map fun c => c.name).Nodup) ∧
            ∀ past, ∃ layouts, g.BeginsIn built past h₁ k start layouts ∧
              (∀ j, (∀ v, views[j]? = some v → v ∉ views.take j) →
                FindsTarget built layouts views targets j) ∧
              (views.Nodup → ∀ j, FindsTarget built layouts views targets j) := by
  obtain ⟨_, _, built, hSent, hAssembled, hNodes, hViews, hSeparate⟩ := assembled_of_build hBuilt
  have hPlays := plays_of_assembled hAssembled hSent.nodup hNodes hViews
  obtain ⟨-, hRoles⟩ := exists_check_eq_ok.mp hAssembled.usages
  refine ⟨built, hSent, fun k n start hn hStart => ?_⟩
  obtain ⟨p, t, hRenders⟩ := renders_of_assembled hAssembled hSent.nodup hNodes hViews hn hStart
  refine ⟨p, t.views, t.descriptions, hRenders.declared, hRenders.opens,
    hRenders.nodup_views hSeparate hViews hRoles, fun past => ?_⟩
  obtain ⟨layouts, touched, hBegins, hTracks⟩ :=
    hRenders.plays.beginsIn hPlays hSeparate (d.roles_until k p) past h₁
  rw [StateMap.steps_append, ← Pass.leavesAll_eq] at hTracks
  have hFinds : ∀ j, (∀ v, t.views[j]? = some v → v ∉ t.views.take j) →
      FindsTarget built layouts t.views t.descriptions j :=
    fun j hFirst => hRenders.binds.findsTarget hSeparate hViews hTracks hFirst
  refine ⟨layouts, hBegins, hFinds, fun hDistinct j => hFinds j fun v hv hEarlier => ?_⟩
  obtain ⟨before, after, hAll, rfl⟩ := exists_append_of_getElem? hv
  rw [hAll, List.take_left] at hEarlier
  rw [hAll] at hDistinct
  exact (List.nodup_append.mp hDistinct).2.2 v hEarlier v List.mem_cons_self rfl

end Draft

namespace TwoPasses

/-- The second pass samples the scene and draws into another image. -/
theorem targets_ready : ∃ g h₁ built n start views targets layouts,
    (draft.plan.build environment).run host = (.ok g, h₁) ∧ Sent host h₁ built ∧
    g.nodes[1]? = some n ∧ n.objects.rendering.map Rendering.start = some start ∧
    start.Opens built views targets ∧ views.Nodup ∧
    g.BeginsIn built [⟨⟨1⟩, none⟩] h₁ 1 start layouts ∧
    ∀ j, FindsTarget built layouts views targets j := by
  obtain ⟨g, h₁, hBuilt, -⟩ := builds
  have hSome : (((draft.plan.build environment).run host).1.toOption.bind fun g =>
      g.nodes[1]?.bind fun n => n.objects.rendering.map Rendering.start).isSome = true := by cbv
  rw [hBuilt] at hSome
  obtain ⟨start, hFound⟩ := Option.isSome_iff_exists.mp hSome
  obtain ⟨_, ⟨⟩, hNode⟩ := Option.bind_eq_some_iff.mp hFound
  obtain ⟨n, hn, hStart⟩ := Option.bind_eq_some_iff.mp hNode
  obtain ⟨built, hSent, hTargets⟩ := draft.targets_found environment host hBuilt
  obtain ⟨p, views, targets, hp, hOpens, hDistinct, hBegins⟩ := hTargets 1 n start hn hStart
  obtain ⟨layouts, hLayouts, -, hFinds⟩ := hBegins [⟨⟨1⟩, none⟩]
  obtain rfl := Option.some.inj hp
  have hViews : views.Nodup := hDistinct.mpr (by decide)
  exact ⟨g, h₁, built, n, start, views, targets, layouts, hBuilt, hSent, hn, hStart, hOpens,
    hViews, hLayouts, hFinds hViews⟩

end TwoPasses

/-! ## One image as two targets

A pass may name one image for two of its color targets. Its render pass then takes the second
target to be in the layout in which only the first one leaves it. -/

namespace TwiceDrawn

def pass : Pass where
  name := "Main"
  colors := [.of ⟨"scene"⟩ .discard, .of ⟨"scene"⟩ .discard]

def draft : Draft := ⟨[pass], ⟨"scene"⟩⟩

theorem second_initial {images : ImageMap} {t : TargetSet}
    (h : (pass.resolve {}).Binds images t) :
    ∃ b, t.all[1]? = some b ∧ b.description.initial = .colorTarget := by
  have hLive : (pass.resolve {}).liveColors = [.of ⟨"scene"⟩ .discard,
      { toUse := ⟨⟨"scene"⟩, .colorTarget⟩, policy := .discard }] := by decide
  have hColors := h.colors
  rw [hLive] at hColors
  generalize hAll : t.colors = bound at hColors
  cases hColors with
  | cons _ hRest =>
    cases hRest with
    | @cons _ b _ _ hSecond hNil =>
      obtain ⟨i, -, rfl⟩ := hSecond
      cases hNil
      exact ⟨_, by rw [TargetSet.all, hAll]; rfl, rfl⟩

theorem clashes : ∃ g h₁ built n start views targets layouts,
    (draft.plan.build TwoPasses.environment).run TwoPasses.host = (.ok g, h₁) ∧
    Sent TwoPasses.host h₁ built ∧ g.nodes[0]? = some n ∧
    n.objects.rendering.map Rendering.start = some start ∧ start.Opens built views targets ∧
    ¬ views.Nodup ∧ g.BeginsIn built [] h₁ 0 start layouts ∧
    ¬ FindsTarget built layouts views targets 1 := by
  obtain ⟨g, h₁, hBuilt⟩ : ∃ g h₁, (draft.plan.build TwoPasses.environment).run TwoPasses.host =
    (.ok g, h₁) := Overlay.builds (by decide) (by decide)
  have hSome : (((draft.plan.build TwoPasses.environment).run
      TwoPasses.host).1.toOption.bind fun g =>
        g.nodes[0]?.bind fun n => n.objects.rendering.map Rendering.start).isSome = true := by cbv
  rw [hBuilt] at hSome
  obtain ⟨start, hFound⟩ := Option.isSome_iff_exists.mp hSome
  obtain ⟨_, ⟨⟩, hNode⟩ := Option.bind_eq_some_iff.mp hFound
  obtain ⟨n, hn, hStart⟩ := Option.bind_eq_some_iff.mp hNode
  obtain ⟨_, _, built, hSent, hAssembled, hNodes, hViews, hSeparate⟩ :=
    Draft.assembled_of_build hBuilt
  have hPlays := Draft.plays_of_assembled hAssembled hSent.nodup hNodes hViews
  obtain ⟨p, t, hRenders⟩ :=
    Draft.renders_of_assembled hAssembled hSent.nodup hNodes hViews hn hStart
  obtain rfl : pass = p := Option.some.inj hRenders.declared
  obtain ⟨layouts, touched, hBegins, -⟩ :=
    hRenders.plays.beginsIn hPlays hSeparate (draft.roles_until 0 pass) [] h₁
  have hRoles := (Draft.exists_check_eq_ok.mp hAssembled.usages).2
  refine ⟨g, h₁, built, n, start, t.views, t.descriptions, layouts, hBuilt, hSent, hn, hStart,
    hRenders.opens, (hRenders.nodup_views hSeparate hViews hRoles).not.mpr (by decide), hBegins,
    fun hFinds => ?_⟩
  -- Nothing comes before this render pass, so its image is still undefined.
  obtain ⟨before, earlier, first, rest, events, hBefore, hEarlier, -, rfl, hEvents, rfl⟩ := hBegins
  obtain rfl : before = [] := List.self_eq_append_right.mp hBefore.calls
  obtain rfl : [] = earlier := Option.some.inj hEarlier
  obtain rfl : [] = events := Option.some.inj (hRenders.plays.commands.symm.trans hEvents)
  obtain ⟨b, hb, hInitial⟩ := second_initial hRenders.binds
  have hView : t.views[1]? = some b.image.view := by
    rw [TargetSet.views, List.getElem?_map, hb]
    rfl
  have hTarget : t.descriptions[1]? = some b.description := by
    rw [TargetSet.descriptions, List.getElem?_map, hb]
    rfl
  have hImage := hRenders.binds.viewed hViews (List.mem_of_getElem? hb)
  have hReally := hFinds b.image.view b.description b.image.handle hView hTarget hImage
  rw [hInitial] at hReally
  rcases hReally with hUndefined | hLeft
  · cases hUndefined
  · cases hLeft

end TwiceDrawn

end FrameGraph
