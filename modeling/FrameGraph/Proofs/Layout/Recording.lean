import FrameGraph.Proofs.Graph.Recording
import FrameGraph.Proofs.Layout.Tracking

/-! # The layouts that a frame records

The commands of a frame move images as the uses of the passes say, in the order of the uses: the
inputs of a pass by barriers, and its targets by its render pass.
-/

namespace FrameGraph

set_option autoImplicit false

open Command

def BoundTarget.event (b : BoundTarget) : LayoutEvent :=
  .move b.image.handle b.description.initial b.description.final

namespace StateMap

theorem stampUses_events (images : ImageMap) (built : List Call) (s : StateMap)
    (inputs : List Use) :
    allLayoutEvents built
        ((((s.stampUses .shaderRead inputs).filter Use.isLive).filter
          fun u => u.initial ≠ .shaderRead).filterMap fun u =>
            (images.get? u.name).map fun i => i.transition u.initial .shaderRead) =
      some (s.events images (inputs.map fun u => (u.name, .shaderRead))) := by
  induction inputs generalizing s with
  | nil => rfl
  | cons u inputs ih =>
    rw [stampUses, List.map_cons, events, event]
    by_cases hLive : u.isLive = true
    · have hName : u.name.isPlaceholder = false := by simpa [Use.isLive] using hLive
      have hStamp : s.stamp u = { u with initial := s.stateOf u.name } := if_pos hLive
      rw [hStamp, List.filter_cons_of_pos (by simpa [Use.isLive] using hLive)]
      by_cases hRead : s.stateOf u.name = .shaderRead
      · rw [List.filter_cons_of_neg (by simp [hRead]), if_pos (.inr ⟨hRead, rfl⟩)]
        exact ih _
      · rw [List.filter_cons_of_pos (by simpa using hRead),
          if_neg (not_or.mpr ⟨by simp [hName], fun h => hRead h.1⟩)]
        cases hImage : images.get? u.name with
        | none =>
          rw [List.filterMap_cons_none (by simp [hImage])]
          exact ih _
        | some i =>
          rw [List.filterMap_cons_some (by simp [hImage]; rfl), allLayoutEvents, ih]
          rfl
    · have hName : u.name.isPlaceholder = true := by simpa [Use.isLive] using hLive
      have hStamp : s.stamp u = u := if_neg hLive
      rw [hStamp, List.filter_cons_of_neg hLive, if_pos (.inl hName)]
      exact ih _

theorem stampTargets_events {α : Type} {images : ImageMap} {role : ImageState}
    (hRole : role ≠ .shaderRead) (bind : Image → Target α → BoundTarget)
    (hBind : ∀ i t, (bind i t).event = .move i.handle t.initial.layout role.layout)
    (s : StateMap) (targets : List (Target α)) {bound : List BoundTarget}
    (h : List.Forall₂ (fun (t : Target α) b => ∃ i, images.get? t.name = some i ∧ b = bind i t)
      ((s.stampTargets role targets).filter fun t => t.isLive) bound) :
    bound.map BoundTarget.event = s.events images (targets.map fun t => (t.name, role)) := by
  induction targets generalizing s bound with
  | nil =>
    cases h
    rfl
  | cons t targets ih =>
    rw [stampTargets] at h
    rw [List.map_cons, events, event]
    by_cases hLive : t.isLive = true
    · have hName : t.name.isPlaceholder = false := by simpa [Use.isLive] using hLive
      have hStamp : s.stamp t.toUse = { t.toUse with initial := s.stateOf t.name } :=
        if_pos hLive
      rw [hStamp, List.filter_cons_of_pos (by simpa [Use.isLive] using hLive)] at h
      rw [if_neg (not_or.mpr ⟨by simp [hName], fun h => hRole h.2⟩)]
      cases h with
      | cons hHead hRest =>
        obtain ⟨i, hImage, rfl⟩ := hHead
        rw [List.map_cons, ih _ hRest, hBind, hImage]
        rfl
    · have hName : t.name.isPlaceholder = true := by simpa [Use.isLive] using hLive
      have hStamp : s.stamp t.toUse = t.toUse := if_neg hLive
      rw [hStamp, List.filter_cons_of_neg (by simpa using hLive)] at h
      rw [if_pos (.inl hName)]
      exact ih _ h

end StateMap

namespace Pass

theorem Binds.events {p : Pass} {s : StateMap} {images : ImageMap} {t : TargetSet}
    (h : (p.resolve s).Binds images t) :
    t.all.map BoundTarget.event = StateMap.events images
      (s.steps (p.inputs.map fun u => (u.name, .shaderRead)))
      (p.colors.map (fun c => (c.name, .colorTarget)) ++
        p.depth.toList.map fun d => (d.name, .depthTarget)) := by
  rw [TargetSet.all, List.map_append, StateMap.events_append]
  congr 1
  · exact StateMap.stampTargets_events (by decide) BoundTarget.ofColor (fun _ _ => rfl) _ _
      h.colors
  · refine StateMap.stampTargets_events (by decide) BoundTarget.ofDepth (fun _ _ => rfl) _ _ ?_
    have hDepth := h.depth
    rw [liveDepth, Option.toList_filter] at hDepth
    cases hTarget : p.depth with
    | none => simpa [resolve, hTarget, StateMap.stampTargets] using hDepth
    | some d => simpa [resolve, hTarget, StateMap.stampTargets] using hDepth

variable {built : List Call} {images : ImageMap}

/-- A render pass moves the images of its targets, one after the other. -/
theorem layoutEvents_begin {t : TargetSet} {renderPass : Handle .renderPass}
    {framebuffer : Handle .framebuffer}
    (hRenderPass : Log.renderPass? built renderPass = some t.renderPassInfo)
    (hFramebuffer : Log.framebuffer? built framebuffer = some (t.framebufferInfo renderPass))
    (hViews : ∀ b ∈ t.all, Log.viewed? built b.image.view = some b.image.handle) :
    (Command.beginRenderPass ⟨renderPass, some framebuffer, t.area, t.clearValues, 0⟩).layoutEvents
      built = some (t.all.map BoundTarget.event) := by
  have hImages : t.views.mapM (Log.viewed? built) = some (t.all.map fun b => b.image.handle) := by
    rw [TargetSet.views, List.mapM_map]
    exact Traversal.mapM_eq_some hViews
  have hZip : List.zipWith (fun image (d : TargetDescription) =>
      LayoutEvent.move image d.initial d.final) (t.all.map fun b => b.image.handle)
        t.descriptions = t.all.map BoundTarget.event := by
    rw [TargetSet.descriptions, List.zipWith_map, List.zipWith_self]
    rfl
  simp only [Command.layoutEvents, hRenderPass, hFramebuffer, Option.bind_eq_bind,
    Option.bind_some]
  rw [show (t.framebufferInfo renderPass).views = t.views from rfl, hImages, Option.bind_some,
    if_pos (by simp [TargetSet.renderPassInfo, TargetSet.descriptions]), ← hZip]
  rfl

/-- The views of the images are known. -/
def KnowsViews (built : List Call) (images : ImageMap) : Prop :=
  ∀ ⦃n i⦄, images.get? n = some i → Log.viewed? built i.view = some i.handle

theorem Compiled.opening_events (hDistinct : (Log.made built).Nodup)
    (hViews : KnowsViews built images) {p : Pass} {o : PassObjects} {log : List Call}
    (h : p.Compiled images o log) (hLog : log ⊆ built) :
    ∃ t, p.Binds images t ∧
      allLayoutEvents built o.opening = some (t.all.map BoundTarget.event) := by
  have hBound : ∀ {t}, p.Binds images t → ∀ b ∈ t.all,
      Log.viewed? built b.image.view = some b.image.handle := by
    intro t hBinds b hb
    obtain ⟨n, hImage⟩ := hBinds.image_mem hb
    exact hViews hImage
  have hBegin : ∀ {t : TargetSet} {renderPass : Handle .renderPass}
      {framebuffer : Handle .framebuffer} {commands : List Command}, p.Binds images t →
      .create (.renderPass t.renderPassInfo) (.made renderPass.id) ∈ built →
      .create (.framebuffer (t.framebufferInfo renderPass)) (.made framebuffer.id) ∈ built →
      (∀ c ∈ commands, c.layoutEvents built = some []) →
      allLayoutEvents built (.beginRenderPass ⟨renderPass, some framebuffer, t.area,
        t.clearValues, 0⟩ :: commands) = some (t.all.map BoundTarget.event) := by
    intro t renderPass framebuffer commands hBinds hRenderPass hFramebuffer hRest
    rw [allLayoutEvents, layoutEvents_begin (Log.renderPass?_of_mem hDistinct hRenderPass)
      (Log.framebuffer?_of_mem hDistinct hFramebuffer) (hBound hBinds),
      allLayoutEvents_of_forall_nil hRest]
    simp
  cases h with
  | bare t hTargets _ hEmpty =>
    refine ⟨t, bindTargets_eq_ok.mp hTargets, ?_⟩
    rw [List.isEmpty_iff.mp hEmpty]
    rfl
  | plain t hTargets _ _ renderPass framebuffer =>
    refine ⟨t, bindTargets_eq_ok.mp hTargets, ?_⟩
    exact hBegin (bindTargets_eq_ok.mp hTargets) (hLog (by simp)) (hLog (by simp))
      (by simp [Command.layoutEvents])
  | drawing t hTargets _ _ _ _ _ renderPass framebuffer =>
    refine ⟨t, bindTargets_eq_ok.mp hTargets, ?_⟩
    exact hBegin (bindTargets_eq_ok.mp hTargets) (hLog (by simp)) (hLog (by simp))
      (by simp [Command.layoutEvents])

end Pass

namespace Node

/-- Only the barriers and the beginning of the render pass matter. -/
theorem commands_events (built : List Call) (images : ImageMap) (n : Node) :
    allLayoutEvents built (n.commands images) =
      allLayoutEvents built (n.barriers images ++ n.objects.opening) := by
  have hHook : allLayoutEvents built n.hookCommands = some [] := by
    apply allLayoutEvents_of_forall_nil
    intro c hc
    obtain ⟨k, -, hc⟩ := List.mem_flatMap.mp hc
    rcases List.mem_cons.mp hc with rfl | hc
    · rfl
    · split at hc
      · obtain rfl := List.mem_singleton.mp hc
        rfl
      · cases hc
  have hClosing : allLayoutEvents built n.objects.closing = some [] := by
    apply allLayoutEvents_of_forall_nil
    intro c hc
    unfold PassObjects.closing at hc
    split at hc
    · cases hc
    · obtain rfl := List.mem_singleton.mp hc
      rfl
  rw [commands, allLayoutEvents_append, allLayoutEvents_append _ _ n.hookCommands, hHook, hClosing]
  cases allLayoutEvents built (n.barriers images ++ n.objects.opening) with
  | none => rfl
  | some events => simp

end Node

/-- The nodes record what the uses of their passes say. -/
theorem Plan.Compiles.events {built : List Call} {images : ImageMap}
    (hDistinct : (Log.made built).Nodup) (hViews : Pass.KnowsViews built images)
    {passes : List Pass} {s : StateMap} {nodes : List Node} {log : List Call}
    (h : Plan.Compiles images (Pass.resolveAll s passes) nodes log) (hLog : log ⊆ built) :
    allLayoutEvents built (nodes.flatMap (Node.commands images)) =
      some (s.events images (passes.flatMap Pass.uses)) := by
  -- Each pass starts from the states that those before it leave.
  induction passes generalizing s nodes log with
  | nil =>
    cases h
    rfl
  | cons p passes ih =>
    cases h with
    | cons hPass hRest =>
      obtain ⟨hFirst, hNext⟩ := List.append_subset.mp hLog
      obtain ⟨t, hBinds, hOpening⟩ := hPass.opening_events hDistinct hViews hFirst
      have hBarriers := s.stampUses_events images built p.inputs
      rw [List.flatMap_cons, List.flatMap_cons, StateMap.events_append]
      refine allLayoutEvents_append_eq_some ?_ (ih hRest hNext)
      rw [Node.commands_events]
      have hNode := allLayoutEvents_append_eq_some hBarriers hOpening
      rw [hBinds.events, ← StateMap.events_append, ← List.append_assoc] at hNode
      exact hNode

end FrameGraph
