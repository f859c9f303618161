import FrameGraph.Graph.Recording
import FrameGraph.Proofs.Plan.Assembly

/-! # Recorded commands

Executing and presenting a graph only records commands, and those speak of nothing but what the
graph owns and of the image that the output is copied to.
-/

namespace FrameGraph

set_option autoImplicit false

open Host

/-- What the command speaks of, hooks included. -/
def Command.objects : Command → List Object
  | .barrier info => info.images.map fun b => b.image.object
  | .copyImage info => [info.source.object, info.target.object]
  | .beginRenderPass info =>
    info.renderPass.object :: info.framebuffer.toList.map Handle.object
  | .bindPipeline _ pipeline => [pipeline.object]
  | .hook info =>
    info.renderPass.toList.map Handle.object ++ info.pipeline.toList.map Handle.object
  | _ => []

/-- Every image of the map is owned. -/
def ImageMap.Owned (images : ImageMap) : Prop :=
  ∀ n i, images.get? n = some i → i.handle.object ∈ images.objects

theorem UsageMap.Allocates.owned {s : Surface} {uses : List (Name × ImageUsage)}
    {images : ImageMap} {log : List Call} (h : Allocates s uses images.entries log) :
    images.Owned := by
  intro n i hImage
  obtain ⟨_, _, _, -, -, hFulfilled, -⟩ := h.image_mem (NameMap.get?_eq_some.mp hImage)
  obtain ⟨memory, hObjects⟩ := hFulfilled.objects_eq
  exact ImageMap.mem_objects hImage (by simp [hObjects])

namespace PassObjects

theorem opening_objects {o : PassObjects} {c : Command} (hc : c ∈ o.opening) :
    c.objects ⊆ o.objects := by
  unfold opening at hc
  cases hRenderPass : o.renderPass with
  | none =>
    rw [hRenderPass] at hc
    cases hc
  | some renderPass =>
    rw [hRenderPass] at hc
    intro q hq
    rcases List.mem_append.mp hc with hc | hc
    · simp only [List.mem_cons, List.not_mem_nil, or_false] at hc
      rcases hc with rfl | rfl | rfl
      · rcases List.mem_cons.mp hq with rfl | hq
        · simp [objects, hRenderPass]
        · exact List.mem_append_left _ (List.mem_append_right _ hq)
      · cases hq
      · cases hq
    · obtain ⟨pipeline, hPipeline, rfl⟩ := List.mem_map.mp hc
      obtain rfl := List.mem_singleton.mp hq
      simp only [objects, List.mem_append, List.mem_map]
      exact .inl (.inl (.inl ⟨pipeline, hPipeline, rfl⟩))

theorem closing_objects {o : PassObjects} {c : Command} (hc : c ∈ o.closing) :
    c.objects = [] := by
  unfold closing at hc
  cases hRenderPass : o.renderPass with
  | none =>
    rw [hRenderPass] at hc
    cases hc
  | some renderPass =>
    rw [hRenderPass] at hc
    obtain rfl := List.mem_singleton.mp hc
    rfl

end PassObjects

theorem Hook.commands_objects {k : Hook} {o : PassObjects} {c : Command}
    (hc : c ∈ k.commands o) : c.objects ⊆ o.objects := by
  intro q hq
  rcases List.mem_cons.mp hc with rfl | hc
  · simp only [Command.objects, PassObjects.objects, List.mem_append] at hq ⊢
    rcases hq with hq | hq
    · exact .inr hq
    · exact .inl (.inl (.inl hq))
  · split at hc
    · obtain rfl := List.mem_singleton.mp hc
      cases hq
    · cases hc

namespace Node

theorem mem_barriers {images : ImageMap} {n : Node} {c : Command} (hc : c ∈ n.barriers images) :
    ∃ u ∈ n.pendingInputs, ∃ i, images.get? u.name = some i ∧
      c = i.transition u.initial .shaderRead := by
  obtain ⟨u, hu, hc⟩ := List.mem_filterMap.mp hc
  obtain ⟨i, hImage, rfl⟩ := Option.map_eq_some_iff.mp hc
  exact ⟨u, hu, i, hImage, rfl⟩

theorem commands_objects {images : ImageMap} (hOwned : images.Owned) {n : Node} {c : Command}
    (hc : c ∈ n.commands images) : c.objects ⊆ n.objects.objects ++ images.objects := by
  intro q hq
  simp only [commands, List.mem_append] at hc
  rcases hc with ((hc | hc) | hc) | hc
  · obtain ⟨u, -, i, hImage, rfl⟩ := mem_barriers hc
    obtain rfl := List.mem_singleton.mp hq
    exact List.mem_append_right _ (hOwned _ i hImage)
  · exact List.mem_append_left _ (PassObjects.opening_objects hc hq)
  · obtain ⟨k, -, hc⟩ := List.mem_flatMap.mp hc
    exact List.mem_append_left _ (Hook.commands_objects hc hq)
  · rw [PassObjects.closing_objects hc] at hq
    cases hq

end Node

namespace Graph

/-- The commands that present the graph. -/
def presentation (g : Graph) (target : Image) : List Command :=
  g.outputImage?.toList.flatMap fun i => i.presentCommands g.outputState target

theorem commands_objects {g : Graph} (hOwned : g.images.Owned) {c : Command}
    (hc : c ∈ g.commands) : c.objects ⊆ g.objects := by
  obtain ⟨n, hn, hc⟩ := List.mem_flatMap.mp hc
  intro q hq
  rcases List.mem_append.mp (Node.commands_objects hOwned hc hq) with hq | hq
  · exact List.mem_append_left _ (List.mem_flatMap.mpr ⟨n, hn, hq⟩)
  · exact List.mem_append_right _ hq

theorem presentation_objects {g : Graph} (hOwned : g.images.Owned) {target : Image}
    {c : Command} (hc : c ∈ g.presentation target) {o : Object} (ho : o ∈ c.objects) :
    o ∈ g.objects ∨ o = target.handle.object := by
  obtain ⟨i, hi, hc⟩ := List.mem_flatMap.mp hc
  have hOutput : i.handle.object ∈ g.objects :=
    List.mem_append_right _ (hOwned _ i (Option.mem_toList.mp hi))
  simp only [Image.presentCommands, List.mem_cons, List.not_mem_nil, or_false] at hc
  rcases hc with rfl | rfl | rfl | rfl
  · obtain rfl := List.mem_singleton.mp ho
    exact .inl hOutput
  · exact .inr (List.mem_singleton.mp ho)
  · rcases List.mem_cons.mp ho with rfl | ho
    · exact .inl hOutput
    · exact .inr (List.mem_singleton.mp ho)
  · exact .inr (List.mem_singleton.mp ho)

theorem sent_execute (g : Graph) (buffer : CommandBuffer) (h : Host) :
    Sent h ((g.execute buffer).run h).2 (g.commands.map (.record buffer)) :=
  (sent_reportAll g.notices h).trans (sent_recordAll buffer g.commands _)

theorem sent_present (g : Graph) (buffer : CommandBuffer) (target : Image) (h : Host) :
    Sent h ((g.present buffer target).run h).2
      ((g.presentation target).map (.record buffer)) := by
  unfold present presentation
  cases g.outputImage? with
  | none => exact sent_report _ h
  | some i =>
    have hSent := sent_recordAll buffer (i.presentCommands g.outputState target) h
    simpa using hSent

end Graph

end FrameGraph
