import FrameGraph.Pass.Objects
import FrameGraph.Proofs.Image.Creation
import FrameGraph.Proofs.Pass.Targets

/-! # The calls that compile a pass

A pass that is compiled has made the objects it needs, each from those before it. A pass that its
declaration rules out is refused without a call, and any other failure ends with the destruction
of what was made.
-/

namespace FrameGraph

set_option autoImplicit false

open Host Traversal

def TargetSet.pipelineInfo (t : TargetSet) (shader : Shader) (vertexLayout : VertexLayout)
    (layout : Handle .pipelineLayout) (renderPass : Handle .renderPass) : PipelineInfo where
  stages := shader.stageInfos
  vertexLayout := vertexLayout
  colorBlending := t.colorBlending
  layout := layout
  renderPass := renderPass

namespace Pass

/-- What can be said against the pass before anything is created for it. -/
def check (p : Pass) (images : ImageMap) : Except BuildError (Option VertexLayout) := do
  p.vertexLayout (← p.bindTargets images)

/-- The objects of a pass and the calls that made them. -/
inductive Compiled (p : Pass) (images : ImageMap) : PassObjects → List Call → Prop
  | bare (t : TargetSet) (hTargets : p.bindTargets images = .ok t)
      (hLayout : p.vertexLayout t = .ok none) (hEmpty : t.isEmpty = true) :
      Compiled p images (.bare t) []
  | plain (t : TargetSet) (hTargets : p.bindTargets images = .ok t)
      (hLayout : p.vertexLayout t = .ok none) (hEmpty : t.isEmpty = false)
      (renderPass : Handle .renderPass) (framebuffer : Handle .framebuffer) :
      Compiled p images ⟨some renderPass, some framebuffer, none, none, t.area, t.clearValues⟩
        [.create (.renderPass t.renderPassInfo) (.made renderPass.id),
          .create (.framebuffer (t.framebufferInfo renderPass)) (.made framebuffer.id)]
  | drawing (t : TargetSet) (hTargets : p.bindTargets images = .ok t)
      (choice : PipelineChoice) (hChoice : p.pipeline = some choice)
      (vertexLayout : VertexLayout) (hLayout : p.vertexLayout t = .ok (some vertexLayout))
      (hEmpty : t.isEmpty = false) (renderPass : Handle .renderPass)
      (framebuffer : Handle .framebuffer) (layout : Handle .pipelineLayout)
      (pipeline : Handle .pipeline) :
      Compiled p images
        ⟨some renderPass, some framebuffer, some layout, some pipeline, t.area, t.clearValues⟩
        [.create (.renderPass t.renderPassInfo) (.made renderPass.id),
          .create (.framebuffer (t.framebufferInfo renderPass)) (.made framebuffer.id),
          .create (.pipelineLayout choice.shader.pipelineLayoutInfo) (.made layout.id),
          .create (.pipeline (t.pipelineInfo choice.shader vertexLayout layout renderPass))
            (.made pipeline.id)]

theorem vertexLayout_eq_ok {p : Pass} {t : TargetSet} {layout : Option VertexLayout}
    (h : p.vertexLayout t = .ok layout) :
    (p.pipeline = none ∧ layout = none) ∨
      ∃ choice packed, p.pipeline = some choice ∧ layout = some packed ∧ t.isEmpty = false := by
  unfold vertexLayout at h
  cases hPipeline : p.pipeline with
  | none =>
    rw [hPipeline] at h
    cases h
    exact .inl ⟨rfl, rfl⟩
  | some choice =>
    rw [hPipeline] at h
    cases hEmpty : t.isEmpty with
    | true =>
      simp only [hEmpty, if_true] at h
      cases h
    | false =>
      simp only [hEmpty] at h
      rcases hPack : VertexLayout.pack choice.shader.attributes choice.bindings with e | packed
      · simp [hPack] at h
      · simp only [hPack] at h
        cases h
        exact .inr ⟨choice, packed, rfl, rfl, rfl⟩

section Calls

variable {t : TargetSet} {later : List Object} (hViews : ∀ v ∈ t.views, v.object ∈ later)
  (renderPass : Handle .renderPass) (framebuffer : Handle .framebuffer)

include hViews

theorem builds_framebuffer : Log.Builds later
    [.create (.renderPass t.renderPassInfo) (.made renderPass.id),
      .create (.framebuffer (t.framebufferInfo renderPass)) (.made framebuffer.id)]
    [framebuffer.object, renderPass.object] := by
  have hPass : Log.Builds later [.create (.renderPass t.renderPassInfo) (.made renderPass.id)]
      [renderPass.object] := .create rfl nofun nofun
  refine hPass.append (.create rfl (by simp [Handle.object]) fun b hb => ?_)
  rcases List.mem_cons.mp hb with rfl | hb
  · exact List.mem_cons_self
  · obtain ⟨v, hv, rfl⟩ := List.mem_map.mp hb
    exact List.mem_cons_of_mem _ (hViews v hv)

theorem builds_pipelineLayout (shader : Shader) (layout : Handle .pipelineLayout) :
    Log.Builds later
      [.create (.renderPass t.renderPassInfo) (.made renderPass.id),
        .create (.framebuffer (t.framebufferInfo renderPass)) (.made framebuffer.id),
        .create (.pipelineLayout shader.pipelineLayoutInfo) (.made layout.id)]
      [layout.object, framebuffer.object, renderPass.object] := by
  have hLayout : Log.Builds ([framebuffer.object, renderPass.object] ++ later)
      [.create (.pipelineLayout shader.pipelineLayoutInfo) (.made layout.id)] [layout.object] :=
    .create rfl nofun nofun
  exact (builds_framebuffer hViews renderPass framebuffer).append hLayout

theorem builds_pipeline (shader : Shader) (vertexLayout : VertexLayout)
    (layout : Handle .pipelineLayout) (pipeline : Handle .pipeline) :
    Log.Builds later
      [.create (.renderPass t.renderPassInfo) (.made renderPass.id),
        .create (.framebuffer (t.framebufferInfo renderPass)) (.made framebuffer.id),
        .create (.pipelineLayout shader.pipelineLayoutInfo) (.made layout.id),
        .create (.pipeline (t.pipelineInfo shader vertexLayout layout renderPass))
          (.made pipeline.id)]
      [pipeline.object, layout.object, framebuffer.object, renderPass.object] := by
  refine (builds_pipelineLayout hViews renderPass framebuffer shader layout).append
    (.create rfl (by simp [Handle.object]) fun b hb => ?_)
  rcases List.mem_cons.mp hb with rfl | hb
  · exact List.mem_cons_self
  · obtain rfl := List.mem_singleton.mp hb
    simp [TargetSet.pipelineInfo]

theorem ends_addPipeline (p : Pass) (shader : Shader) (vertexLayout : VertexLayout)
    (memory : MemoryTable) (h : Host) :
    Ends (p.addPipeline t shader vertexLayout renderPass framebuffer) h
      (fun o log => ∃ layout pipeline,
        o = ⟨some renderPass, some framebuffer, some layout, some pipeline, t.area,
          t.clearValues⟩ ∧
        log = [.create (.pipelineLayout shader.pipelineLayoutInfo) (.made layout.id),
          .create (.pipeline (t.pipelineInfo shader vertexLayout layout renderPass))
            (.made pipeline.id)])
      fun _ log => Log.Reverts later
          ([.create (.renderPass t.renderPassInfo) (.made renderPass.id),
            .create (.framebuffer (t.framebufferInfo renderPass)) (.made framebuffer.id)] ++ log) ∧
        ¬ h.device.script.Obliging memory := by
  refine (Ends.undoing (builds_framebuffer hViews renderPass framebuffer)
    (fun h _ => sent_destroyAll _ h)
    (ends_acquire_reverts _ (.pipelineLayout shader.pipelineLayoutInfo) _ memory h
      nofun nofun)).bind ?_
  rintro layout _ h₁ rfl hSent
  rw [← hSent.script]
  refine (Ends.undoing (builds_pipelineLayout hViews renderPass framebuffer shader layout)
    (fun h _ => sent_destroyAll _ h)
    (ends_acquire_reverts _ (.pipeline (t.pipelineInfo shader vertexLayout layout renderPass)) _
      memory h₁ nofun fun b hb => ?_)).bind ?_
  · rcases List.mem_cons.mp hb with rfl | hb
    · exact List.mem_cons_self
    · obtain rfl := List.mem_singleton.mp hb
      simp [TargetSet.pipelineInfo]
  rintro pipeline _ h₂ rfl -
  exact Ends.pure ⟨layout, pipeline, rfl, rfl⟩

omit renderPass framebuffer in
theorem ends_createObjects {p : Pass} {images : ImageMap} {layout : Option VertexLayout}
    (hTargets : p.bindTargets images = .ok t) (hLayout : p.vertexLayout t = .ok layout)
    (hEmpty : t.isEmpty = false) (memory : MemoryTable) (h : Host) :
    Ends (p.createObjects t layout) h (fun o log => p.Compiled images o log)
      fun _ log => Log.Reverts later log ∧ ¬ h.device.script.Obliging memory := by
  refine (ends_acquire_reverts later (.renderPass t.renderPassInfo) _ memory h nofun nofun).bind ?_
  rintro renderPass _ h₁ rfl hSent₁
  have hPass : Log.Builds later [.create (.renderPass t.renderPassInfo) (.made renderPass.id)]
      [renderPass.object] := .create rfl nofun nofun
  rw [← hSent₁.script]
  refine (Ends.undoing hPass (fun h _ => sent_destroy _ h)
    (ends_acquire_reverts _ (.framebuffer (t.framebufferInfo renderPass)) _ memory h₁
      nofun fun b hb => ?_)).bind ?_
  · rcases List.mem_cons.mp hb with rfl | hb
    · exact List.mem_cons_self
    · obtain ⟨v, hv, rfl⟩ := List.mem_map.mp hb
      exact List.mem_cons_of_mem _ (hViews v hv)
  rintro framebuffer _ h₂ rfl hSent₂
  rw [← hSent₂.script]
  rcases vertexLayout_eq_ok hLayout with ⟨hPipeline, rfl⟩ | ⟨choice, packed, hChoice, rfl, -⟩
  · rw [hPipeline]
    exact Ends.pure (.plain t hTargets hLayout hEmpty renderPass framebuffer)
  · rw [hChoice]
    apply (ends_addPipeline hViews renderPass framebuffer p choice.shader packed memory h₂).mono
    · rintro o log ⟨layout, pipeline, rfl, rfl⟩
      exact .drawing t hTargets choice hChoice packed hLayout hEmpty renderPass framebuffer layout
        pipeline
    · exact fun _ _ hLog => hLog

end Calls

theorem Compiled.builds {p : Pass} {images : ImageMap} {o : PassObjects} {log : List Call}
    {later : List Object} (h : p.Compiled images o log)
    (hViews : ∀ n i, images.get? n = some i → i.view.object ∈ later) :
    Log.Builds later log o.objects := by
  have hBound : ∀ t, p.bindTargets images = .ok t → ∀ v ∈ t.views, v.object ∈ later := by
    intro t hTargets v hv
    obtain ⟨b, hb, rfl⟩ := List.mem_map.mp hv
    obtain ⟨n, hn⟩ := (bindTargets_eq_ok.mp hTargets).image_mem hb
    exact hViews n b.image hn
  cases h with
  | bare t => exact .nil
  | plain t hTargets => exact builds_framebuffer (hBound t hTargets) _ _
  | drawing t hTargets => exact builds_pipeline (hBound t hTargets) _ _ _ _ _ _

theorem Compiled.check {p : Pass} {images : ImageMap} {o : PassObjects} {log : List Call}
    (h : p.Compiled images o log) : ∃ layout, p.check images = .ok layout := by
  cases h with
  | bare t hTargets hLayout | plain t hTargets hLayout | drawing t hTargets _ _ _ hLayout =>
    exact ⟨_, bind_eq_ok.mpr ⟨t, hTargets, hLayout⟩⟩

/-- `later` holds the views of all images that the pass may bind. -/
theorem ends_compile {p : Pass} {images : ImageMap} {later : List Object}
    (hViews : ∀ n i, images.get? n = some i → i.view.object ∈ later) (memory : MemoryTable)
    (h : Host) :
    Ends (p.compile images) h
      (fun o log => p.Compiled images o log)
      fun e log => Log.Reverts later log ∧
        (p.check images = .error e ∨ ¬ h.device.script.Obliging memory) := by
  unfold compile Pass.check
  refine Ends.ofExcept_bind (fun t hTargets => ?_) fun e he =>
    ⟨Log.Builds.nil.undo, .inl (by rw [he]; rfl)⟩
  refine Ends.ofExcept_bind (fun layout hLayout => ?_) fun e he =>
    ⟨Log.Builds.nil.undo, .inl (by rw [hTargets]; exact he)⟩
  have hReported := sent_reportAll (p.packingNotices layout) h
  refine Ends.quietly hReported ?_
  rw [← hReported.script]
  cases hEmpty : t.isEmpty with
  | true =>
    have hNone : p.vertexLayout t = .ok none := by
      rcases vertexLayout_eq_ok hLayout with ⟨-, rfl⟩ | ⟨_, _, -, -, hSome⟩
      · exact hLayout
      · rw [hEmpty] at hSome
        cases hSome
    exact Ends.quietly (sent_report _ _) (Ends.pure (.bare t hTargets hNone hEmpty))
  | false =>
    have hBound : ∀ v ∈ t.views, v.object ∈ later := by
      intro v hv
      obtain ⟨b, hb, rfl⟩ := List.mem_map.mp hv
      obtain ⟨n, hn⟩ := (bindTargets_eq_ok.mp hTargets).image_mem hb
      exact hViews n b.image hn
    refine ((ends_createObjects hBound hTargets hLayout hEmpty memory _).mono_failed
      fun e log hLog => ⟨hLog.1, .inr hLog.2⟩).bind ?_
    intro o log h₁ hCompiled hSent
    exact Ends.quietly (sent_report _ _) (Ends.pure (by simpa using hCompiled))

end Pass

end FrameGraph
