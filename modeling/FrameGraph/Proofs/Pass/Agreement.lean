import FrameGraph.Proofs.Name.Map
import FrameGraph.Proofs.Pass.Binding
import FrameGraph.Proofs.Pass.Failure

/-! # Objects of a pass that go together

What is wrong with the declaration of a pass is found before the device is called. The objects of a
pass are made from one list of targets, so that their parts match in number and in order, and each
object refers to those made just before it.
-/

namespace FrameGraph

set_option autoImplicit false

open Host Traversal

/-! ## Requests -/

def Stages.includes (a b : Stages) : Bool := a.bits &&& b.bits == b.bits

def Accesses.includes (a b : Accesses) : Bool := a.bits &&& b.bits == b.bits

/-- The stages and the writes of a dependency are those of a depth target as well, or none of them
is. -/
structure Dependency.Depth (stages : Stages) (writes : Accesses) (hasDepth : Bool) : Prop where
  early : stages.includes .earlyDepthTests = hasDepth
  late : stages.includes .lateDepthTests = hasDepth
  writes : writes.includes .depthWrite = hasDepth

namespace Subpass

def references (s : Subpass) : List TargetReference := s.colors ++ s.depth.toList

/-- The subpass refers to each of the given number of targets once, to the depth target as the
last one. -/
structure Covers (s : Subpass) (count : Nat) : Prop where
  distinct : (s.references.map TargetReference.index).Nodup
  below : ∀ r ∈ s.references, r.index < count
  covering : ∀ k < count, ∃ r ∈ s.references, r.index = k
  depthLast : ∀ r ∈ s.depth, r.index + 1 = count

end Subpass

/-- One dependency on what comes before the subpass and one of what comes after it. Both are about
depth exactly if there is a depth target. -/
inductive Dependency.Guard (hasDepth : Bool) : List Dependency → Prop
  | mk {enter leave : Dependency} (hEnter : enter.source = .outside ∧ enter.target = .inside 0)
      (hLeave : leave.source = .inside 0 ∧ leave.target = .outside)
      (hEarlier : Depth enter.sourceStages enter.targetAccesses hasDepth)
      (hDrawing : Depth enter.targetStages enter.targetAccesses hasDepth)
      (hDrawn : Depth leave.sourceStages leave.sourceAccesses hasDepth) :
      Guard hasDepth [enter, leave]

structure RenderPassInfo.Uses (info : RenderPassInfo) (s : Subpass) : Prop where
  subpasses : info.subpasses = [s]
  covers : s.Covers info.targets.length
  dependencies : Dependency.Guard s.depth.isSome info.dependencies

/-- There is a view and a clear value for each target of the render pass. -/
structure FramebufferInfo.Matches (info : FramebufferInfo) (targets : RenderPassInfo)
    (renderPass : Handle .renderPass) (clearValues : List ClearValue) : Prop where
  renderPass : info.renderPass = renderPass
  views : info.views.length = targets.targets.length
  clearValues : clearValues.length = targets.targets.length

structure PipelineInfo.Matches (info : PipelineInfo) (s : Subpass)
    (layout : Handle .pipelineLayout) (renderPass : Handle .renderPass) : Prop where
  layout : info.layout = layout
  renderPass : info.renderPass = renderPass
  blending : info.colorBlending.targets.length = s.colors.length

namespace TargetSet

variable (t : TargetSet)

theorem references_index :
    t.subpass.references.map TargetReference.index = List.range t.all.length := by
  have hColors : t.colorReferences.map TargetReference.index = List.range t.colors.length := by
    rw [colorReferences, List.map_map]
    exact List.map_id _
  rw [Subpass.references, List.map_append, subpass, hColors, all, List.length_append]
  cases hDepth : t.depth with
  | none => simp [depthReference, hDepth]
  | some b => simp [depthReference, hDepth, List.range_succ]

theorem subpass_covers : t.subpass.Covers t.all.length := by
  have hIndex := t.references_index
  refine ⟨?_, fun r hr => ?_, fun k hk => ?_, fun r hr => ?_⟩
  · rw [hIndex]
    exact List.nodup_range
  · have hMem : r.index ∈ t.subpass.references.map TargetReference.index :=
      List.mem_map_of_mem hr
    rw [hIndex] at hMem
    exact List.mem_range.mp hMem
  · have hMem := List.mem_range.mpr hk
    rw [← hIndex] at hMem
    exact List.mem_map.mp hMem
  · obtain ⟨b, hb, rfl⟩ := Option.map_eq_some_iff.mp hr
    simp [all, hb]

theorem guard_dependencies (hasDepth : Bool) :
    Dependency.Guard hasDepth (renderPassDependencies hasDepth) := by
  apply Dependency.Guard.mk ⟨rfl, rfl⟩ ⟨rfl, rfl⟩
  · cases hasDepth <;> exact ⟨by decide, by decide, by decide⟩
  · cases hasDepth <;> exact ⟨by decide, by decide, by decide⟩
  · cases hasDepth <;> exact ⟨by decide, by decide, by decide⟩

theorem renderPassInfo_uses : t.renderPassInfo.Uses t.subpass := by
  refine ⟨rfl, ?_, guard_dependencies _⟩
  simpa [renderPassInfo, descriptions] using t.subpass_covers

theorem framebufferInfo_matches (renderPass : Handle .renderPass) :
    (t.framebufferInfo renderPass).Matches t.renderPassInfo renderPass t.clearValues := by
  constructor <;> simp [framebufferInfo, renderPassInfo, views, descriptions, clearValues]

theorem pipelineInfo_matches (shader : Shader) (vertexLayout : VertexLayout)
    (layout : Handle .pipelineLayout) (renderPass : Handle .renderPass) :
    (t.pipelineInfo shader vertexLayout layout renderPass).Matches t.subpass layout renderPass := by
  constructor <;> simp [pipelineInfo, colorBlending, subpass]

end TargetSet

namespace Pass

/-! ## What the declaration rules out -/

/-- What is wrong with the declaration of the pass. A name without an image is seen first. -/
inductive Misdeclared (p : Pass) (images : ImageMap) : BuildError → Prop
  | missing {n : Name} (hFirst : images.firstMissing? p.neededNames = some n) :
      Misdeclared p images (.missingImage p.name n)
  | rejected (hImages : images.firstMissing? p.neededNames = none) {e : BuildError}
      (hRejects : p.Rejects e) : Misdeclared p images e

variable {p : Pass} {images : ImageMap}

theorem check_eq_misdeclared {e : BuildError} :
    p.check images = .error e ↔ p.Misdeclared images e := by
  cases hFirst : images.firstMissing? p.neededNames with
  | none =>
    rw [check_eq_error (covered_iff.mpr hFirst)]
    constructor
    · exact .rejected hFirst
    · rintro (hMissing | ⟨-, hRejects⟩)
      · cases hFirst.symm.trans hMissing
      · exact hRejects
  | some n =>
    rw [check, bindTargets_eq_error hFirst]
    constructor
    · rintro ⟨⟩
      exact .missing hFirst
    · rintro (hMissing | ⟨hNone, -⟩)
      · cases hFirst.symm.trans hMissing
        rfl
      · cases hFirst.symm.trans hNone

theorem exists_rejects_iff : (∃ e, p.Rejects e) ↔ (p.pipeline ≠ none ∧ ¬ p.HasTarget) ∨
    ∃ choice e, p.pipeline = some choice ∧
      VertexLayout.pack choice.shader.attributes choice.bindings = .error e := by
  constructor
  · rintro ⟨_, ⟨hPipeline, hTarget⟩ | ⟨choice, hPipeline, -, e, hPack⟩⟩
    · exact .inl ⟨hPipeline, hTarget⟩
    · exact .inr ⟨choice, e, hPipeline, hPack⟩
  · rintro (⟨hPipeline, hTarget⟩ | ⟨choice, e, hPipeline, hPack⟩)
    · exact ⟨_, .noTargets hPipeline hTarget⟩
    · by_cases hTarget : p.HasTarget
      · exact ⟨_, .packing choice hPipeline hTarget e hPack⟩
      · exact ⟨_, .noTargets (by simp [hPipeline]) hTarget⟩

theorem exists_misdeclared_iff : (∃ e, p.Misdeclared images e) ↔
    (∃ n ∈ p.neededNames, images.get? n = none) ∨ (p.pipeline ≠ none ∧ ¬ p.HasTarget) ∨
      ∃ choice e, p.pipeline = some choice ∧
        VertexLayout.pack choice.shader.attributes choice.bindings = .error e := by
  rw [← exists_rejects_iff]
  constructor
  · rintro ⟨_, hFirst | ⟨-, hRejects⟩⟩
    · exact .inl ⟨_, List.mem_of_find?_eq_some hFirst, get?_of_firstMissing? hFirst⟩
    · exact .inr ⟨_, hRejects⟩
  · intro hFault
    cases hFirst : images.firstMissing? p.neededNames with
    | some n => exact ⟨_, .missing hFirst⟩
    | none =>
      obtain ⟨n, hn, hNone⟩ | ⟨e, hRejects⟩ := hFault
      · obtain ⟨i, hi⟩ := ImageMap.firstMissing?_eq_none.mp hFirst n hn
        cases hNone.symm.trans hi
      · exact ⟨e, .rejected hFirst hRejects⟩

/-! ## What is made for the pass -/

/-- The objects of the pass and the calls that made them, each of which takes up what those before
it have made. -/
inductive Makes (p : Pass) : PassObjects → List Call → Prop
  | nothing {o : PassObjects} (hTarget : ¬ p.HasTarget) (hPipeline : p.pipeline = none)
      (hObjects : o.objects = []) (hClear : o.clearValues = []) : Makes p o []
  | targets {targets : RenderPassInfo} {s : Subpass} {binding : FramebufferInfo}
      {renderPass : Handle .renderPass} {framebuffer : Handle .framebuffer} {area : Area}
      {clearValues : List ClearValue} (hTarget : p.HasTarget) (hPipeline : p.pipeline = none)
      (hTargets : targets.Uses s) (hBinding : binding.Matches targets renderPass clearValues) :
      Makes p ⟨some renderPass, some framebuffer, none, none, area, clearValues⟩
        [.create (.renderPass targets) (.made renderPass.id),
          .create (.framebuffer binding) (.made framebuffer.id)]
  | drawing {targets : RenderPassInfo} {s : Subpass} {binding : FramebufferInfo}
      {resources : PipelineLayoutInfo} {work : PipelineInfo} {renderPass : Handle .renderPass}
      {framebuffer : Handle .framebuffer} {layout : Handle .pipelineLayout}
      {pipeline : Handle .pipeline} {area : Area} {clearValues : List ClearValue}
      (hTarget : p.HasTarget) (hPipeline : p.pipeline ≠ none) (hTargets : targets.Uses s)
      (hBinding : binding.Matches targets renderPass clearValues)
      (hWork : work.Matches s layout renderPass) :
      Makes p ⟨some renderPass, some framebuffer, some layout, some pipeline, area, clearValues⟩
        [.create (.renderPass targets) (.made renderPass.id),
          .create (.framebuffer binding) (.made framebuffer.id),
          .create (.pipelineLayout resources) (.made layout.id),
          .create (.pipeline work) (.made pipeline.id)]

theorem pipeline_eq_none {t : TargetSet} (hLayout : p.vertexLayout t = .ok none) :
    p.pipeline = none := by
  obtain ⟨hPipeline, -⟩ | ⟨_, _, -, hSome, -⟩ := vertexLayout_eq_ok hLayout
  · exact hPipeline
  · cases hSome

theorem hasTarget_of_binds {t : TargetSet} (hTargets : p.bindTargets images = .ok t)
    (hEmpty : t.isEmpty = false) : p.HasTarget := by
  by_contra hTarget
  rw [(bindTargets_eq_ok.mp hTargets).isEmpty_iff.mpr hTarget] at hEmpty
  cases hEmpty

theorem Compiled.makes {o : PassObjects} {log : List Call} (h : p.Compiled images o log) :
    p.Makes o log := by
  cases h with
  | bare t hTargets hLayout hEmpty =>
    have hTarget := (bindTargets_eq_ok.mp hTargets).isEmpty_iff.mp hEmpty
    have hAll : t.all = [] := List.isEmpty_iff.mp hEmpty
    exact .nothing hTarget (pipeline_eq_none hLayout) rfl
      (by simp [PassObjects.bare, TargetSet.clearValues, hAll])
  | plain t hTargets hLayout hEmpty =>
    exact .targets (hasTarget_of_binds hTargets hEmpty) (pipeline_eq_none hLayout)
      t.renderPassInfo_uses (t.framebufferInfo_matches _)
  | drawing t hTargets choice hChoice vertexLayout hLayout hEmpty =>
    exact .drawing (hasTarget_of_binds hTargets hEmpty) (by simp [hChoice])
      t.renderPassInfo_uses (t.framebufferInfo_matches _) (t.pipelineInfo_matches _ _ _ _)

/-- A pass with something wrong in its declaration is refused without a call, with what is seen
first. If nothing is wrong with it, then either its objects are made and agree with each other, or
the device has refused one of them. -/
theorem compile_agrees (p : Pass) (images : ImageMap) (h : Host) :
    ∃ log, Sent h ((p.compile images).run.run h).2 log ∧
      ((∃ e, p.Misdeclared images e) ↔
        (∃ n ∈ p.neededNames, images.get? n = none) ∨ (p.pipeline ≠ none ∧ ¬ p.HasTarget) ∨
          ∃ choice e, p.pipeline = some choice ∧
            VertexLayout.pack choice.shader.attributes choice.bindings = .error e) ∧
      (∀ e, p.Misdeclared images e →
        ((p.compile images).run.run h).1 = .error e ∧ log = []) ∧
      match ((p.compile images).run.run h).1 with
      | .ok o => p.Makes o log
      | .error e => p.Misdeclared images e ∨ p.Refused e := by
  have hViews : ∀ n i, images.get? n = some i →
      i.view.object ∈ images.values.map fun i => i.view.object := fun n i hImage =>
    List.mem_map_of_mem (List.mem_map_of_mem (NameMap.get?_eq_some.mp hImage))
  have hFailed : ∀ e, ((p.compile images).run.run h).1 = .error e →
      p.Misdeclared images e ∨ p.Refused e := fun e hError =>
    ((p.confined_compile images).error hError).imp_left check_eq_misdeclared.mp
  obtain ⟨log, hSent, hEnd⟩ := ends_compile hViews default h
  refine ⟨log, hSent, exists_misdeclared_iff, fun e hFails => ?_, ?_⟩
  · have hRun := run_compile_of_check_error (check_eq_misdeclared.mpr hFails) h
    rw [hRun] at hSent
    exact ⟨congrArg Prod.fst hRun, hSent.unique (.refl h)⟩
  · cases hResult : ((p.compile images).run.run h).1 with
    | ok o =>
      rw [hResult] at hEnd
      exact hEnd.makes
    | error e => exact hFailed e hResult

end Pass

end FrameGraph
