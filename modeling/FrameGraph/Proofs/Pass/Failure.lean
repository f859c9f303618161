import FrameGraph.Proofs.Host.Confinement
import FrameGraph.Proofs.Pass.Compilation

/-! # How a pass fails to compile

Compiling a pass concerns no objects but those of passes. It fails with what its declaration rules
out, or because the device refuses one of its objects.
-/

namespace FrameGraph

set_option autoImplicit false

open Host

/-- The pipeline that a call asks for. -/
def CreateInfo.pipeline? : CreateInfo → Option PipelineInfo
  | .pipeline info => some info
  | _ => none

def Call.pipeline? : Call → Option PipelineInfo
  | .create info _ => info.pipeline?
  | _ => none

namespace PassPart

def kind : PassPart → ObjectKind
  | .renderPass => .renderPass
  | .framebuffer => .framebuffer
  | .pipelineLayout => .pipelineLayout
  | .pipeline => .pipeline

def kinds : List ObjectKind := [.renderPass, .framebuffer, .pipelineLayout, .pipeline]

theorem kind_mem_kinds (part : PassPart) : part.kind ∈ kinds := by
  cases part <;> decide

end PassPart

namespace PassObjects

theorem kind_of_mem_objects {o : PassObjects} {q : Object} (hq : q ∈ o.objects) :
    q.kind ∈ PassPart.kinds := by
  simp only [objects, List.mem_append, List.mem_map] at hq
  rcases hq with ((⟨_, -, rfl⟩ | ⟨_, -, rfl⟩) | ⟨_, -, rfl⟩) | ⟨_, -, rfl⟩
  · exact PassPart.pipeline.kind_mem_kinds
  · exact PassPart.pipelineLayout.kind_mem_kinds
  · exact PassPart.framebuffer.kind_mem_kinds
  · exact PassPart.renderPass.kind_mem_kinds

theorem keepsTo_destroy (o : PassObjects) :
    KeepsTo { calls := Call.Concerns PassPart.kinds } (fun _ => True) o.destroy :=
  .bind (.destroyAll fun _ hq => Call.concerns_destroy (kind_of_mem_objects hq))
    fun _ _ => .pure trivial

end PassObjects

namespace Pass

def Refused (p : Pass) (e : BuildError) : Prop := ∃ part code, e = .refused p.name part code

/-- The call is about objects of passes, and any pipeline is made from the modules of the shader
that the pass draws with. -/
structure Issues (p : Pass) (c : Call) : Prop where
  concerns : c.Concerns PassPart.kinds
  modules : ∀ info, c.pipeline? = some info →
    ∃ choice, p.pipeline = some choice ∧ info.stages = choice.shader.stageInfos

theorem Issues.destroy (p : Pass) {o : Object} (hKind : o.kind ∈ PassPart.kinds) :
    p.Issues (.destroy o) where
  concerns := Call.concerns_destroy hKind
  modules := by
    rintro _ ⟨⟩

/-- Objects are created without a word. -/
def creating (p : Pass) : Scope where
  calls := p.Issues
  notices _ := False
  releases := False

theorem confined_acquire (p : Pass) {info : CreateInfo} (part : PassPart)
    (hKind : info.kind = part.kind)
    (hModules : ∀ pipeline, info.pipeline? = some pipeline →
      ∃ choice, p.pipeline = some choice ∧ pipeline.stages = choice.shader.stageInfos) :
    Confined p.creating p.Refused (acquire info (.refused p.name part)) := by
  have hConcerns : info.kind ∈ PassPart.kinds := hKind ▸ part.kind_mem_kinds
  exact .acquire (fun outcome => ⟨Call.concerns_create hConcerns outcome, hModules⟩)
    (fun _ => .destroy p hConcerns) fun code => ⟨part, code, rfl⟩

theorem confined_addPipeline (p : Pass) (t : TargetSet) {choice : PipelineChoice}
    (hChoice : p.pipeline = some choice) (vertexLayout : VertexLayout)
    (renderPass : Handle .renderPass) (framebuffer : Handle .framebuffer) :
    Confined p.creating p.Refused
      (p.addPipeline t choice.shader vertexLayout renderPass framebuffer) := by
  refine .bind (.cleaningUp (.destroyAll fun o ho => .destroy p ?_)
    (p.confined_acquire _ rfl (by rintro _ ⟨⟩))) fun layout => ?_
  · revert o
    simp [Handle.object, PassPart.kinds]
  refine .bind (.cleaningUp (.destroyAll fun o ho => .destroy p ?_)
    (p.confined_acquire _ rfl ?_)) fun _ => .pure _
  · revert o
    simp [Handle.object, PassPart.kinds]
  · rintro _ ⟨⟩
    exact ⟨choice, hChoice, rfl⟩

theorem confined_createObjects (p : Pass) (t : TargetSet) (vertexLayout : Option VertexLayout) :
    Confined p.creating p.Refused (p.createObjects t vertexLayout) := by
  refine .bind (p.confined_acquire _ rfl (by rintro _ ⟨⟩)) fun renderPass => ?_
  refine .bind (.cleaningUp (.destroy (.destroy p ?_))
    (p.confined_acquire _ rfl (by rintro _ ⟨⟩))) fun framebuffer => ?_
  · exact PassPart.renderPass.kind_mem_kinds
  split
  · exact p.confined_addPipeline t ‹_› _ renderPass framebuffer
  · exact .pure _

/-- Why the pass cannot be compiled with the error. -/
def Fails (p : Pass) (images : ImageMap) (e : BuildError) : Prop :=
  p.check images = .error e ∨ p.Refused e

theorem confined_compile (p : Pass) (images : ImageMap) :
    Confined { calls := p.Issues, releases := False } (p.Fails images) (p.compile images) := by
  have hScope : p.creating.Within { calls := p.Issues, releases := False } :=
    ⟨fun _ hCall => hCall, fun _ _ => trivial, False.elim⟩
  refine .ofExcept_bind (fun t hTargets => ?_) fun e he => .inl (by rw [check, he]; rfl)
  refine .ofExcept_bind (fun layout hLayout => ?_) fun e he =>
    .inl (by rw [check, hTargets]; exact he)
  refine .always_bind (.reportAll fun _ _ => trivial) fun _ _ => ?_
  split
  · exact .always_bind (.report trivial) fun _ _ => .pure _
  · refine .bind (((p.confined_createObjects t layout).mono fun _ => .inr).widen hScope)
      fun _ => ?_
    exact .always_bind (.report trivial) fun _ _ => .pure _

/-- What is wrong with the declaration is found before anything is done. -/
theorem run_compile_of_check_error {p : Pass} {images : ImageMap} {e : BuildError}
    (hCheck : p.check images = .error e) (h : Host) :
    (p.compile images).run.run h = (.error e, h) := by
  rw [compile, run_bind]
  obtain hTargets | ⟨t, hTargets, hLayout⟩ := Traversal.bind_eq_error.mp hCheck
  · rw [hTargets]
    rfl
  · rw [hTargets]
    change (ofExcept (p.vertexLayout t) >>= _).run.run h = _
    rw [run_bind, hLayout]
    rfl

end Pass

end FrameGraph
