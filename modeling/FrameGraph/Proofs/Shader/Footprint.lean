import FrameGraph.Proofs.Plan.Confinement
import FrameGraph.Proofs.Shader.Release

/-! # What work does with shader modules

Compiling passes and building graphs reads the modules of the shaders that are drawn with. It
neither makes nor destroys any, and leaves the owners of shaders as they are.
-/

namespace FrameGraph

set_option autoImplicit false

open Host

/-- The call makes and destroys no shader modules, and a pipeline is made from those of one of the
shaders. -/
structure Call.UsesOnly (shaders : List Shader) (c : Call) : Prop where
  made : ∀ o ∈ c.made, o.kind ≠ .shaderModule
  destroyed : ∀ o ∈ c.destroyed, o.kind ≠ .shaderModule
  pipelines : ∀ info, c.pipeline? = some info → ∃ s ∈ shaders, info.stages = s.stageInfos

/-- The shader that the pass draws with. -/
def Pass.shaders (p : Pass) : List Shader := p.pipeline.toList.map PipelineChoice.shader

theorem Pass.mem_shaders {p : Pass} {choice : PipelineChoice} (h : p.pipeline = some choice) :
    choice.shader ∈ p.shaders := by
  rw [shaders, h]
  exact List.mem_singleton_self _

namespace Call

theorem kind_of_mem_made {c : Call} {o : Object} (ho : o ∈ c.made) : c.kind? = some o.kind := by
  cases c with
  | create info outcome =>
    rcases outcome with id | ⟨code, _ | id⟩
    · rw [List.mem_singleton.mp ho]
      rfl
    · cases ho
    · rw [List.mem_singleton.mp ho]
      rfl
  | _ => cases ho

theorem kind_of_mem_destroyed {c : Call} {o : Object} (ho : o ∈ c.destroyed) :
    c.kind? = some o.kind := by
  cases c with
  | destroy q =>
    rw [List.mem_singleton.mp ho]
    rfl
  | _ => cases ho

theorem kind_of_pipeline {c : Call} {info : PipelineInfo} (hInfo : c.pipeline? = some info) :
    c.kind? = some .pipeline := by
  cases c with
  | create request outcome =>
    cases request with
    | pipeline _ => rfl
    | _ => cases hInfo
  | _ => cases hInfo

/-- Calls about other objects than modules use no modules unless they ask for a pipeline. -/
theorem Concerns.usesOnly {kinds : List ObjectKind} {c : Call} (h : c.Concerns kinds)
    (hKinds : .shaderModule ∉ kinds) {shaders : List Shader}
    (hPipelines : ∀ info, c.pipeline? = some info → ∃ s ∈ shaders, info.stages = s.stageInfos) :
    c.UsesOnly shaders where
  made _ ho hKind := hKinds (h _ (hKind ▸ kind_of_mem_made ho))
  destroyed _ ho hKind := hKinds (h _ (hKind ▸ kind_of_mem_destroyed ho))
  pipelines := hPipelines

/-- Calls about neither modules nor pipelines use no modules. -/
theorem Concerns.usesNone {kinds : List ObjectKind} {c : Call} (h : c.Concerns kinds)
    (hKinds : .shaderModule ∉ kinds) (hPipeline : .pipeline ∉ kinds) (shaders : List Shader) :
    c.UsesOnly shaders :=
  h.usesOnly hKinds fun _ hInfo => absurd (h _ (kind_of_pipeline hInfo)) hPipeline

end Call

theorem Pass.Issues.usesOnly {p : Pass} {c : Call} (h : p.Issues c) {shaders : List Shader}
    (hShaders : p.shaders ⊆ shaders) : c.UsesOnly shaders := by
  refine h.concerns.usesOnly (by decide) fun info hInfo => ?_
  obtain ⟨choice, hChoice, hStages⟩ := h.modules info hInfo
  exact ⟨choice.shader, hShaders (Pass.mem_shaders hChoice), hStages⟩

theorem Plan.usesOnly_of_scope {p : Plan} {c : Call} (h : p.scope.calls c) {shaders : List Shader}
    (hShaders : p.passes.flatMap Pass.shaders ⊆ shaders) : c.UsesOnly shaders := by
  rcases h with hConcerns | ⟨q, hq, hIssues⟩
  · exact hConcerns.usesNone (by decide) (by decide) shaders
  · exact hIssues.usesOnly fun s hs => hShaders (List.mem_flatMap.mpr ⟨q, hq, hs⟩)

namespace Log

/-! Objects of all kinds are made and destroyed, but here only shader modules count. -/

def madeModules (log : List Call) : List Object :=
  (made log).filter fun o => o.kind = .shaderModule

def destroyedModules (log : List Call) : List Object :=
  (destroyed log).filter fun o => o.kind = .shaderModule

@[simp] theorem madeModules_append (log next : List Call) :
    madeModules (log ++ next) = madeModules log ++ madeModules next := by
  rw [madeModules, made_append, List.filter_append, madeModules, madeModules]

@[simp] theorem destroyedModules_append (log next : List Call) :
    destroyedModules (log ++ next) = destroyedModules log ++ destroyedModules next := by
  rw [destroyedModules, destroyed_append, List.filter_append, destroyedModules, destroyedModules]

theorem count_destroyedModules (log : List Call) {o : Object} (hKind : o.kind = .shaderModule) :
    (destroyedModules log).count o = (destroyed log).count o :=
  List.count_filter (by simpa using hKind)

theorem madeModules_of_uses {shaders : List Shader} {log : List Call}
    (h : ∀ c ∈ log, c.UsesOnly shaders) : madeModules log = [] := by
  refine List.filter_eq_nil_iff.mpr fun o ho => ?_
  obtain ⟨c, hc, ho⟩ := List.mem_flatMap.mp ho
  simpa using (h c hc).made o ho

theorem destroyedModules_of_uses {shaders : List Shader} {log : List Call}
    (h : ∀ c ∈ log, c.UsesOnly shaders) : destroyedModules log = [] := by
  refine List.filter_eq_nil_iff.mpr fun o ho => ?_
  obtain ⟨c, hc, ho⟩ := List.mem_flatMap.mp ho
  simpa using (h c hc).destroyed o ho

theorem madeModules_destroys (os : List Object) : madeModules (os.map .destroy) = [] := by
  rw [madeModules, made_destroys, List.filter_nil]

theorem destroyedModules_destroys {os : List Object} (h : ∀ o ∈ os, o.kind = .shaderModule) :
    destroyedModules (os.map .destroy) = os := by
  rw [destroyedModules, destroyed_destroys, List.filter_eq_self]
  simpa using h

end Log

end FrameGraph
