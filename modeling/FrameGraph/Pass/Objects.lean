import FrameGraph.Host
import FrameGraph.Pass.Targets
import FrameGraph.Text

/-! # Objects of a pass

What a pass needs on the device: a render pass and a framebuffer for its targets, and a pipeline
with its layout if it declares one. Requests that no configuration can satisfy are refused before
anything is created, and when the device refuses a request, what was created before is destroyed.
-/

namespace FrameGraph

set_option autoImplicit false

structure PassObjects where
  renderPass : Option (Handle .renderPass)
  framebuffer : Option (Handle .framebuffer)
  pipelineLayout : Option (Handle .pipelineLayout)
  pipeline : Option (Handle .pipeline)
  area : Area
  clearValues : List ClearValue
  deriving DecidableEq

namespace PassObjects

def bare (t : TargetSet) : PassObjects := ⟨none, none, none, none, t.area, t.clearValues⟩

/-- The objects in the order in which they are destroyed. -/
def objects (o : PassObjects) : List Object :=
  o.pipeline.toList.map Handle.object ++ o.pipelineLayout.toList.map Handle.object ++
    o.framebuffer.toList.map Handle.object ++ o.renderPass.toList.map Handle.object

def cleared (o : PassObjects) : PassObjects :=
  { o with renderPass := none, framebuffer := none, pipelineLayout := none, pipeline := none }

/-- Destroys the objects. Afterwards there is nothing left to destroy. -/
def destroy (o : PassObjects) : HostM PassObjects := do
  Host.destroyAll o.objects
  return o.cleared

def handleText {kind : ObjectKind} (h : Option (Handle kind)) : String :=
  Radix.hex (match h with
    | some handle => handle.id
    | none => Handle.absentId)

def areaText (a : Area) : String :=
  Record.record "Rect2D"
    [("offset", Record.record "Offset2D" [("x", toString a.x), ("y", toString a.y)]),
      ("extent",
        Record.record "Extent2D"
          [("width", toString a.extent.width), ("height", toString a.extent.height)])]

def text (o : PassObjects) : String :=
  Record.record "CompiledPass"
    [("render_pass", handleText o.renderPass), ("pipeline", handleText o.pipeline),
      ("pipeline_layout", handleText o.pipelineLayout), ("render_area", areaText o.area),
      ("framebuffer", handleText o.framebuffer),
      ("clear_values", toString o.clearValues.length)]

end PassObjects

/-! ## Requests -/

/-- The dependencies of every render pass: earlier reads come before its writes, and its writes
come before later reads. -/
def renderPassDependencies (hasDepth : Bool) : List Dependency :=
  let stages :=
    if hasDepth then Stages.colorOutput.union ImageState.depthTarget.stages
    else Stages.colorOutput
  let writes :=
    if hasDepth then Accesses.colorWrite.union .depthWrite else Accesses.colorWrite
  [{ source := .outside
     target := .inside 0
     sourceStages := stages
     targetStages := stages
     sourceAccesses := .memoryRead
     targetAccesses := writes },
    { source := .inside 0
      target := .outside
      sourceStages := stages
      targetStages := .bottomOfPipe
      sourceAccesses := writes
      targetAccesses := .memoryRead }]

namespace TargetSet

def subpass (t : TargetSet) : Subpass where
  colors := t.colorReferences
  depth := t.depthReference

def renderPassInfo (t : TargetSet) : RenderPassInfo where
  targets := t.descriptions
  subpasses := [t.subpass]
  dependencies := renderPassDependencies t.depthReference.isSome

def framebufferInfo (t : TargetSet) (renderPass : Handle .renderPass) : FramebufferInfo where
  renderPass := renderPass
  views := t.views
  extent := t.extent

def colorBlending (t : TargetSet) : ColorBlending where
  targets := t.colorReferences.map fun _ => {}

end TargetSet

namespace Shader

def stageInfos (s : Shader) : List StageInfo :=
  [{ stage := .vertex, shaderModule := s.vertexModule },
    { stage := .fragment, shaderModule := s.fragmentModule }]

def pipelineLayoutInfo (s : Shader) : PipelineLayoutInfo where
  setLayouts := s.setLayout.toList

end Shader

/-! ## Creation -/

namespace Pass

/-- Creates the pipeline of a pass with its layout. The objects that are there already are
destroyed if that fails. -/
def addPipeline (p : Pass) (t : TargetSet) (shader : Shader) (vertexLayout : VertexLayout)
    (renderPass : Handle .renderPass) (framebuffer : Handle .framebuffer) :
    HostE BuildError PassObjects := do
  let layout : Handle .pipelineLayout ←
    Host.cleaningUp (Host.destroyAll [framebuffer.object, renderPass.object])
      (Host.acquire (.pipelineLayout shader.pipelineLayoutInfo) (.refused p.name .pipelineLayout))
  let info : PipelineInfo :=
    { stages := shader.stageInfos
      vertexLayout := vertexLayout
      colorBlending := t.colorBlending
      layout := layout
      renderPass := renderPass }
  let pipeline : Handle .pipeline ←
    Host.cleaningUp
      (Host.destroyAll [layout.object, framebuffer.object, renderPass.object])
      (Host.acquire (.pipeline info) (.refused p.name .pipeline))
  return ⟨some renderPass, some framebuffer, some layout, some pipeline, t.area, t.clearValues⟩

def createObjects (p : Pass) (t : TargetSet) (vertexLayout : Option VertexLayout) :
    HostE BuildError PassObjects := do
  let renderPass : Handle .renderPass ←
    Host.acquire (.renderPass t.renderPassInfo) (.refused p.name .renderPass)
  let framebuffer : Handle .framebuffer ←
    Host.cleaningUp (Host.destroy renderPass.object)
      (Host.acquire (.framebuffer (t.framebufferInfo renderPass)) (.refused p.name .framebuffer))
  match p.pipeline, vertexLayout with
  | some choice, some layout => p.addPipeline t choice.shader layout renderPass framebuffer
  | _, _ =>
    return ⟨some renderPass, some framebuffer, none, none, t.area, t.clearValues⟩

def compile (p : Pass) (images : ImageMap) : HostE BuildError PassObjects := do
  let targets ← Host.ofExcept (p.bindTargets images)
  let vertexLayout ← Host.ofExcept (p.vertexLayout targets)
  Host.always (Host.reportAll (p.packingNotices vertexLayout))
  if targets.isEmpty then
    Host.always (Host.report (.passHasNoTargets p.name))
    return .bare targets
  else
    let objects ← p.createObjects targets vertexLayout
    Host.always
      (Host.report
        (.passCompiled p.name targets.all.length targets.extent objects.pipeline.isSome))
    return objects

/-! ## Passes as owners of shaders -/

def drop (p : Pass) : HostM Unit := p.pipeline.forM fun c => c.shader.release

/-- Declares one more step of a pass that owns its shader. A new shader is taken before the
earlier one is let go. -/
def declareOwned (p : Pass) (d : Declaration Shader) : HostM Pass := do
  match d with
  | .pipeline shader _ =>
    shader.retain
    p.drop
  | _ => pure ()
  return p.declare d

def ofDeclarationsOwned (name : String) (steps : List (Declaration Shader)) : HostM Pass :=
  steps.foldlM declareOwned { name := name }

end Pass

end FrameGraph
