import FrameGraph.Graph.Basic

/-! # Recording a frame

The commands of a node: barriers for the inputs that need one, then its render pass with the
viewport, the scissor and the pipeline, and in it the hook of the application. A frame is the
commands of all nodes in order. At last the output is copied into an image of the surface, which is
then ready to be shown.
-/

namespace FrameGraph

set_option autoImplicit false

namespace Hook

def ran (k : Hook) : Hook := { k with runs := k.runs + 1 }

/-- The hook is shown the objects of its pass, and draws one triangle if there is a pipeline to
draw it with. -/
def commands (k : Hook) (o : PassObjects) : List Command :=
  .hook
    { tag := k.tag
      runs := k.ran.runs
      renderPass := o.renderPass
      pipeline := o.pipeline
      area := o.area } ::
    (if o.pipeline.isSome then [.draw 3 1] else [])

end Hook

namespace PassObjects

def opening (o : PassObjects) : List Command :=
  match o.renderPass with
  | none => []
  | some renderPass =>
    [.beginRenderPass
        { renderPass := renderPass
          framebuffer := o.framebuffer
          area := o.area
          clearValues := o.clearValues },
      .setViewports 0 [o.area.viewport], .setScissors 0 [o.area]] ++
      o.pipeline.toList.map (.bindPipeline graphicsBindPoint)

def closing (o : PassObjects) : List Command :=
  match o.renderPass with
  | none => []
  | some _ => [.endRenderPass]

end PassObjects

namespace Node

def barriers (images : ImageMap) (n : Node) : List Command :=
  n.pendingInputs.filterMap fun u =>
    (images.get? u.name).map fun i => i.transition u.initial .shaderRead

def hookCommands (n : Node) : List Command := n.hook.toList.flatMap fun k => k.commands n.objects

def commands (images : ImageMap) (n : Node) : List Command :=
  n.barriers images ++ n.objects.opening ++ n.hookCommands ++ n.objects.closing

def notices (images : ImageMap) (n : Node) : List Notice :=
  (n.pendingInputs.filter fun u => !images.contains u.name).map fun u => .foreignInput n.name u.name

def ran (n : Node) : Node := { n with hook := n.hook.map Hook.ran }

end Node

namespace Graph

def commands (g : Graph) : List Command := g.nodes.flatMap (Node.commands g.images)

def notices (g : Graph) : List Notice := g.nodes.flatMap (Node.notices g.images)

def ran (g : Graph) : Graph := { g with nodes := g.nodes.map Node.ran }

def execute (g : Graph) (buffer : CommandBuffer) : HostM Graph := do
  Host.reportAll g.notices
  Host.recordAll buffer g.commands
  return g.ran

end Graph

/-! ## Showing the output -/

namespace Image

/-- Copies the part that two images share. -/
def copyTo (source target : Image) : Command :=
  .copyImage
    { source := source.handle
      sourceLayout := ImageState.copySource.layout
      target := target.handle
      targetLayout := ImageState.copyTarget.layout
      regions := [{ extent := source.extent.overlap target.extent }] }

/-- Hands an image that was copied into over to the surface. -/
def handOver (target : Image) : Command :=
  .barrier
    { sourceStages := ImageState.copyTarget.stages
      targetStages := .bottomOfPipe
      images :=
        [{ ImageBarrier.between target.handle .color .copyTarget .unknown with
            targetAccesses := .memoryRead
            after := .presentable }] }

/-- Copies an image in a known state to an image of the surface, whose earlier contents are not
needed. -/
def presentCommands (output : Image) (state : ImageState) (target : Image) : List Command :=
  [output.transition state .copySource, target.transition .unknown .copyTarget,
    output.copyTo target, target.handOver]

end Image

def ImageState.presentText (state : ImageState) : String :=
  Record.record "PresentStep" [("output_state", state.text)]

namespace Graph

/-- The image that is shown, unless the graph was drafted without one. -/
def outputImage? (g : Graph) : Option Image := g.images.get? g.output

def present (g : Graph) (buffer : CommandBuffer) (target : Image) : HostM Unit :=
  match g.outputImage? with
  | some output => Host.recordAll buffer (output.presentCommands g.outputState target)
  | none => Host.report .nothingToPresent

end Graph

end FrameGraph
