import FrameGraph.Device.Call
import FrameGraph.Name
import FrameGraph.Text

/-! # Images

An image with its view. An image that was created here owns its memory and goes with it; any
other image belongs to someone else and is only referred to.
-/

namespace FrameGraph

set_option autoImplicit false

structure Image where
  name : Name
  extent : Extent
  format : Format
  usage : ImageUsage
  aspect : Aspect
  handle : Handle .image
  view : Handle .imageView
  memory : Option (Handle .memory)
  deriving DecidableEq

namespace Image

/-- An image of someone else, such as the surface image of the current frame. -/
def foreign (name : Name) (handle : Handle .image) (view : Handle .imageView) (extent : Extent)
    (format : Format) : Image where
  name := name
  extent := extent
  format := format
  usage := .copyTarget
  aspect := .color
  handle := handle
  view := view
  memory := none

def isOwned (i : Image) : Bool := i.memory.isSome

/-- The objects that go with the image, in the order in which they are destroyed. -/
def objects (i : Image) : List Object :=
  match i.memory with
  | none => []
  | some memory => [i.view.object, i.handle.object, memory.object]

def range (i : Image) : ImageRange := { aspect := i.aspect }

def text (i : Image) : String :=
  Record.record "Image"
    [("name", Quoted.encode i.name.text), ("width", toString i.extent.width),
      ("height", toString i.extent.height), ("format", i.format.text), ("usage", i.usage.text),
      ("owned", Record.boolean i.isOwned)]

end Image

/-! ## Barriers between states -/

def ImageBarrier.between (image : Handle .image) (aspect : Aspect) (before after : ImageState) :
    ImageBarrier where
  image := image
  range := { aspect := aspect }
  sourceAccesses := before.accesses
  targetAccesses := after.accesses
  before := before.layout
  after := after.layout

/-- The command with that barrier, which waits for the stages of the one state and holds up
those of the other. -/
def Image.transition (i : Image) (before after : ImageState) : Command :=
  .barrier
    { sourceStages := before.stages
      targetStages := after.stages
      images := [.between i.handle i.aspect before after] }

end FrameGraph
