import FrameGraph.Device.Info
import FrameGraph.Device.Object

/-! # Calls of the device

Everything a device is asked to do, as data. The list of its calls is all that can be observed
of a device.
-/

namespace FrameGraph

set_option autoImplicit false

/-! ## Recorded commands -/

/-- The queue family of a barrier that hands nothing over. -/
def sameQueueFamily : Nat := 4294967295

structure ImageBarrier where
  image : Handle .image
  range : ImageRange
  sourceAccesses : Accesses
  targetAccesses : Accesses
  before : Layout
  after : Layout
  sourceQueue : Nat := sameQueueFamily
  targetQueue : Nat := sameQueueFamily
  deriving DecidableEq

structure BarrierInfo where
  sourceStages : Stages
  targetStages : Stages
  images : List ImageBarrier
  flags : Nat := 0
  memoryBarriers : Nat := 0
  bufferBarriers : Nat := 0
  deriving DecidableEq

structure ImageLayers where
  aspect : Aspect := .color
  level : Nat := 0
  baseLayer : Nat := 0
  layers : Nat := 1
  deriving DecidableEq

structure Offset where
  x : Nat := 0
  y : Nat := 0
  z : Nat := 0
  deriving DecidableEq

structure CopyRegion where
  extent : Extent
  depth : Nat := 1
  source : ImageLayers := {}
  sourceOffset : Offset := {}
  target : ImageLayers := {}
  targetOffset : Offset := {}
  deriving DecidableEq

structure CopyInfo where
  source : Handle .image
  sourceLayout : Layout
  target : Handle .image
  targetLayout : Layout
  regions : List CopyRegion
  deriving DecidableEq

structure BeginInfo where
  renderPass : Handle .renderPass
  framebuffer : Option (Handle .framebuffer)
  area : Area
  clearValues : List ClearValue
  /-- Commands are recorded in place. -/
  contents : Nat := 0
  deriving DecidableEq

/-- What the hook of a pass is shown when it runs. -/
structure HookInfo where
  tag : String
  runs : Nat
  renderPass : Option (Handle .renderPass)
  pipeline : Option (Handle .pipeline)
  area : Area
  deriving DecidableEq

inductive Command where
  | barrier (info : BarrierInfo)
  | copyImage (info : CopyInfo)
  | beginRenderPass (info : BeginInfo)
  | setViewports (first : Nat) (viewports : List Viewport)
  | setScissors (first : Nat) (areas : List Area)
  | bindPipeline (bindPoint : Nat) (pipeline : Handle .pipeline)
  | hook (info : HookInfo)
  | draw (vertices instances : Nat)
  | endRenderPass
  deriving DecidableEq

/-! ## Calls -/

/-- How a request to create an object ended: with the identifier of the new object, or refused.
A refused request may still have left an object behind. -/
inductive Creation where
  | made (id : Nat)
  | refused (code : ResultCode) (leftover : Option Nat)
  deriving DecidableEq

/-- The type by which an image is named. -/
def imageObjectType : Nat := 10

inductive Call where
  | create (info : CreateInfo) (outcome : Creation)
  | destroy (object : Object)
  | queryMemoryNeeds (image : Handle .image)
  | bindMemory (image : Handle .image) (memory : Handle .memory) (offset : Nat)
      (refusal : Option ResultCode)
  | nameObject (objectType : Nat) (object : Object) (name : String)
      (refusal : Option ResultCode)
  | record (buffer : CommandBuffer) (command : Command)
  deriving DecidableEq

end FrameGraph
