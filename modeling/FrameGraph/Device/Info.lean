import FrameGraph.Device.Object
import FrameGraph.Image.Geometry
import FrameGraph.Image.State
import FrameGraph.Pass.LoadPolicy
import FrameGraph.Vertex.Layout

/-! # What objects are created from

One structure for each kind of object. Fields with a default are choices that every request of
the library makes alike. Choices the device knows only by number are named beside the structure.
-/

namespace FrameGraph

set_option autoImplicit false

/-! ## Memory and images -/

structure ImageInfo where
  format : Format
  extent : Extent
  usage : ImageUsage
  depth : Nat := 1
  flags : Nat := 0
  /-- Two dimensional. -/
  imageType : Nat := 1
  mipLevels : Nat := 1
  arrayLayers : Nat := 1
  samples : Nat := 1
  /-- The layout in memory is up to the device. -/
  tiling : Nat := 0
  /-- Used by one queue family at a time. -/
  sharingMode : Nat := 0
  initialLayout : Layout := .undefined
  deriving DecidableEq

/-- The memory an image needs: its size, and a word with one bit for each type of memory that
can hold it. -/
structure MemoryNeeds where
  size : Nat
  typeBits : BitVec 32
  deriving DecidableEq, Inhabited

structure MemoryInfo where
  size : Nat
  typeIndex : Nat
  deriving DecidableEq

/-- The mip levels and layers of an image that a view or a barrier covers: all of an image with
one level and one layer. -/
structure ImageRange where
  aspect : Aspect
  baseLevel : Nat := 0
  levels : Nat := 1
  baseLayer : Nat := 0
  layers : Nat := 1
  deriving DecidableEq

structure ViewInfo where
  image : Handle .image
  format : Format
  range : ImageRange
  flags : Nat := 0
  /-- Two dimensional. -/
  viewType : Nat := 1
  deriving DecidableEq

/-! ## Shaders and their resources -/

structure ShaderStages where
  bits : BitVec 32
  deriving DecidableEq, Inhabited

namespace ShaderStages

def vertex : ShaderStages := ⟨1⟩
def fragment : ShaderStages := ⟨16⟩

def union (a b : ShaderStages) : ShaderStages := ⟨a.bits ||| b.bits⟩

end ShaderStages

inductive ResourceType where
  | sampler
  | combinedImageSampler
  | sampledImage
  | storageImage
  | uniformBuffer
  | storageBuffer
  deriving DecidableEq

def ResourceType.code : ResourceType → Nat
  | .sampler => 0
  | .combinedImageSampler => 1
  | .sampledImage => 2
  | .storageImage => 3
  | .uniformBuffer => 6
  | .storageBuffer => 7

structure ResourceSlot where
  binding : Nat
  type : ResourceType
  count : Nat
  stages : ShaderStages
  deriving DecidableEq

structure SetLayoutInfo where
  slots : List ResourceSlot
  immutableSamplers : Bool := false
  deriving DecidableEq

structure ShaderModuleInfo where
  words : List Nat
  deriving DecidableEq

def ShaderModuleInfo.byteSize (i : ShaderModuleInfo) : Nat := 4 * i.words.length

/-! ## Render passes and framebuffers -/

inductive StoreOp where
  | store
  | discard
  deriving DecidableEq

def StoreOp.code : StoreOp → Nat
  | .store => 0
  | .discard => 1

/-- How a render pass treats one of its targets. The layouts are those before and after it. -/
structure TargetDescription where
  format : Format
  load : LoadOp
  initial : Layout
  final : Layout
  flags : Nat := 0
  samples : Nat := 1
  store : StoreOp := .store
  stencilLoad : LoadOp := .discard
  stencilStore : StoreOp := .discard
  deriving DecidableEq

/-- A target by its place in the list of descriptions, and its layout inside the render pass. -/
structure TargetReference where
  index : Nat
  layout : Layout
  deriving DecidableEq

/-- Graphics work, as opposed to compute. -/
def graphicsBindPoint : Nat := 0

structure Subpass where
  colors : List TargetReference
  depth : Option TargetReference
  bindPoint : Nat := graphicsBindPoint
  inputs : List TargetReference := []
  resolves : List TargetReference := []
  preserves : List Nat := []
  deriving DecidableEq

inductive SubpassEnd where
  | inside (index : Nat)
  | outside
  deriving DecidableEq

def SubpassEnd.code : SubpassEnd → Nat
  | .inside index => index
  | .outside => 4294967295

structure Dependency where
  source : SubpassEnd
  target : SubpassEnd
  sourceStages : Stages
  targetStages : Stages
  sourceAccesses : Accesses
  targetAccesses : Accesses
  /-- By region: a pixel waits only for itself. -/
  flags : Nat := 1
  deriving DecidableEq

structure RenderPassInfo where
  targets : List TargetDescription
  subpasses : List Subpass
  dependencies : List Dependency
  deriving DecidableEq

structure FramebufferInfo where
  renderPass : Handle .renderPass
  views : List (Handle .imageView)
  extent : Extent
  layers : Nat := 1
  deriving DecidableEq

/-! ## Pipelines -/

structure PipelineLayoutInfo where
  setLayouts : List (Handle .setLayout)
  pushConstantRanges : Nat := 0
  deriving DecidableEq

structure StageInfo where
  stage : ShaderStages
  shaderModule : Option (Handle .shaderModule)
  entry : String := "main"
  deriving DecidableEq

structure InputAssembly where
  /-- A list of triangles. -/
  topology : Nat := 3
  primitiveRestart : Bool := false
  deriving DecidableEq

/-- Viewport and scissor are set while recording; only their number is fixed. -/
structure ViewportState where
  viewports : Nat := 1
  viewportData : Bool := false
  scissors : Nat := 1
  scissorData : Bool := false
  deriving DecidableEq

structure Rasterization where
  depthClamp : Bool := false
  discard : Bool := false
  /-- Filled. -/
  polygonMode : Nat := 0
  /-- Back faces are dropped. -/
  cullMode : Nat := 2
  /-- Counter clockwise. -/
  frontFace : Nat := 0
  depthBias : Bool := false
  lineWidth : Binary32 := .one
  deriving DecidableEq

structure Multisampling where
  samples : Nat := 1
  sampleShading : Bool := false
  minSampleShading : Binary32 := .one
  alphaToCoverage : Bool := false
  alphaToOne : Bool := false
  deriving DecidableEq

/-- Depth targets are bound but never tested against. -/
structure DepthTest where
  test : Bool := false
  write : Bool := false
  /-- Every fragment passes. -/
  compare : Nat := 7
  boundsTest : Bool := false
  stencilTest : Bool := false
  least : Binary32 := .zero
  greatest : Binary32 := .one
  deriving DecidableEq

inductive BlendFactor where
  | zero
  | one
  | sourceAlpha
  | oneMinusSourceAlpha
  deriving DecidableEq

def BlendFactor.code : BlendFactor → Nat
  | .zero => 0
  | .one => 1
  | .sourceAlpha => 6
  | .oneMinusSourceAlpha => 7

/-- Blending by the alpha of the source, the same for every color target. -/
structure Blending where
  enabled : Bool := true
  sourceColor : BlendFactor := .sourceAlpha
  targetColor : BlendFactor := .oneMinusSourceAlpha
  /-- The two are added. -/
  colorOp : Nat := 0
  sourceAlpha : BlendFactor := .one
  targetAlpha : BlendFactor := .zero
  alphaOp : Nat := 0
  /-- All four components. -/
  writeMask : Nat := 15
  deriving DecidableEq

structure ColorBlending where
  targets : List Blending
  logicOpEnabled : Bool := false
  /-- Copy. -/
  logicOp : Nat := 3
  constants : List Binary32 := [.zero, .zero, .zero, .zero]
  deriving DecidableEq

structure PipelineInfo where
  stages : List StageInfo
  vertexLayout : VertexLayout
  colorBlending : ColorBlending
  layout : Handle .pipelineLayout
  renderPass : Handle .renderPass
  inputAssembly : InputAssembly := {}
  tessellation : Bool := false
  viewport : ViewportState := {}
  rasterization : Rasterization := {}
  multisampling : Multisampling := {}
  depthTest : DepthTest := {}
  /-- The viewport and the scissor. -/
  dynamicStates : List Nat := [0, 1]
  subpass : Nat := 0
  basePipeline : Option (Handle .pipeline) := none
  baseIndex : Int := -1
  cache : Nat := 0
  deriving DecidableEq

/-! ## Requests to create -/

inductive CreateInfo where
  | image (info : ImageInfo)
  | memory (info : MemoryInfo)
  | imageView (info : ViewInfo)
  | shaderModule (info : ShaderModuleInfo)
  | setLayout (info : SetLayoutInfo)
  | renderPass (info : RenderPassInfo)
  | framebuffer (info : FramebufferInfo)
  | pipelineLayout (info : PipelineLayoutInfo)
  | pipeline (info : PipelineInfo)
  deriving DecidableEq

def CreateInfo.kind : CreateInfo → ObjectKind
  | .image _ => .image
  | .memory _ => .memory
  | .imageView _ => .imageView
  | .shaderModule _ => .shaderModule
  | .setLayout _ => .setLayout
  | .renderPass _ => .renderPass
  | .framebuffer _ => .framebuffer
  | .pipelineLayout _ => .pipelineLayout
  | .pipeline _ => .pipeline

end FrameGraph
