import FrameGraph.Device.Object
import FrameGraph.Name
import FrameGraph.Text
import FrameGraph.Vertex.Layout

/-! # Why an image or a graph could not be made -/

namespace FrameGraph

set_option autoImplicit false

inductive ImageError where
  | noSuitableMemory (name : Name) (typeBits : BitVec 32)
  | refused (name : Name) (code : ResultCode)
  | memoryTableOverrun
  deriving DecidableEq

namespace ImageError

def message : ImageError → String
  | .noSuitableMemory name typeBits =>
    s!"No device-local memory type fits image `{name}` (type bits 0b{Radix.binary typeBits.toNat})"
  | .refused name code => s!"Vulkan error while creating image `{name}`: {code.text}"
  | .memoryTableOverrun => "The memory table has room for 32 types only"

def cause : ImageError → Option String
  | .refused _ code => some code.text
  | _ => none

end ImageError

inductive PassPart where
  | renderPass
  | framebuffer
  | pipelineLayout
  | pipeline
  deriving DecidableEq

def PassPart.text : PassPart → String
  | .renderPass => "render pass"
  | .framebuffer => "framebuffer"
  | .pipelineLayout => "pipeline layout"
  | .pipeline => "graphics pipeline"

inductive BuildError where
  /-- The vertex inputs of the pass do not fit its bindings. -/
  | packing (pass : String) (error : PackingError)
  /-- The image is a color target and a depth target. -/
  | conflictingRoles (name : Name)
  /-- The output is a depth target, which cannot be copied to the surface. -/
  | depthOutput (name : Name)
  | missingImage (pass : String) (name : Name)
  /-- A pipeline with nothing to draw into. -/
  | noTargets (pass : String)
  | refused (pass : String) (part : PassPart) (code : ResultCode)
  | image (error : ImageError)
  deriving DecidableEq

namespace BuildError

def message : BuildError → String
  | .packing pass (.noFormat location) =>
    s!"Pass `{pass}`: vertex attribute at location {location} has no vertex input format"
  | .packing pass (.emptyBinding binding) =>
    s!"Pass `{pass}`: vertex binding {binding} declares a range of 0 locations"
  | .packing pass (.straddling binding expected consumed) =>
    s!"Pass `{pass}`: vertex binding {binding} expects {expected} locations but an attribute spans up to {consumed}"
  | .packing pass .wordOverflow => s!"Pass `{pass}`: vertex inputs exceed 32 bit positions"
  | .conflictingRoles name => s!"Attachment `{name}` is used both as a color and as a depth target"
  | .depthOutput name =>
    s!"Output attachment `{name}` is a depth target and cannot be copied to the surface"
  | .missingImage pass name =>
    s!"Pass `{pass}` references attachment `{name}`, which was never allocated"
  | .noTargets pass =>
    s!"Pass `{pass}` declares a pipeline but has no color or depth attachment to render to"
  | .refused pass part code => s!"Pass `{pass}`: creating the {part.text} failed with {code.text}"
  | .image error => s!"Attachment allocation failed: {error.message}"

def cause : BuildError → Option String
  | .refused _ _ code => some code.text
  | .image error => some error.message
  | _ => none

end BuildError

/-! Some failures leave no state to go on from: a position that is no word, and a memory table
that overruns. A run ends with them. -/

def ImageError.isFatal : ImageError → Bool
  | .memoryTableOverrun => true
  | _ => false

def PackingError.isFatal : PackingError → Bool
  | .wordOverflow => true
  | _ => false

def BuildError.isFatal : BuildError → Bool
  | .packing _ error => error.isFatal
  | .image error => error.isFatal
  | _ => false

end FrameGraph
