import FrameGraph.Image.Format
import FrameGraph.Image.Geometry
import FrameGraph.Image.State
import FrameGraph.Plan.Failure
import FrameGraph.Shader.Basic

/-! # Notices

What is reported about the work while it goes on, each with its level and its wording.
-/

namespace FrameGraph

set_option autoImplicit false

inductive Level where
  | error
  | warning
  | info
  | debug
  | trace
  deriving DecidableEq

def Level.text : Level → String
  | .error => "ERROR"
  | .warning => "WARN"
  | .info => "INFO"
  | .debug => "DEBUG"
  | .trace => "TRACE"

inductive Notice where
  /-- A pass takes the image from one state to another. -/
  | transition (name : Name) (before after : ImageState)
  | readBeforeWrite (pass : String) (name : Name)
  | outputNeverWritten (output : Name)
  /-- The inputs of the shader fill fewer bindings than the pass declares. -/
  | unfilledBindings (pass : String) (declared filled : Nat)
  | imageAllocated (name : Name) (extent : Extent) (format : Format) (usage : ImageUsage)
  | imageNameHasNul (name : Name)
  | imageNotNamed (name : Name) (code : ResultCode)
  | setLayoutCreated (slots : Nat)
  | shaderModuleCreated (stage : ShaderStage) (words : Nat)
  | passHasNoTargets (pass : String)
  | passCompiled (pass : String) (targets : Nat) (extent : Extent) (hasPipeline : Bool)
  | passFailed (pass : String) (error : BuildError)
  | graphBuilt (passes images : Nat) (output : Name)
  | surfaceChanged (extent : Extent) (colorFormat : Format)
  /-- A node reads an image that its graph does not own. -/
  | foreignInput (node : String) (name : Name)
  | nothingToPresent
  deriving DecidableEq

namespace Notice

def level : Notice → Level
  | .transition .. => .trace
  | .readBeforeWrite .. => .warning
  | .outputNeverWritten .. => .warning
  | .unfilledBindings .. => .warning
  | .imageAllocated .. => .debug
  | .imageNameHasNul .. => .warning
  | .imageNotNamed .. => .warning
  | .setLayoutCreated .. => .debug
  | .shaderModuleCreated .. => .debug
  | .passHasNoTargets .. => .debug
  | .passCompiled .. => .debug
  | .passFailed .. => .error
  | .graphBuilt .. => .info
  | .surfaceChanged .. => .info
  | .foreignInput .. => .warning
  | .nothingToPresent => .warning

def text : Notice → String
  | .transition name before after => s!"`{name}`: {before.text} -> {after.text}"
  | .readBeforeWrite pass name => s!"Pass `{pass}` reads `{name}` before any pass wrote it"
  | .outputNeverWritten output => s!"Output attachment `{output}` is never written by any pass"
  | .unfilledBindings pass declared filled =>
    s!"Pass `{pass}` declares {declared} vertex bindings but its shader inputs only fill {filled}"
  | .imageAllocated name extent format usage =>
    s!"Allocated attachment `{name}`: {extent.width}x{extent.height} {format.text}, usage {usage.text}"
  | .imageNameHasNul name => s!"Image name `{name}` contains a NUL byte, not naming it"
  | .imageNotNamed name code => s!"Failed to name image `{name}`: {code.text}"
  | .setLayoutCreated slots => s!"Created descriptor set layout with {slots} bindings"
  | .shaderModuleCreated stage words => s!"Created {stage.label} shader module ({words} words)"
  | .passHasNoTargets pass => s!"Pass `{pass}` has no attachments, nothing to create"
  | .passCompiled pass targets extent hasPipeline =>
    s!"Compiled pass `{pass}`: {targets} attachments, {extent.width}x{extent.height}, pipeline: {hasPipeline}"
  | .passFailed pass error => s!"Failed to compile pass `{pass}`: {error.message}"
  | .graphBuilt passes images output =>
    s!"Built render graph: {passes} passes, {images} attachments, output `{output}`"
  | .surfaceChanged extent colorFormat =>
    s!"Surface changed to {extent.width}x{extent.height} ({colorFormat.text})"
  | .foreignInput node name => s!"Node `{node}` reads `{name}`, which the graph does not own"
  | .nothingToPresent => "Graph has no output attachment, nothing to present"

end Notice

end FrameGraph
