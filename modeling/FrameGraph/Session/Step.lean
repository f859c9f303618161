import FrameGraph.Graph.Basic
import FrameGraph.Image.Creation
import FrameGraph.Interface.Cache
import FrameGraph.Plan.Basic
import FrameGraph.Shader.Creation

/-! # Steps of a session and their replies

A session works on one device and keeps what it makes under names. A step makes something, uses
something that is kept, or lets it go.
-/

namespace FrameGraph

set_option autoImplicit false

/-- The shader of a pipeline: one that is kept, or one that is only its vertex inputs. -/
inductive ShaderChoice where
  | kept (id : Name)
  | loose (attributes : List Attribute)
  deriving DecidableEq

structure PassSketch where
  name : String
  steps : List (Declaration ShaderChoice)
  deriving DecidableEq

structure PlanEdit where
  remove : List Name
  set : List (Name × ImageUsage)
  output : Option Name
  outputState : Option ImageState
  deriving DecidableEq

inductive Step where
  | createShader (id : Name) (vertex fragment : ShaderSource)
  | adoptShader (id : Name) (vertexModule fragmentModule : Option (Handle .shaderModule))
      (attributes : List Attribute) (setLayout : Option (Handle .setLayout))
  | dropShader (id : Name)
  | provideLayout (stages : List StageUniforms)
  | findMemoryType (typeBits : BitVec 32) (required : MemoryProperties)
  | setSurface (surface : Surface)
  | createImage (id : Name) (request : ImageRequest)
  | adoptImage (id : Name) (image : Image)
  | dropImage (id : Name)
  | imageText (id : Name)
  | transition (id : Name) (before after : ImageState) (buffer : CommandBuffer)
  | presentImage (state : ImageState) (output target : Name) (buffer : CommandBuffer)
  | compilePass (id : Name) (pass : PassSketch) (earlier : Option (List PassSketch))
      (images : ImageMap)
  | destroyPass (id : Name)
  | passText (id : Name)
  | buildGraph (id : Name) (passes : List PassSketch) (output : Name) (edit : Option PlanEdit)
  | inspectGraph (id : Name) (nodes : List String) (images : List Name)
  | nodeTexts (id : Name)
  | execute (id : Name) (buffer : CommandBuffer)
  | present (id : Name) (buffer : CommandBuffer) (target : Image)
  | destroyGraph (id : Name)
  | dropGraph (id : Name)

inductive Reply where
  | shader (result : Except ShaderError Shader)
  | dropped (was : Bool)
  | layout (result : Except ShaderError (Handle .setLayout)) (size : Nat) (isEmpty : Bool)
  | memoryType (result : Except MemoryTableError (Option Nat))
  | surface (surface : Surface)
  | image (result : Except ImageError Image)
  | objects (result : Except BuildError PassObjects)
  | graph (result : Except BuildError Graph)
  | inspection (graph : Graph) (nodes : List (Option Nat)) (images : List (Option Image))
  | text (text : String)
  | record (text : String)
  | texts (texts : List String)
  | done
  | missing (id : Name)

def Reply.isFatal : Reply → Bool
  | .memoryType (.error .overrun) => true
  | .image (.error e) => e.isFatal
  | .objects (.error e) => e.isFatal
  | .graph (.error e) => e.isFatal
  | _ => false

structure Report where
  reply : Reply
  calls : List Call
  notices : List Notice

end FrameGraph
