import FrameGraph.Device.Info
import FrameGraph.Device.Object

/-! # Shaders

A shader is a pair of programs with the vertex inputs of the first and the layout of the
resources that both use. Passes share shaders, so a shader has a key by which its owners are
counted.
-/

namespace FrameGraph

set_option autoImplicit false

structure Shader where
  /-- Different shaders have different keys. -/
  key : Nat
  vertexModule : Option (Handle .shaderModule)
  fragmentModule : Option (Handle .shaderModule)
  attributes : List Attribute
  /-- The layout belongs to the cache it came from, never to the shader. -/
  setLayout : Option (Handle .setLayout)
  deriving DecidableEq

namespace Shader

/-- The key of shaders that own nothing. -/
def looseKey : Nat := 0

/-- A shader that is only its vertex inputs. -/
def loose (attributes : List Attribute) : Shader := ⟨looseKey, none, none, attributes, none⟩

/-- The modules the shader owns, in the order in which they are destroyed. -/
def modules (s : Shader) : List (Handle .shaderModule) :=
  s.vertexModule.toList ++ s.fragmentModule.toList

end Shader

/-! ## Why a shader could not be created -/

inductive ShaderStage where
  | vertex
  | fragment
  deriving DecidableEq

namespace ShaderStage

def stages : ShaderStage → ShaderStages
  | .vertex => .vertex
  | .fragment => .fragment

def label : ShaderStage → String
  | .vertex => "vertex"
  | .fragment => "fragment"

end ShaderStage

inductive ShaderError where
  | emptyCode (stage : ShaderStage)
  | conflictingBinding (binding : Nat)
  | refused (code : ResultCode)
  deriving DecidableEq

namespace ShaderError

def message : ShaderError → String
  | .emptyCode stage => s!"SPIR-V for the {stage.label} stage is empty"
  | .conflictingBinding binding =>
    s!"Uniform binding {binding} is declared with different types across stages"
  | .refused code => s!"Vulkan error: {code.text}"

def cause : ShaderError → Option String
  | .refused code => some code.text
  | _ => none

end ShaderError

end FrameGraph
