import FrameGraph.Interface.Cache

/-! # Creating shaders -/

namespace FrameGraph

set_option autoImplicit false

structure ShaderSource where
  words : List Nat
  /-- The vertex inputs in order of their locations. -/
  attributes : List Attribute
  uniforms : List Uniform
  deriving DecidableEq

namespace Shader

def interface (vertex fragment : ShaderSource) : List StageUniforms :=
  [⟨.vertex, vertex.uniforms⟩, ⟨.fragment, fragment.uniforms⟩]

def createModule (stage : ShaderStage) (words : List Nat) :
    HostE ShaderError (Handle .shaderModule) :=
  if words.isEmpty then throw (.emptyCode stage)
  else do
    let code : Handle .shaderModule ← Host.acquire (.shaderModule ⟨words⟩) .refused
    Host.always (Host.report (.shaderModuleCreated stage words.length))
    return code

/-- The modules of both programs. Without the second the first is destroyed again. -/
def createModules (vertex fragment : ShaderSource) :
    HostE ShaderError (Handle .shaderModule × Handle .shaderModule) := do
  let first ← createModule .vertex vertex.words
  let second ← Host.cleaningUp (Host.destroy first.object) (createModule .fragment fragment.words)
  return (first, second)

/-- Creates a shader with its first owner. The cache keeps a layout that was created for the
shader, even if the shader itself fails. -/
def create (cache : LayoutCache) (vertex fragment : ShaderSource) :
    HostM (Except ShaderError Shader × LayoutCache) := do
  match ← (cache.layoutFor (interface vertex fragment)).run with
  | .error e => return (.error e, cache)
  | .ok (layout, cache) =>
    match ← (createModules vertex fragment).run with
    | .error e => return (.error e, cache)
    | .ok (first, second) =>
      let key ← register
      return (.ok ⟨key, some first, some second, vertex.attributes, some layout⟩, cache)

/-- Takes over modules that were created elsewhere. -/
def adopt (vertexModule fragmentModule : Option (Handle .shaderModule))
    (attributes : List Attribute) (setLayout : Option (Handle .setLayout)) : HostM Shader := do
  return ⟨← register, vertexModule, fragmentModule, attributes, setLayout⟩

end Shader

end FrameGraph
