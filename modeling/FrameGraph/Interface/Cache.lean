import FrameGraph.Host
import FrameGraph.Shader.Basic

/-! # Shared set layouts

Each stage of a shader lists the uniforms it uses. Merged, they are a list of slots in strictly
increasing order of their bindings, in which a uniform of several stages stands once with all of
them. Shaders with the same slots share one set layout. The cache owns its layouts, and they live
as long as the cache.
-/

namespace FrameGraph

set_option autoImplicit false

/-! ## Slots -/

structure Uniform where
  binding : Nat
  type : ResourceType
  count : Nat
  deriving DecidableEq

structure StageUniforms where
  stages : ShaderStages
  uniforms : List Uniform
  deriving DecidableEq

namespace Uniform

def slot (u : Uniform) (stages : ShaderStages) : ResourceSlot :=
  ⟨u.binding, u.type, u.count, stages⟩

/-- Puts a uniform into its place among slots in order of their bindings. -/
def addTo (u : Uniform) (stages : ShaderStages) :
    List ResourceSlot → Except ShaderError (List ResourceSlot)
  | [] => .ok [u.slot stages]
  | s :: rest =>
    if u.binding < s.binding then .ok (u.slot stages :: s :: rest)
    else if s.binding < u.binding then (s :: ·) <$> addTo u stages rest
    else if s.type = u.type ∧ s.count = u.count then
      .ok ({ s with stages := s.stages.union stages } :: rest)
    else .error (.conflictingBinding u.binding)

end Uniform

namespace StageUniforms

/-- Every uniform with the stages that list it, in the order of the lists. -/
def flatten (stages : List StageUniforms) : List (Uniform × ShaderStages) :=
  stages.flatMap fun s => s.uniforms.map fun u => (u, s.stages)

/-- The slots of all uniforms. The first uniform that differs from an earlier one of its binding
is a conflict. -/
def merge (stages : List StageUniforms) : Except ShaderError (List ResourceSlot) :=
  (flatten stages).foldlM (fun slots e => e.1.addTo e.2 slots) []

end StageUniforms

/-! ## The cache -/

structure LayoutCache where
  /-- The slots of every layout, in the order of their creation. -/
  layouts : List (List ResourceSlot × Handle .setLayout) := []
  deriving DecidableEq, Inhabited

namespace LayoutCache

def find? (c : LayoutCache) (slots : List ResourceSlot) : Option (Handle .setLayout) :=
  c.layouts.lookup slots

def size (c : LayoutCache) : Nat := c.layouts.length

def isEmpty (c : LayoutCache) : Bool := c.layouts.isEmpty

def add (c : LayoutCache) (slots : List ResourceSlot) (layout : Handle .setLayout) :
    LayoutCache := ⟨c.layouts ++ [(slots, layout)]⟩

/-- The layout of the slots and the cache that holds it. It is created only if the cache has
none. -/
def provide (c : LayoutCache) (slots : List ResourceSlot) :
    HostE ShaderError (Handle .setLayout × LayoutCache) :=
  match c.find? slots with
  | some layout => return (layout, c)
  | none => do
    let layout : Handle .setLayout ← Host.acquire (.setLayout { slots := slots }) .refused
    Host.always (Host.report (.setLayoutCreated slots.length))
    return (layout, c.add slots layout)

/-- The layout for the uniforms of all stages. A failure leaves the cache as it was. -/
def layoutFor (c : LayoutCache) (stages : List StageUniforms) :
    HostE ShaderError (Handle .setLayout × LayoutCache) :=
  match StageUniforms.merge stages with
  | .error e => throw e
  | .ok slots => c.provide slots

/-- Destroys all layouts, in any order. -/
def drop (c : LayoutCache) : HostM Unit := do
  let released ← Host.ask (Device.shuffled (fun l => [l.2.object]) c.layouts)
  Host.destroyAll (released.map fun l => l.2.object)

end LayoutCache

end FrameGraph
