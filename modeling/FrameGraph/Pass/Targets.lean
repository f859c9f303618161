import FrameGraph.Image.Basic
import FrameGraph.Name.Map
import FrameGraph.Notice
import FrameGraph.Pass.Basic

/-! # Targets of a pass

The images that a pass draws into, bound by their names: the color targets in the order of their
declaration, then the depth target. All that a device has to be told about them follows from
this list.
-/

namespace FrameGraph

set_option autoImplicit false

abbrev ImageMap := NameMap Image

structure BoundTarget where
  image : Image
  description : TargetDescription
  clear : ClearValue
  deriving DecidableEq

namespace BoundTarget

def describe (image : Image) (op : LoadOp) (initial final : ImageState) :
    TargetDescription where
  format := image.format
  load := op
  initial := initial.layout
  final := final.layout

def ofColor (image : Image) (t : Target Color) : BoundTarget where
  image := image
  description := describe image t.policy.loadOp t.initial .colorTarget
  clear := .color (t.policy.clearValue .default)

def ofDepth (image : Image) (t : Target DepthStencil) : BoundTarget where
  image := image
  description := describe image t.policy.loadOp t.initial .depthTarget
  clear := .depthStencil (t.policy.clearValue .default)

end BoundTarget

structure TargetSet where
  colors : List BoundTarget
  depth : Option BoundTarget
  deriving DecidableEq

namespace TargetSet

def all (t : TargetSet) : List BoundTarget := t.colors ++ t.depth.toList

def isEmpty (t : TargetSet) : Bool := t.all.isEmpty

def descriptions (t : TargetSet) : List TargetDescription := t.all.map BoundTarget.description

def views (t : TargetSet) : List (Handle .imageView) := t.all.map fun b => b.image.view

def clearValues (t : TargetSet) : List ClearValue := t.all.map BoundTarget.clear

def colorReferences (t : TargetSet) : List TargetReference :=
  (List.range t.colors.length).map fun i => ⟨i, .colorTarget⟩

/-- The depth target comes after all color targets. -/
def depthReference (t : TargetSet) : Option TargetReference :=
  t.depth.map fun _ => ⟨t.colors.length, .depthTarget⟩

def extent (t : TargetSet) : Extent :=
  match t.all with
  | [] => .zero
  | b :: _ => b.image.extent

def area (t : TargetSet) : Area := t.extent.area

end TargetSet

namespace Pass

def imageOf (p : Pass) (images : ImageMap) (name : Name) : Except BuildError Image :=
  match images.get? name with
  | some image => .ok image
  | none => .error (.missingImage p.name name)

def bindColor (p : Pass) (images : ImageMap) (t : Target Color) : Except BuildError BoundTarget :=
  return .ofColor (← p.imageOf images t.name) t

def bindDepth (p : Pass) (images : ImageMap) :
    Option (Target DepthStencil) → Except BuildError (Option BoundTarget)
  | none => .ok none
  | some t => return some (.ofDepth (← p.imageOf images t.name) t)

/-- Binds the targets of a pass. Inputs are sampled and not bound, but their images have to be
there as well. -/
def bindTargets (p : Pass) (images : ImageMap) : Except BuildError TargetSet := do
  let colors ← p.liveColors.mapM (p.bindColor images)
  let depth ← p.bindDepth images p.liveDepth
  p.liveInputs.forM fun u => do
    let _ ← p.imageOf images u.name
    return
  return ⟨colors, depth⟩

/-- Checks the pipeline of a pass against its targets and packs the vertex inputs of its
shader. -/
def vertexLayout (p : Pass) (t : TargetSet) : Except BuildError (Option VertexLayout) :=
  match p.pipeline with
  | none => .ok none
  | some choice =>
    if t.isEmpty then .error (.noTargets p.name)
    else
      match VertexLayout.pack choice.shader.attributes choice.bindings with
      | .error e => .error (.packing p.name e)
      | .ok layout => .ok (some layout)

end Pass

def VertexLayout.notices (pass : String) (declared : List VertexBinding) (l : VertexLayout) :
    List Notice :=
  if l.buffers.length < declared.length then
    [.unfilledBindings pass declared.length l.buffers.length]
  else []

def Pass.packingNotices (p : Pass) (layout : Option VertexLayout) : List Notice :=
  match p.pipeline, layout with
  | some choice, some l => l.notices p.name choice.bindings
  | _, _ => []

end FrameGraph
