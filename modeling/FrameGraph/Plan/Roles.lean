import FrameGraph.Name.Map
import FrameGraph.Pass.Basic
import FrameGraph.Plan.Failure

/-! # Roles of images

The usage of an image is the union of what all passes need it for. Which flags it has decides
whether the image is a color image or a depth image.
-/

namespace FrameGraph

set_option autoImplicit false

inductive TargetKind where
  | color
  | depth
  deriving DecidableEq

def TargetKind.text : TargetKind → String
  | .color => "Color"
  | .depth => "Depth"

abbrev UsageMap := NameMap ImageUsage

namespace UsageMap

def add (m : UsageMap) (use : Name × ImageState) : UsageMap :=
  m.alter use.1 fun u => (u.getD .none).union use.2.usage

/-- The usages of all names in the passes. The output is also copied from. Placeholders have no
usage. -/
def ofPasses (passes : List Pass) (output : Name) : UsageMap :=
  (((passes.flatMap Pass.uses).foldl add NameMap.empty).add (output, .copySource)).erase
    .placeholder

/-- The kind of image that a usage asks for. An image that is never drawn into is a color
image. -/
def kindOf (name : Name) (usage : ImageUsage) : Except BuildError TargetKind :=
  match usage.includes .colorTarget, usage.includes .depthTarget with
  | true, true => .error (.conflictingRoles name)
  | false, true => .ok .depth
  | _, false => .ok .color

/-- Only color can be copied to the surface. -/
def checkOutput (m : UsageMap) (output : Name) : Except BuildError Unit :=
  match m.get? output with
  | none => .ok ()
  | some usage => do
    match ← kindOf output usage with
    | .color => .ok ()
    | .depth => .error (.depthOutput output)

end UsageMap

end FrameGraph
