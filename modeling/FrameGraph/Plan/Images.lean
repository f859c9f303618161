import FrameGraph.Image.Creation
import FrameGraph.Pass.Targets
import FrameGraph.Plan.Roles

/-! # The images of a plan

Every name of a plan gets one image of the size of the surface, which all passes share. The
images are created in the order of their names, and none is left over when one of them fails. They
are released in any order.
-/

namespace FrameGraph

set_option autoImplicit false

namespace ImageMap

/-- Destroys the images that are owned. -/
def drop (images : ImageMap) : HostM Unit := do
  let released ← Host.ask (Device.shuffled Image.objects images.values)
  released.forM Image.drop

end ImageMap

namespace Surface

def request (s : Surface) (name : Name) (usage : ImageUsage) (kind : TargetKind) :
    ImageRequest where
  name := name
  extent := s.extent
  format := match kind with
    | .color => s.colorFormat
    | .depth => s.depthFormat
  usage := usage
  aspect := match kind with
    | .color => .color
    | .depth => .depth

end Surface

namespace UsageMap

def createImage (env : Environment) (name : Name) (usage : ImageUsage) :
    HostE BuildError Image := do
  let kind ← Host.ofExcept (kindOf name usage)
  let request := env.surface.request name usage kind
  let image ← (Image.create env request).adapt .image
  Host.always (Host.report (.imageAllocated name image.extent image.format usage))
  return image

/-- Creates the images of the remaining names, in addition to those that are there. -/
def createImages (env : Environment) :
    List (Name × ImageUsage) → ImageMap → HostE BuildError ImageMap
  | [], images => return images
  | (name, usage) :: rest, images => do
    let image ← Host.cleaningUp images.drop (createImage env name usage)
    createImages env rest (images.insert name image)

/-- Creates the images of all names. An output that cannot be shown is refused first. -/
def allocate (env : Environment) (m : UsageMap) (output : Name) : HostE BuildError ImageMap := do
  Host.ofExcept (m.checkOutput output)
  createImages env m.entries .empty

end UsageMap

end FrameGraph
