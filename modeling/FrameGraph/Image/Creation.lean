import FrameGraph.Environment
import FrameGraph.Host
import FrameGraph.Image.Basic

/-! # Creating and destroying images

An image takes an image object, memory on the device itself and a view. When one of them cannot
be had, what was there before is destroyed again: the image first, then its memory.
-/

namespace FrameGraph

set_option autoImplicit false

structure ImageRequest where
  name : Name
  extent : Extent
  format : Format
  usage : ImageUsage
  aspect : Aspect
  deriving DecidableEq

namespace ImageRequest

def info (r : ImageRequest) : ImageInfo where
  format := r.format
  extent := r.extent
  usage := r.usage

def viewInfo (r : ImageRequest) (image : Handle .image) : ViewInfo where
  image := image
  format := r.format
  range := { aspect := r.aspect }

/-- Takes memory of the first type that suits the image. -/
def allocate (env : Environment) (r : ImageRequest) (image : Handle .image) :
    HostE ImageError (Handle .memory) := do
  let needs ← Host.always (Host.ask (Device.memoryNeeds image))
  match env.memory.search needs.typeBits .deviceLocal with
  | .error .overrun => throw .memoryTableOverrun
  | .ok none => throw (.noSuitableMemory r.name needs.typeBits)
  | .ok (some index) => Host.acquire (.memory ⟨needs.size, index⟩) (.refused r.name)

def bindAndView (r : ImageRequest) (image : Handle .image) (memory : Handle .memory) :
    HostE ImageError (Handle .imageView) := do
  match ← Host.always (Host.ask (Device.bindMemory image memory)) with
  | some code => throw (.refused r.name code)
  | none => Host.acquire (.imageView (r.viewInfo image)) (.refused r.name)

end ImageRequest

namespace Image

/-- Names the image for tools. It does not matter whether this succeeds. -/
def attachName (env : Environment) (name : Name) (image : Handle .image) : HostM Unit := do
  if env.namesObjects then
    if name.text.contains '\x00' then
      Host.report (.imageNameHasNul name)
    else
      match ← Host.ask (Device.nameImage image name.text) with
      | none => return
      | some code => Host.report (.imageNotNamed name code)

def create (env : Environment) (r : ImageRequest) : HostE ImageError Image := do
  let image : Handle .image ← Host.acquire (.image r.info) (.refused r.name)
  let memory : Handle .memory ← Host.cleaningUp (Host.destroy image.object) (r.allocate env image)
  let view : Handle .imageView ← Host.cleaningUp (Host.destroyAll [image.object, memory.object])
    (r.bindAndView image memory)
  Host.always (attachName env r.name image)
  return ⟨r.name, r.extent, r.format, r.usage, r.aspect, image, view, some memory⟩

def drop (i : Image) : HostM Unit := Host.destroyAll i.objects

end Image

end FrameGraph
