import FrameGraph.Image.Format

/-! # States of an image

The role in which a command leaves an image. A state fixes the memory layout of the image, the
usage flag it was created with, and the accesses and pipeline stages a barrier has to wait for.
-/

namespace FrameGraph

set_option autoImplicit false

/-- How the texels of an image lie in memory. -/
inductive Layout where
  | undefined
  | colorTarget
  | depthTarget
  | shaderRead
  | copySource
  | copyTarget
  | presentable
  deriving DecidableEq, Inhabited

def Layout.code : Layout → Int
  | .undefined => 0
  | .colorTarget => 2
  | .depthTarget => 3
  | .shaderRead => 5
  | .copySource => 6
  | .copyTarget => 7
  | .presentable => 1000001002

structure Accesses where
  bits : BitVec 32
  deriving DecidableEq

namespace Accesses

def none : Accesses := ⟨0⟩
def shaderRead : Accesses := ⟨32⟩
def colorRead : Accesses := ⟨128⟩
def colorWrite : Accesses := ⟨256⟩
def depthRead : Accesses := ⟨512⟩
def depthWrite : Accesses := ⟨1024⟩
def copyRead : Accesses := ⟨2048⟩
def copyWrite : Accesses := ⟨4096⟩
def memoryRead : Accesses := ⟨32768⟩

def union (a b : Accesses) : Accesses := ⟨a.bits ||| b.bits⟩

end Accesses

structure Stages where
  bits : BitVec 32
  deriving DecidableEq

namespace Stages

def topOfPipe : Stages := ⟨1⟩
def fragmentShader : Stages := ⟨128⟩
def earlyDepthTests : Stages := ⟨256⟩
def lateDepthTests : Stages := ⟨512⟩
def colorOutput : Stages := ⟨1024⟩
def copy : Stages := ⟨4096⟩
def bottomOfPipe : Stages := ⟨8192⟩

def union (a b : Stages) : Stages := ⟨a.bits ||| b.bits⟩

end Stages

/-- What an image was last used as. States are roles and have no order. -/
inductive ImageState where
  | unknown
  | shaderRead
  | colorTarget
  | depthTarget
  | copySource
  | copyTarget
  deriving DecidableEq, Inhabited

namespace ImageState

def layout : ImageState → Layout
  | .unknown => .undefined
  | .shaderRead => .shaderRead
  | .colorTarget => .colorTarget
  | .depthTarget => .depthTarget
  | .copySource => .copySource
  | .copyTarget => .copyTarget

/-- The usage an image must have been created with to be in the state. -/
def usage : ImageState → ImageUsage
  | .unknown => .none
  | .shaderRead => .sampled
  | .colorTarget => .colorTarget
  | .depthTarget => .depthTarget
  | .copySource => .copySource
  | .copyTarget => .copyTarget

def accesses : ImageState → Accesses
  | .unknown => .none
  | .shaderRead => .shaderRead
  | .colorTarget => Accesses.colorRead.union .colorWrite
  | .depthTarget => Accesses.depthRead.union .depthWrite
  | .copySource => .copyRead
  | .copyTarget => .copyWrite

def stages : ImageState → Stages
  | .unknown => .topOfPipe
  | .shaderRead => .fragmentShader
  | .colorTarget => .colorOutput
  | .depthTarget => Stages.earlyDepthTests.union .lateDepthTests
  | .copySource => .copy
  | .copyTarget => .copy

def text : ImageState → String
  | .unknown => "Unknown"
  | .shaderRead => "ShaderRead"
  | .colorTarget => "ColorAttachment"
  | .depthTarget => "DepthAttachment"
  | .copySource => "TransferSource"
  | .copyTarget => "TransferDestination"

end ImageState

end FrameGraph
