import FrameGraph.Number.Binary32

/-! # Extents and areas -/

namespace FrameGraph

set_option autoImplicit false

structure Extent where
  width : Nat
  height : Nat
  deriving DecidableEq, Inhabited

namespace Extent

def zero : Extent := ⟨0, 0⟩

/-- The part that two extents with a common corner share. -/
def overlap (a b : Extent) : Extent := ⟨min a.width b.width, min a.height b.height⟩

end Extent

structure Area where
  x : Nat
  y : Nat
  extent : Extent
  deriving DecidableEq, Inhabited

def Extent.area (e : Extent) : Area := ⟨0, 0, e⟩

structure Viewport where
  x : Binary32
  y : Binary32
  width : Binary32
  height : Binary32
  minDepth : Binary32
  maxDepth : Binary32
  deriving DecidableEq

/-- The viewport that covers an area and the whole range of depths. -/
def Area.viewport (a : Area) : Viewport where
  x := .ofNat a.x
  y := .ofNat a.y
  width := .ofNat a.extent.width
  height := .ofNat a.extent.height
  minDepth := .zero
  maxDepth := .one

end FrameGraph
