import FrameGraph.Device.Info
import FrameGraph.Image.Format

/-! # The environment of a build

What is known of the device besides itself, such as its types of memory, and the surface that
frames are shown on.
-/

namespace FrameGraph

set_option autoImplicit false

/-! ## Types of memory -/

structure MemoryProperties where
  bits : BitVec 32
  deriving DecidableEq, Inhabited

namespace MemoryProperties

def none : MemoryProperties := ⟨0⟩
def deviceLocal : MemoryProperties := ⟨1⟩

/-- Every property of `b` is in `a`. -/
def includes (a b : MemoryProperties) : Bool := a.bits &&& b.bits == b.bits

end MemoryProperties

/-- The types of memory of a device. Types beyond the listed ones have no properties. -/
structure MemoryTable where
  types : List MemoryProperties
  count : Nat
  deriving DecidableEq, Inhabited

inductive MemoryTableError where
  | overrun
  deriving DecidableEq

namespace MemoryTable

def capacity : Nat := 32

def properties (t : MemoryTable) (i : Nat) : MemoryProperties := t.types.getD i .none

/-- The type is allowed by the word of type bits and has all required properties. -/
def fits (t : MemoryTable) (typeBits : BitVec 32) (required : MemoryProperties) (i : Nat) : Bool :=
  typeBits.getLsbD i && (t.properties i).includes required

def firstFit (t : MemoryTable) (typeBits : BitVec 32) (required : MemoryProperties) :
    Option Nat :=
  (List.range t.count).find? (t.fits typeBits required)

def overruns (t : MemoryTable) : Bool := capacity < t.count

/-- Looks for a type that fits. A table that overruns cannot be searched. -/
def search (t : MemoryTable) (typeBits : BitVec 32) (required : MemoryProperties) :
    Except MemoryTableError (Option Nat) :=
  if t.overruns then .error .overrun else .ok (t.firstFit typeBits required)

end MemoryTable

/-! ## The surface -/

/-- The surface gives the images of a graph their formats and their extent. -/
structure Surface where
  colorFormat : Format
  depthFormat : Format
  extent : Extent
  deriving DecidableEq, Inhabited

structure Environment where
  memory : MemoryTable
  surface : Surface
  namesObjects : Bool
  deriving DecidableEq, Inhabited

end FrameGraph
