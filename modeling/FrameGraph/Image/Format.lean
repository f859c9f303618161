import FrameGraph.Text

/-! # Formats, usages and aspects

The formats of images and of vertex data, what an image is created for, and which part of it a
view or a barrier covers. Usages and aspects are sets of flags in one 32 bit word, in which flags
without a name are kept.
-/

namespace FrameGraph

set_option autoImplicit false

/-- A format by its number. Any number is allowed; only some have a name. -/
structure Format where
  code : Int
  deriving DecidableEq, Inhabited

namespace Format

def r32Sint : Format := ⟨99⟩
def r32Sfloat : Format := ⟨100⟩
def r32g32Sint : Format := ⟨102⟩
def r32g32Sfloat : Format := ⟨103⟩
def r32g32b32Sint : Format := ⟨105⟩
def r32g32b32Sfloat : Format := ⟨106⟩
def r32g32b32a32Sint : Format := ⟨108⟩
def r32g32b32a32Sfloat : Format := ⟨109⟩

def names : List (Int × String) :=
  [(0, "UNDEFINED"), (37, "R8G8B8A8_UNORM"), (43, "R8G8B8A8_SRGB"), (44, "B8G8R8A8_UNORM"),
    (50, "B8G8R8A8_SRGB"), (97, "R16G16B16A16_SFLOAT"), (99, "R32_SINT"), (100, "R32_SFLOAT"),
    (102, "R32G32_SINT"), (103, "R32G32_SFLOAT"), (105, "R32G32B32_SINT"),
    (106, "R32G32B32_SFLOAT"), (108, "R32G32B32A32_SINT"), (109, "R32G32B32A32_SFLOAT"),
    (124, "D16_UNORM"), (126, "D32_SFLOAT"), (129, "D24_UNORM_S8_UINT"),
    (130, "D32_SFLOAT_S8_UINT")]

def text (f : Format) : String := (names.lookup f.code).getD (toString f.code)

end Format

structure ImageUsage where
  bits : BitVec 32
  deriving DecidableEq, Inhabited

namespace ImageUsage

def none : ImageUsage := ⟨0⟩
def copySource : ImageUsage := ⟨1⟩
def copyTarget : ImageUsage := ⟨2⟩
def sampled : ImageUsage := ⟨4⟩
def colorTarget : ImageUsage := ⟨16⟩
def depthTarget : ImageUsage := ⟨32⟩

def union (a b : ImageUsage) : ImageUsage := ⟨a.bits ||| b.bits⟩

def includes (a b : ImageUsage) : Bool := a.bits &&& b.bits == b.bits

/-- The named flags in the order in which they are written. -/
def names : List (BitVec 32 × String) :=
  [(1, "TRANSFER_SRC"), (2, "TRANSFER_DST"), (4, "SAMPLED"), (8, "STORAGE"),
    (16, "COLOR_ATTACHMENT"), (32, "DEPTH_STENCIL_ATTACHMENT"), (64, "TRANSIENT_ATTACHMENT"),
    (128, "INPUT_ATTACHMENT"), (8192, "RESERVED_13_KHR"), (16384, "RESERVED_14_KHR"),
    (32768, "RESERVED_15_KHR"), (1024, "RESERVED_10_KHR"), (2048, "RESERVED_11_KHR"),
    (4096, "RESERVED_12_KHR"), (256, "SHADING_RATE_IMAGE_NV"), (512, "FRAGMENT_DENSITY_MAP_EXT")]

/-- The names of the flags, and the flags that have none as one binary number. -/
def text (u : ImageUsage) : String :=
  let named := names.filter fun n => u.bits &&& n.1 == n.1
  let rest := named.foldl (fun r n => r &&& ~~~n.1) u.bits
  let last := if rest = 0 then [] else [Radix.binary rest.toNat]
  " | ".intercalate (named.map Prod.snd ++ last)

end ImageUsage

structure Aspect where
  bits : BitVec 32
  deriving DecidableEq, Inhabited

namespace Aspect

def color : Aspect := ⟨1⟩
def depth : Aspect := ⟨2⟩

end Aspect

end FrameGraph
