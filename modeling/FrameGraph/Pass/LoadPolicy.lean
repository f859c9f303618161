import FrameGraph.Number.Binary32

/-! # What a pass does with the earlier contents of its targets

Every target of a pass states what becomes of its earlier contents: they are replaced by a value,
kept, or left to the device.
-/

namespace FrameGraph

set_option autoImplicit false

structure Color where
  red : Binary32
  green : Binary32
  blue : Binary32
  alpha : Binary32
  deriving DecidableEq

/-- Opaque black. -/
def Color.default : Color := ⟨.zero, .zero, .zero, .one⟩

def Color.numEq (a b : Color) : Bool :=
  a.red.numEq b.red && a.green.numEq b.green && a.blue.numEq b.blue && a.alpha.numEq b.alpha

structure DepthStencil where
  depth : Binary32
  stencil : Nat
  deriving DecidableEq

/-- The far plane, with an empty stencil. -/
def DepthStencil.default : DepthStencil := ⟨.one, 0⟩

def DepthStencil.numEq (a b : DepthStencil) : Bool :=
  a.depth.numEq b.depth && a.stencil == b.stencil

inductive ClearValue where
  | color (value : Color)
  | depthStencil (value : DepthStencil)
  deriving DecidableEq

inductive LoadPolicy (α : Type) where
  | clear (value : α)
  | load
  | discard
  deriving DecidableEq

inductive LoadOp where
  | load
  | clear
  | discard
  deriving DecidableEq

def LoadOp.code : LoadOp → Nat
  | .load => 0
  | .clear => 1
  | .discard => 2

namespace LoadPolicy

variable {α : Type}

def default : LoadPolicy α := .discard

instance : Inhabited (LoadPolicy α) := ⟨default⟩

def loadOp : LoadPolicy α → LoadOp
  | .clear _ => .clear
  | .load => .load
  | .discard => .discard

/-- The value handed to the device, which wants one also where nothing is cleared. -/
def clearValue (unused : α) : LoadPolicy α → α
  | .clear value => value
  | .load => unused
  | .discard => unused

def agree (same : α → α → Bool) : LoadPolicy α → LoadPolicy α → Bool
  | .clear a, .clear b => same a b
  | .load, .load => true
  | .discard, .discard => true
  | _, _ => false

end LoadPolicy

end FrameGraph
