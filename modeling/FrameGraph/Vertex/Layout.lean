import FrameGraph.Vertex.Attribute

/-! # Packing vertex inputs into buffers

The locations of a shader's inputs, in declaration order, are dealt out to the declared bindings:
each takes as many as it asks for. Offsets start at zero in every binding, and the stride of a
binding is where its last location ends. What is left after the last declared binding goes into
one more. Positions are 32 bit words, and a sum that needs more is an error.
-/

namespace FrameGraph

set_option autoImplicit false

structure LocationSlot where
  location : Nat
  binding : Nat
  format : Format
  offset : Nat
  deriving DecidableEq

/-- One buffer: the bytes from one element to the next. -/
structure BufferSlot where
  binding : Nat
  stride : Nat
  rate : InputRate
  deriving DecidableEq

structure VertexLayout where
  buffers : List BufferSlot
  locations : List LocationSlot
  deriving DecidableEq, Inhabited

inductive PackingError where
  | emptyBinding (binding : Nat)
  | noFormat (location : Nat)
  /-- An input begins inside a binding and ends behind it. -/
  | straddling (binding expected consumed : Nat)
  /-- An offset, a location or the end of a binding does not fit into 32 bits. -/
  | wordOverflow
  deriving DecidableEq

def addWords (a b : Nat) : Except PackingError Nat :=
  if a + b < UInt32.size then .ok (a + b) else .error .wordOverflow

/-- A packing in progress: the next location, the first location of the open binding, and where
the next one starts in its buffer. The open binding has the number of the buffers closed so far. -/
structure Packing where
  layout : VertexLayout
  location : Nat
  first : Nat
  offset : Nat
  deriving DecidableEq

namespace Packing

def start : Packing := ⟨⟨[], []⟩, 0, 0, 0⟩

def binding (p : Packing) : Nat := p.layout.buffers.length

/-- Places the given number of columns of one format and size, one location each. -/
def placeColumns (format : Format) (size : Nat) : Nat → Packing → Except PackingError Packing
  | 0, p => .ok p
  | n + 1, p => do
    let slot : LocationSlot := ⟨p.location, p.binding, format, p.offset⟩
    let location ← addWords p.location 1
    let offset ← addWords p.offset size
    placeColumns format size n
      { p with
        layout := { p.layout with locations := p.layout.locations ++ [slot] }
        location := location
        offset := offset }

def closeBinding (p : Packing) (rate : InputRate) : Packing where
  layout := { p.layout with buffers := p.layout.buffers ++ [⟨p.binding, p.offset, rate⟩] }
  location := p.location
  first := p.location
  offset := 0

/-- Closes the open binding if it is declared and full. It must not be overfull. -/
def settle (declared : List VertexBinding) (p : Packing) : Except PackingError Packing :=
  match declared[p.binding]? with
  | none => .ok p
  | some b => do
    let stop ← addWords p.first b.count
    if p.location = stop then .ok (p.closeBinding b.rate)
    else if stop < p.location then
      .error (.straddling p.binding b.count (p.location - p.first))
    else .ok p

def place (declared : List VertexBinding) (p : Packing) (a : Attribute) :
    Except PackingError Packing :=
  match a.type.columns? with
  | none => .error (.noFormat p.location)
  | some (format, columns) => do
    settle declared (← placeColumns format (a.byteSize / columns) columns p)

/-- The rate of a binding that is closed at the end: its own, or that of the last declared
binding when it is none of them. -/
def lastRate (declared : List VertexBinding) (binding : Nat) : InputRate :=
  match declared[binding]? <|> declared.getLast? with
  | some b => b.rate
  | none => .perVertex

def finish (declared : List VertexBinding) (p : Packing) : VertexLayout :=
  if p.location = p.first then p.layout
  else (p.closeBinding (lastRate declared p.binding)).layout

end Packing

namespace VertexLayout

def pack (attributes : List Attribute) (declared : List VertexBinding) :
    Except PackingError VertexLayout :=
  match declared.findIdx? fun b => b.count = 0 with
  | some i => .error (.emptyBinding i)
  | none => do
    let p ← attributes.foldlM (Packing.place declared) Packing.start
    .ok (p.finish declared)

end VertexLayout

end FrameGraph
