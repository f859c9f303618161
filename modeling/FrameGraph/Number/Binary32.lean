/-! # Single precision numbers

A number is kept as its 32 bits: a sign, eight bits of biased exponent and a 23 bit fraction.
Nothing is rounded except where a natural number is brought into the format.
-/

namespace FrameGraph

set_option autoImplicit false

structure Binary32 where
  bits : BitVec 32
  deriving DecidableEq

namespace Binary32

def zero : Binary32 := ⟨0⟩

def one : Binary32 := ⟨0x3f800000#32⟩

instance : Inhabited Binary32 := ⟨zero⟩

def negative (x : Binary32) : Bool := x.bits.getLsbD 31

def biasedExponent (x : Binary32) : Nat := (x.bits.toNat >>> 23) % 256

def fraction (x : Binary32) : Nat := x.bits.toNat % (1 <<< 23)

/-- The bits below the sign, which order the magnitudes. -/
def magnitude (x : Binary32) : Nat := x.bits.toNat % (1 <<< 31)

def isNaN (x : Binary32) : Bool := x.biasedExponent = 255 && x.fraction ≠ 0

def isInfinite (x : Binary32) : Bool := x.biasedExponent = 255 && x.fraction = 0

def isZero (x : Binary32) : Bool := x.magnitude = 0

/-- Equality of numbers: a NaN equals nothing, and the two zeros are equal. -/
def numEq (x y : Binary32) : Bool :=
  !x.isNaN && !y.isNaN && (x.bits == y.bits || x.isZero && y.isZero)

/-- The magnitude of a finite number as `m * 2 ^ (q - 149)`, given as `(m, q)`. -/
def significand (x : Binary32) : Nat × Nat :=
  if x.biasedExponent = 0 then (x.fraction, 0)
  else ((1 <<< 23) + x.fraction, x.biasedExponent - 1)

/-- Divides by `2 ^ s` and rounds to the nearest integer, a tie to the even one. -/
def roundShift (n s : Nat) : Nat :=
  let q := n >>> s
  let r := n % (1 <<< s)
  if 2 * r < 1 <<< s then q
  else if 1 <<< s < 2 * r then q + 1
  else q + q % 2

/-- The nearest number to a natural number below `2 ^ 64`, a tie to the even fraction. A
significand that rounds up to `2 ^ 24` carries into the exponent. -/
def ofNat (n : Nat) : Binary32 :=
  if n = 0 then zero
  else
    let k := n.log2
    let m := if k ≤ 23 then n <<< (23 - k) else roundShift n (k - 23)
    ⟨BitVec.ofNat 32 (((k + 126) <<< 23) + m)⟩

end Binary32

end FrameGraph
