import FrameGraph.Number.Binary32

/-! # Shortest decimal text of a number

The digits come from the coarsest decimal grid that has a point among the reals which round to
the number. Of two such points the nearer one is taken, and the larger one when they are equally
near.
-/

namespace FrameGraph.Shortest

set_option autoImplicit false

/-- The number `digits * 10 ^ scale`. -/
structure Decimal where
  digits : Nat
  scale : Int
  deriving DecidableEq

/-- The reals that round to `middle`, all three in units of `2 ^ unit`. The ends belong to it
exactly when `closed`. -/
structure Cell where
  low : Nat
  middle : Nat
  high : Nat
  unit : Int
  closed : Bool
  deriving DecidableEq

/-- The cell of a finite number other than zero. Below a power of two the neighbour is half as
far away. -/
def cell (x : Binary32) : Cell :=
  let (m, q) := x.significand
  let low := if m = 1 <<< 23 ∧ 0 < q then 4 * m - 1 else 4 * m - 2
  ⟨low, 4 * m, 4 * m + 2, (q : Int) - 151, m % 2 = 0⟩

/-- One unit of the cell over one step `10 ^ scale` of the grid, as a quotient. -/
def ratio (unit scale : Int) : Nat × Nat :=
  (Nat.pow 10 (-scale).toNat <<< unit.toNat, Nat.pow 10 scale.toNat <<< (-unit).toNat)

/-- The point of the grid with step `10 ^ scale` that lies in the cell nearest to its middle. -/
def pointOn (c : Cell) (scale : Int) : Option Decimal :=
  let (num, den) := ratio c.unit scale
  let inside (d : Nat) : Bool :=
    if c.closed then c.low * num ≤ d * den && d * den ≤ c.high * num
    else c.low * num < d * den && d * den < c.high * num
  let d := c.middle * num / den
  let below := c.middle * num - d * den
  let above := (d + 1) * den - c.middle * num
  if inside d && (below < above || !inside (d + 1)) then some ⟨d, scale⟩
  else if inside (d + 1) then some ⟨d + 1, scale⟩
  else none

/-- The steps to try, from the coarsest: no number reaches `10 ^ 39`, and every number is a
multiple of `10 ^ -149`. -/
def scales : List Int := (List.range 189).map fun i : Nat => (39 : Int) - i

def decimal (x : Binary32) : Decimal :=
  ((scales.findSome? (pointOn (cell x)))).getD ⟨0, 0⟩

def zeros (n : Nat) : String := String.ofList (List.replicate n '0')

/-- The decimal written out, with at least one digit on either side of the point. -/
def positional (d : Decimal) : String :=
  let ds := Nat.toDigits 10 d.digits
  if 0 ≤ d.scale then String.ofList ds ++ zeros d.scale.toNat ++ ".0"
  else
    let places := (-d.scale).toNat
    if places < ds.length then
      String.ofList (ds.take (ds.length - places)) ++ "." ++
        String.ofList (ds.drop (ds.length - places))
    else "0." ++ zeros (places - ds.length) ++ String.ofList ds

/-- One digit before the point, which is left out when no digit follows it, and the exponent. -/
def scientific (d : Decimal) : String :=
  let ds := Nat.toDigits 10 d.digits
  let exponent := d.scale + (ds.length : Int) - 1
  let tail := if ds.length ≤ 1 then "" else "." ++ String.ofList (ds.drop 1)
  String.ofList (ds.take 1) ++ tail ++ "e" ++ toString exponent

/-- The bits of the least magnitude written out in full, `0.0001`. -/
def leastPositional : Nat := 0x38d1b717

/-- The bits of the least magnitude that is too large to be written out, `10 ^ 16`. -/
def leastLarge : Nat := 0x5a0e1bca

/-- The text of a number: shortest digits, always with a point when written out in full. -/
def text (x : Binary32) : String :=
  if x.isNaN then "NaN"
  else
    let sign := if x.negative then "-" else ""
    if x.isInfinite then sign ++ "inf"
    else if x.isZero then sign ++ "0.0"
    else if x.magnitude < leastPositional || leastLarge ≤ x.magnitude then
      sign ++ scientific (decimal x)
    else sign ++ positional (decimal x)

end FrameGraph.Shortest
