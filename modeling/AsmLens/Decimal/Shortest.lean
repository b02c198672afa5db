/-!
The shortest decimal for a binary floating point number. Every double is
`significand * 2 ^ exponent`; the reals that round to it form an interval around it, closed when the
significand is even. Of the decimal grids `10 ^ k` the search takes the coarsest that has a point in
the interval, and of its points the one nearest to the number.
-/

namespace AsmLens.Decimal

/-- A finite double without its sign. -/
structure Binary where
  significand : Nat
  exponent : Int
  /-- Whether the next smaller double is only half as far away as the next larger one. -/
  narrowBelow : Bool
  deriving DecidableEq, Repr

/-- The number `digits * 10 ^ exponent`. -/
structure Digits where
  digits : Nat
  exponent : Int
  deriving DecidableEq, Repr

namespace Binary

/-- The magnitude of a finite double, read off its bits. -/
def ofBits (bits : UInt64) : Binary :=
  let fraction := (bits &&& 0xfffffffffffff).toNat
  let field := ((bits >>> 52) &&& 0x7ff).toNat
  if field = 0 then ⟨fraction, -1074, false⟩
  else ⟨fraction + Nat.pow 2 52, (field : Int) - 1075, fraction = 0 && 1 < field⟩

/-- A quarter of the distance to the next larger double, as a fraction. -/
def quarter (b : Binary) : Nat × Nat :=
  if 2 ≤ b.exponent then (Nat.pow 2 (b.exponent - 2).toNat, 1)
  else (1, Nat.pow 2 (2 - b.exponent).toNat)

/-- Where `point * 10 ^ k` lies from the number: the two as multiples of one unit, the number first,
and then the width of the interval below and above in that unit. -/
def compare (b : Binary) (point : Nat) (k : Int) : Nat × Nat × Nat × Nat :=
  let (num, den) := b.quarter
  let (up, down) := if 0 ≤ k then (Nat.pow 10 k.toNat, 1) else (1, Nat.pow 10 (-k).toNat)
  let unit := num * down
  (4 * b.significand * unit, point * up * den, (if b.narrowBelow then 1 else 2) * unit, 2 * unit)

/-- Whether `point * 10 ^ k` rounds to the number. -/
def holds (b : Binary) (point : Nat) (k : Int) : Bool :=
  let (value, place, below, above) := b.compare point k
  if b.significand % 2 = 0 then value ≤ place + below && place ≤ value + above
  else value < place + below && place < value + above

/-- The point of the grid `10 ^ k` just below the number, or on it. -/
def floorPoint (b : Binary) (k : Int) : Nat :=
  let (value, unit, _, _) := b.compare 1 k
  value / unit

/-- Whether the point after `point` is nearer than `point`, an exact tie going to the even one. -/
def roundsUp (b : Binary) (point : Nat) (k : Int) : Bool :=
  let (value, low, _, _) := b.compare point k
  let (_, high, _, _) := b.compare (point + 1) k
  high - value < value - low || (high - value = value - low && point % 2 = 1)

/-- The point of the grid that stands for the number, if it has one. -/
def pointOn? (b : Binary) (k : Int) : Option Nat :=
  let low := b.floorPoint k
  match b.holds low k, b.holds (low + 1) k with
  | true, true => some (if b.roundsUp low k then low + 1 else low)
  | true, false => some low
  | false, true => some (low + 1)
  | false, false => none

/-- Searches `steps` grids, from `10 ^ k` on to finer ones. -/
def searchGrids (b : Binary) (k : Int) : Nat → Digits
  | 0 => ⟨b.floorPoint k, k⟩
  | steps + 1 =>
      match b.pointOn? k with
      | some point => ⟨point, k⟩
      | none => searchGrids b (k - 1) steps

/-- The shortest decimal that reads back as the number. The grids run from the first power of ten
that no double reaches to the finest one that the smallest double needs. -/
def shortest (b : Binary) : Digits :=
  if b.significand = 0 then ⟨0, 0⟩ else searchGrids b 309 634

end Binary

end AsmLens.Decimal
