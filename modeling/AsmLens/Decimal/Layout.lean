import AsmLens.Decimal.Shortest

/-!
The written form of a decimal. A `Layout` says how far the point may lie from the digits before an
exponent is written instead; a positional number always has digits on both sides of the point.
-/

namespace AsmLens.Decimal

/-- Where positional writing ends, and how exponents are written. The point is counted from the left
end of the digits. -/
structure Layout where
  /-- Positions of the point up to this one call for an exponent. -/
  smallest : Int
  /-- Positions of the point beyond this one call for an exponent. -/
  largest : Int
  /-- Whether an exponent that is not negative has a sign. -/
  signed : Bool
  deriving DecidableEq, Repr

namespace Layout

/-- Writes a number that is not negative. -/
def magnitude (layout : Layout) (d : Digits) : String :=
  if d.digits = 0 then "0.0"
  else
    let digits := Nat.toDigits 10 d.digits
    let point := (digits.length : Int) + d.exponent
    let zeros (n : Int) := List.replicate n.toNat '0'
    if layout.smallest < point && point ≤ layout.largest then
      if 0 ≤ d.exponent then String.ofList (digits ++ zeros d.exponent) ++ ".0"
      else if 0 < point then
        String.ofList (digits.take point.toNat ++ '.' :: digits.drop point.toNat)
      else "0." ++ String.ofList (zeros (-point) ++ digits)
    else
      let mantissa := if digits.length = 1 then digits else digits.take 1 ++ '.' :: digits.drop 1
      let sign := if layout.signed && 0 ≤ point - 1 then "+" else ""
      String.ofList mantissa ++ "e" ++ sign ++ toString (point - 1)

/-- Writes a finite double. -/
def render (layout : Layout) (x : Float) : String :=
  let bits := x.toBits
  let sign := if bits >>> 63 = 0 then "" else "-"
  sign ++ layout.magnitude (Binary.ofBits bits).shortest

end Layout

end AsmLens.Decimal
