/-! # Shortest decimals

A finite float stands for all reals that round to it. Its decimal text is the one with the fewest
significant digits among the decimals in that range, and among those the one nearest to the float;
of two equally near ones the larger. Everything is exact arithmetic on naturals. The text is always
positional: no exponent, no point after a whole number.
-/

namespace Reconciler.Decimal

/-- The reals that round to a positive float, as numerators over one common denominator. The ends
round to the float as well if the range is closed. -/
structure Range where
  low : Nat
  mid : Nat
  high : Nat
  denominator : Nat
  closed : Bool
deriving DecidableEq, Repr

/-- The number of explicit bits of a float's significand. -/
def significandBits : Nat := 52

/-- The range of `significand * 2 ^ exponent`. The gap below a power of two is half the gap above
it, except at the smallest exponent; a range is closed if the significand is even. -/
def Range.ofBinary (significand : Nat) (exponent : Int) (narrowBelow : Bool) : Range :=
  let scale := if exponent < 0 then 1 else Nat.pow 2 exponent.toNat
  { low := (4 * significand - if narrowBelow then 1 else 2) * scale
    mid := 4 * significand * scale
    high := (4 * significand + 2) * scale
    denominator := 4 * Nat.pow 2 (-exponent).toNat
    closed := significand % 2 == 0 }

/-- The range in units of `10 ^ power`. -/
def Range.inUnits (range : Range) (power : Int) : Range :=
  let up := Nat.pow 10 (-power).toNat
  { range with
    low := range.low * up
    mid := range.mid * up
    high := range.high * up
    denominator := range.denominator * Nat.pow 10 power.toNat }

def Range.contains (range : Range) (whole : Nat) : Bool :=
  let point := whole * range.denominator
  if range.closed then range.low ≤ point && point ≤ range.high
  else range.low < point && point < range.high

/-- The whole number in the range that is nearest to its middle. Only the two neighbours of the
middle need a look, for if any whole number is in the range then one of them is. -/
def Range.nearest? (range : Range) : Option Nat :=
  let below := range.mid / range.denominator
  let rest := range.mid % range.denominator
  let above := below + 1
  match range.contains below, range.contains above with
  | true, true => some (if 2 * rest < range.denominator then below else above)
  | true, false => some below
  | false, true => some above
  | false, false => none

/-- The position of the first significant digit: the `e` with `10 ^ e ≤ mid < 10 ^ (e + 1)`. -/
def Range.leadingPower (range : Range) : Int :=
  if range.denominator ≤ range.mid then
    ((Nat.toDigits 10 (range.mid / range.denominator)).length : Int) - 1
  else
    -((Nat.toDigits 10 ((range.denominator - 1) / range.mid)).length : Int)

/-- The digits and their unit of the shortest decimal in the range. Seventeen digits tell any two
floats apart, so the search always ends with an answer. -/
def Range.shortest (range : Range) : Nat × Int :=
  let lead := range.leadingPower
  let candidate (digits : Nat) : Option (Nat × Int) :=
    let power := lead - digits
    ((range.inUnits power).nearest?).map (fun whole => (whole, power))
  ((List.range 17).findSome? candidate).getD (0, 0)

/-- Write `whole * 10 ^ power` without an exponent. -/
def positional (whole : Nat) (power : Int) : String :=
  let digits := Nat.toDigits 10 whole
  if 0 ≤ power then String.ofList (digits ++ List.replicate power.toNat '0')
  else
    let places := (-power).toNat
    let padded := List.replicate (places + 1 - digits.length) '0' ++ digits
    let cut := padded.length - places
    let fraction := ((padded.drop cut).reverse.dropWhile (· == '0')).reverse
    let head := String.ofList (padded.take cut)
    if fraction.isEmpty then head else head ++ "." ++ String.ofList fraction

/-- The text of the float with the given bits. -/
def ofBits (bits : UInt64) : String :=
  let word := bits.toNat
  let negative := word / Nat.pow 2 63 == 1
  let biased := word / Nat.pow 2 significandBits % Nat.pow 2 11
  let fraction := word % Nat.pow 2 significandBits
  if biased == 2047 then
    if fraction != 0 then "NaN" else if negative then "-inf" else "inf"
  else
    let sign := if negative then "-" else ""
    if biased == 0 && fraction == 0 then sign ++ "0"
    else
      let significand := if biased == 0 then fraction else fraction + Nat.pow 2 significandBits
      let exponent : Int := (if biased == 0 then 1 else biased : Nat) - 1075
      let range := Range.ofBinary significand exponent (fraction == 0 && 1 < biased)
      let (whole, power) := range.shortest
      sign ++ positional whole power

end Reconciler.Decimal
