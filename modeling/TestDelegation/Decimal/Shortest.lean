import TestDelegation.Decimal.Digits
import TestDelegation.Decimal.Binary64

/-!
Binary floating point numbers as decimal text: the fewest digits that read back, and a fixed
number of places.
-/

namespace TestDelegation.Decimal

structure DecimalNumber where
  significand : Nat
  exponent : Int

structure RoundingInterval where
  low : Nat
  value : Nat
  high : Nat
  closed : Bool

def Magnitude.interval (magnitude : Magnitude) : RoundingInterval :=
  let value := 4 * magnitude.significand
  let low :=
    if magnitude.significand == Nat.pow 2 52 && leastExponent < magnitude.exponent then value - 1
    else value - 2
  ⟨low, value, value + 2, magnitude.significand % 2 == 0⟩

def leadingExponent (numerator denominator : Nat) : Int :=
  if denominator ≤ numerator then ((digits (numerator / denominator)).length : Int) - 1
  else -(downFrom 400 (numerator * 10) 1 : Int)
where
  downFrom : Nat → Nat → Nat → Nat
    | 0, _, places => places
    | fuel + 1, scaled, places =>
      if denominator ≤ scaled then places else downFrom fuel (scaled * 10) (places + 1)

def hitWith (magnitude : Magnitude) (leading : Int) (count : Nat) : Option DecimalNumber :=
  let interval := magnitude.interval
  let grid := leading - (count : Int) + 1
  let (binaryUp, binaryDown) := scaledRatio 1 1 (magnitude.exponent - 2)
  let (decimalUp, decimalDown) : Nat × Nat :=
    if 0 ≤ grid then (Nat.pow 10 grid.toNat, 1) else (1, Nat.pow 10 (-grid).toNat)
  -- a grid point `n` stands for `n * step`, a quarter `q` for `q * unit`
  let step := decimalUp * binaryDown
  let unit := binaryUp * decimalDown
  let below := interval.value * unit / step
  let inside (point : Nat) : Bool :=
    if interval.closed then
      decide (interval.low * unit ≤ point * step) && decide (point * step ≤ interval.high * unit)
    else
      decide (interval.low * unit < point * step) && decide (point * step < interval.high * unit)
  let gapBelow := interval.value * unit - below * step
  let gapAbove := (below + 1) * step - interval.value * unit
  let nearer := if gapAbove < gapBelow || (gapAbove == gapBelow && below % 2 == 1) then below + 1
    else below
  if inside nearer then some ⟨nearer, grid⟩
  else if inside below then some ⟨below, grid⟩
  else if inside (below + 1) then some ⟨below + 1, grid⟩
  else none

def withoutTrailingZerosFrom : Nat → DecimalNumber → DecimalNumber
  | 0, number => number
  | fuel + 1, number =>
    if number.significand != 0 && number.significand % 10 == 0 then
      withoutTrailingZerosFrom fuel ⟨number.significand / 10, number.exponent + 1⟩
    else number

/-- The fewest digits that read back as this magnitude, and of those the nearest. -/
def Magnitude.shortest (magnitude : Magnitude) : DecimalNumber :=
  if magnitude.significand == 0 then ⟨0, 0⟩
  else
    let (above, below) := scaledRatio magnitude.significand 1 magnitude.exponent
    let leading := leadingExponent above below
    let hit := (List.range 17).findSome? fun count => hitWith magnitude leading (count + 1)
    withoutTrailingZerosFrom 20 (hit.getD ⟨magnitude.significand, magnitude.exponent⟩)

def DecimalNumber.positional (number : DecimalNumber) : List Char :=
  if 0 ≤ number.exponent then
    if number.significand == 0 then ['0']
    else digits number.significand ++ List.replicate number.exponent.toNat '0'
  else
    let places := (-number.exponent).toNat
    let all := padded (places + 1) number.significand
    all.take (all.length - places) ++ '.' :: all.drop (all.length - places)

def DecimalNumber.scientific (number : DecimalNumber) : List Char :=
  let all := digits number.significand
  let exponent := number.exponent + (all.length : Int) - 1
  let fraction := if all.length ≤ 1 then [] else '.' :: all.drop 1
  let sign := if exponent < 0 then '-' else '+'
  all.take 1 ++ fraction ++ ['e', sign] ++ padded 2 exponent.natAbs

def signChars (negative : Bool) : List Char :=
  if negative then ['-'] else []

/--
Text of a JSON number that is not an integer: positional, with at least one place, while the
leading digit stands from five places behind the point to sixteen before it.
-/
def Binary64.jsonChars (number : Binary64) : List Char :=
  let shortest := number.magnitude.shortest
  let leading := shortest.exponent + ((digits shortest.significand).length : Int) - 1
  signChars number.negative ++
    if -5 ≤ leading && leading ≤ 15 then
      shortest.positional ++ if 0 ≤ shortest.exponent then ['.', '0'] else []
    else shortest.scientific

def Binary64.plainChars (number : Binary64) : List Char :=
  signChars number.negative ++ number.magnitude.shortest.positional

def Magnitude.fixedChars (magnitude : Magnitude) (places : Nat) : List Char :=
  let (above, below) :=
    scaledRatio (magnitude.significand * Nat.pow 10 places) 1 magnitude.exponent
  let all := padded (places + 1) (roundedQuotient above below)
  if places == 0 then all
  else all.take (all.length - places) ++ '.' :: all.drop (all.length - places)

end TestDelegation.Decimal
