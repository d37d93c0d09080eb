/-!
Binary floating point numbers of 64 bits as whole numbers times powers of two, with rounding to
the nearest, a tie going to the even neighbour.
-/

namespace TestDelegation.Decimal

/-- The number `significand * 2 ^ exponent`, with a significand of at most 53 bits. -/
structure Magnitude where
  significand : Nat
  exponent : Int
  deriving DecidableEq

structure Binary64 where
  negative : Bool
  magnitude : Magnitude
  deriving DecidableEq

def leastExponent : Int := -1074

def Magnitude.zero : Magnitude := ⟨0, leastExponent⟩

def scaledRatio (numerator denominator : Nat) (exponent : Int) : Nat × Nat :=
  if 0 ≤ exponent then (numerator * Nat.pow 2 exponent.toNat, denominator)
  else (numerator, denominator * Nat.pow 2 (-exponent).toNat)

def roundedQuotient (numerator denominator : Nat) : Nat :=
  let quotient := numerator / denominator
  let twice := 2 * (numerator % denominator)
  if denominator < twice || (twice == denominator && quotient % 2 == 1) then quotient + 1
  else quotient

def fittingExponent (numerator denominator : Nat) : Int :=
  let difference := (numerator.log2 : Int) - denominator.log2
  let (above, below) := scaledRatio numerator denominator (-difference)
  let exponent := if below ≤ above then difference - 52 else difference - 53
  max exponent leastExponent

def roundRatio (numerator denominator : Nat) : Option Magnitude :=
  if numerator == 0 then some Magnitude.zero
  else
    let exponent := fittingExponent numerator denominator
    let (above, below) := scaledRatio numerator denominator (-exponent)
    let significand := roundedQuotient above below
    let rounded : Magnitude :=
      if significand == Nat.pow 2 53 then ⟨Nat.pow 2 52, exponent + 1⟩
      else ⟨significand, exponent⟩
    if 971 < rounded.exponent then none else some rounded

def Magnitude.multiply (left right : Magnitude) : Option Magnitude :=
  let (above, below) :=
    scaledRatio (left.significand * right.significand) 1 (left.exponent + right.exponent)
  roundRatio above below

def Magnitude.divide (left right : Magnitude) : Option Magnitude :=
  let (above, below) :=
    scaledRatio left.significand right.significand (left.exponent - right.exponent)
  roundRatio above below

def Magnitude.add (left right : Magnitude) : Option Magnitude :=
  let exponent := min left.exponent right.exponent
  let sum := left.significand * Nat.pow 2 (left.exponent - exponent).toNat +
    right.significand * Nat.pow 2 (right.exponent - exponent).toNat
  let (above, below) := scaledRatio sum 1 exponent
  roundRatio above below

def powerOfTen (exponent : Nat) : Magnitude :=
  (roundRatio (Nat.pow 10 exponent) 1).getD Magnitude.zero

def largestPower : Nat := 308

/--
Scales by a power of ten with one rounded multiplication or division for each power of ten that
is itself in range; none if the result is too large.
-/
def Magnitude.scaleByTenFrom : Nat → Magnitude → Int → Option Magnitude
  | 0, _, _ => some Magnitude.zero
  | fuel + 1, value, exponent =>
    if exponent.natAbs ≤ largestPower then
      if 0 ≤ exponent then value.multiply (powerOfTen exponent.natAbs)
      else value.divide (powerOfTen exponent.natAbs)
    else if value.significand == 0 then some value
    else if 0 ≤ exponent then none
    else
      match value.divide (powerOfTen largestPower) with
      | none => none
      | some smaller => smaller.scaleByTenFrom fuel (exponent + largestPower)

/-- A decimal number read in two rounded steps: the significand, then its power of ten. -/
def twoStepDecimal (significand : Nat) (exponent : Int) : Option Magnitude :=
  match roundRatio significand 1 with
  | none => none
  | some value => value.scaleByTenFrom 4 exponent

def nearestDecimal (significand : Nat) (exponent : Int) : Option Magnitude :=
  if significand == 0 then some Magnitude.zero
  else if 400 < exponent then none
  else if exponent < -400 - ((digitCount significand : Nat) : Int) then some Magnitude.zero
  else if 0 ≤ exponent then roundRatio (significand * Nat.pow 10 exponent.toNat) 1
  else roundRatio significand (Nat.pow 10 (-exponent).toNat)
where
  digitCount (value : Nat) : Nat := value.log2 + 1

end TestDelegation.Decimal
