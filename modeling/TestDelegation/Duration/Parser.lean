import TestDelegation.Duration.Basic
import TestDelegation.Text.Strip

/-!
Durations written as spans of a number and a unit, such as `1h 30m` or `1.5s`. Blanks may stand
between digits, before the unit and between spans. Main definition: `Duration.parse?`.
-/

namespace TestDelegation

inductive TimeUnit where
  | nanosecond | microsecond | millisecond | second | minute | hour | day | week | month | year
  deriving DecidableEq

namespace TimeUnit

def names : TimeUnit → List String
  | .nanosecond => ["nanos", "nsec", "ns"]
  | .microsecond => ["usec", "us", "µs"]
  | .millisecond => ["millis", "msec", "ms"]
  | .second => ["seconds", "second", "secs", "sec", "s"]
  | .minute => ["minutes", "minute", "min", "mins", "m"]
  | .hour => ["hours", "hour", "hr", "hrs", "h"]
  | .day => ["days", "day", "d"]
  | .week => ["weeks", "week", "wk", "wks", "w"]
  | .month => ["months", "month", "M"]
  | .year => ["years", "year", "yr", "yrs", "y"]

def all : List TimeUnit :=
  [.nanosecond, .microsecond, .millisecond, .second, .minute, .hour, .day, .week, .month, .year]

def ofName? (name : String) : Option TimeUnit := all.find? fun unit => unit.names.contains name

def factor : TimeUnit → Nat
  | .nanosecond => 1
  | .microsecond => 1000
  | .millisecond => 1000000
  | .second => 1
  | .minute => 60
  | .hour => 3600
  | .day => Duration.secondsPerDay
  | .week => 7 * Duration.secondsPerDay
  | .month => Duration.secondsPerMonth
  | .year => Duration.secondsPerYear

def belowSecond : TimeUnit → Bool
  | .nanosecond | .microsecond | .millisecond => true
  | _ => false

/-- The unit in nanoseconds, if a fraction of it is measured in those and not in seconds. -/
def fractionNanos? : TimeUnit → Option Nat
  | .microsecond => some 1000
  | .millisecond => some 1000000
  | .second => some 1000000000
  | .minute => some 60000000000
  | _ => none

end TimeUnit

namespace Duration

def fieldLimit : Nat := Nat.pow 2 64

def checked (value : Nat) : Option Nat := if value < fieldLimit then some value else none

def add? (duration : Duration) (seconds nanos : Nat) : Option Duration := do
  let nanos ← checked (duration.nanos + nanos)
  let seconds ← checked (seconds + nanos / nanosPerSecond)
  let total ← checked (duration.seconds + seconds)
  return new total (nanos % nanosPerSecond)

structure Fraction where
  numerator : Nat
  denominator : Nat

/-- A fraction must come out whole, in nanoseconds up to minutes and in seconds from hours up. -/
def addFraction? (duration : Duration) (unit : TimeUnit) (fraction : Fraction) :
    Option Duration := do
  if unit == .nanosecond then none
  let scale := unit.fractionNanos?.getD unit.factor
  let product ← checked (fraction.numerator * scale)
  if product % fraction.denominator != 0 then none
  let value := product / fraction.denominator
  if unit.fractionNanos?.isSome then duration.add? 0 value else duration.add? value 0

def addSpan? (duration : Duration) (number : Nat) (fraction : Option Fraction)
    (unit : TimeUnit) : Option Duration := do
  let value ← checked (number * unit.factor)
  let sum ← if unit.belowSecond then duration.add? 0 value else duration.add? value 0
  match fraction with
  | none => return sum
  | some fraction => sum.addFraction? unit fraction

def isUnitChar (char : Char) : Bool :=
  ('a' ≤ char && char ≤ 'z') || ('A' ≤ char && char ≤ 'Z') || char == 'µ'

def readDigits (value count : Nat) : List Char → Option (Nat × Nat × List Char)
  | [] => some (value, count, [])
  | char :: rest =>
    if Decimal.isDigit char then do
      let next ← checked (value * 10 + Decimal.digitValue char)
      readDigits next (count + 1) rest
    else if Text.isBlank char then readDigits value count rest
    else some (value, count, char :: rest)

def readFraction (chars : List Char) : Option (Fraction × List Char) := do
  let (numerator, count, rest) ← readDigits 0 0 chars
  let denominator ← checked (Nat.pow 10 count)
  if count == 0 then none else some (⟨numerator, denominator⟩, rest)

def readNumber (chars : List Char) : Option (Nat × Option Fraction × List Char) := do
  match ← readDigits 0 0 chars with
  | (number, _, '.' :: rest) =>
    let (fraction, rest) ← readFraction rest
    return (number, some fraction, rest)
  | (number, _, rest) => return (number, none, rest)

def parseSpans : Nat → Duration → List Char → Option Duration
  | 0, _, _ => none
  | fuel + 1, duration, chars =>
    match chars.dropWhile Text.isBlank with
    | [] => none
    | first :: later => do
      if !Decimal.isDigit first then none
      let (number, fraction, rest) ← readNumber (first :: later)
      let unit ← TimeUnit.ofName? (String.ofList (rest.takeWhile isUnitChar))
      let sum ← duration.addSpan? number fraction unit
      let after := (rest.dropWhile isUnitChar).dropWhile Text.isBlank
      if after.isEmpty then return sum else parseSpans fuel sum after

def parse? (text : String) : Option Duration :=
  if text == "0" then some zero else parseSpans (text.length + 1) zero text.toList

end Duration

end TestDelegation
