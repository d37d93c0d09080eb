import TestDelegation.Decimal.Digits
import TestDelegation.Decimal.Shortest

/-!
Lengths of time in nanoseconds, and their texts.
-/

namespace TestDelegation

structure Duration where
  nanoseconds : Nat
  deriving DecidableEq

namespace Duration

def nanosPerSecond : Nat := 1000000000

def zero : Duration := ⟨0⟩

instance : Inhabited Duration := ⟨zero⟩

def ofSeconds (seconds : Nat) : Duration := ⟨seconds * nanosPerSecond⟩

def new (seconds nanos : Nat) : Duration := ⟨seconds * nanosPerSecond + nanos⟩

def seconds (duration : Duration) : Nat := duration.nanoseconds / nanosPerSecond

def nanos (duration : Duration) : Nat := duration.nanoseconds % nanosPerSecond

def since (later earlier : Duration) : Duration := ⟨later.nanoseconds - earlier.nanoseconds⟩

def part (value : Nat) (unit : String) : Option String :=
  if value == 0 then none else some (Decimal.natText value ++ unit)

def namedPart (value : Nat) (unit : String) : Option String :=
  part value (if 1 < value then unit ++ "s" else unit)

def secondsPerYear : Nat := 31557600
def secondsPerMonth : Nat := 2630016
def secondsPerDay : Nat := 86400

def display (duration : Duration) : String :=
  let inYear := duration.seconds % secondsPerYear
  let inMonth := inYear % secondsPerMonth
  let inDay := inMonth % secondsPerDay
  let nanos := duration.nanos
  let parts :=
    [namedPart (duration.seconds / secondsPerYear) "year",
      namedPart (inYear / secondsPerMonth) "month", namedPart (inMonth / secondsPerDay) "day",
      part (inDay / 3600) "h", part (inDay / 60 % 60) "m", part (inDay % 60) "s",
      part (nanos / 1000000) "ms", part (nanos / 1000 % 1000) "us", part (nanos % 1000) "ns"]
  match parts.filterMap id with
  | [] => "0s"
  | parts => String.intercalate " " parts

def decimalText (whole places fraction : Nat) : String :=
  let digits := (Decimal.padded places fraction).reverse.dropWhile (· == '0')
  if digits.isEmpty then Decimal.natText whole
  else Decimal.natText whole ++ "." ++ String.ofList digits.reverse

/-- One number in the largest of the units seconds, milli-, micro- and nanoseconds. -/
def logText (duration : Duration) : String :=
  let nanos := duration.nanos
  if 0 < duration.seconds then decimalText duration.seconds 9 nanos ++ "s"
  else if 1000000 ≤ nanos then decimalText (nanos / 1000000) 6 (nanos % 1000000) ++ "ms"
  else if 1000 ≤ nanos then decimalText (nanos / 1000) 3 (nanos % 1000) ++ "µs"
  else Decimal.natText nanos ++ "ns"

/-- The seconds as a floating point number: both parts rounded, then their sum. -/
def secondsMagnitude (duration : Duration) : Decimal.Magnitude :=
  let whole := (Decimal.roundRatio duration.seconds 1).getD .zero
  let fraction := (Decimal.roundRatio duration.nanos nanosPerSecond).getD .zero
  (whole.add fraction).getD .zero

def secondsText (duration : Duration) : String :=
  String.ofList (duration.secondsMagnitude.fixedChars 3)

end Duration

end TestDelegation
