import TestDelegation.Calendar
import TestDelegation.Decimal.Digits
import TestDelegation.Duration.Basic

/-!
Points in time with the offset of their place. Written as `2024-01-02T03:04:05.250+05:30`.
-/

namespace TestDelegation

/-- Local date and time of day; a leap second is the last one of its minute, with more nanos. -/
structure Timestamp where
  dayNumber : Nat
  secondOfDay : Nat
  nanos : Nat
  offsetMinutes : Int
  deriving DecidableEq

namespace Timestamp

open Decimal (isDigit padded valueOfDigits)

instance : Inhabited Timestamp := ⟨0, 0, 0, 0⟩

def after (timestamp : Timestamp) (span : Duration) : Timestamp :=
  let nanos := timestamp.nanos + span.nanos
  let seconds := timestamp.secondOfDay + span.seconds + nanos / Duration.nanosPerSecond
  { timestamp with
    dayNumber := timestamp.dayNumber + seconds / 86400
    secondOfDay := seconds % 86400
    nanos := nanos % Duration.nanosPerSecond }

def ofUnix (duration : Duration) : Timestamp :=
  let epoch : Timestamp := ⟨Date.dayNumber ⟨1970, 1, 1⟩, 0, 0, 0⟩
  epoch.after duration

def isLeapSecond (timestamp : Timestamp) : Bool :=
  Duration.nanosPerSecond ≤ timestamp.nanos

def yearChars (year : Nat) : List Char :=
  if 9999 < year then '+' :: padded 5 year else padded 4 year

def dateTimeChars (timestamp : Timestamp) : List Char :=
  let date := Date.ofDayNumber timestamp.dayNumber
  let second := timestamp.secondOfDay % 60 + (if timestamp.isLeapSecond then 1 else 0)
  yearChars date.year ++ '-' :: padded 2 date.month ++ '-' :: padded 2 date.day ++
    'T' :: padded 2 (timestamp.secondOfDay / 3600) ++
    ':' :: padded 2 (timestamp.secondOfDay / 60 % 60) ++ ':' :: padded 2 second

def offsetChars (minutes : Int) : List Char :=
  let amount := minutes.natAbs
  (if minutes < 0 then '-' else '+') :: padded 2 (amount / 60) ++ ':' :: padded 2 (amount % 60)

def fractionOfSecond (timestamp : Timestamp) : Nat := timestamp.nanos % Duration.nanosPerSecond

def fractionChars (fraction : Nat) : List Char :=
  if fraction == 0 then []
  else if fraction % 1000000 == 0 then '.' :: padded 3 (fraction / 1000000)
  else if fraction % 1000 == 0 then '.' :: padded 6 (fraction / 1000)
  else '.' :: padded 9 fraction

def display (timestamp : Timestamp) : String :=
  let offset :=
    if timestamp.offsetMinutes == 0 then ['Z'] else offsetChars timestamp.offsetMinutes
  String.ofList (timestamp.dateTimeChars ++ fractionChars timestamp.fractionOfSecond ++ offset)

def millisecondText (timestamp : Timestamp) : String :=
  String.ofList (timestamp.dateTimeChars ++
    '.' :: padded 3 (timestamp.fractionOfSecond / 1000000) ++
    offsetChars timestamp.offsetMinutes)

def takeField (count : Nat) (separator : Char → Bool) (chars : List Char) :
    Option (Nat × List Char) :=
  let digits := chars.take count
  match chars.drop count with
  | char :: rest =>
    if digits.length == count && digits.all isDigit && separator char then
      some (valueOfDigits digits, rest)
    else none
  | [] => none

def wholeNumber? (count : Nat) (chars : List Char) : Option Nat :=
  if chars.length == count && chars.all isDigit then some (valueOfDigits chars) else none

def offset? : List Char → Option Int
  | ['Z'] => some 0
  | ['z'] => some 0
  | sign :: rest => do
    let (hours, rest) ← takeField 2 (· == ':') rest
    let minutes ← wholeNumber? 2 rest
    if 23 < hours || 59 < minutes then none
    let amount : Int := hours * 60 + minutes
    if sign == '+' then return amount
    else if sign == '-' || sign == '\u2212' then return -amount
    else none
  | [] => none

def fraction? : List Char → Option (Nat × List Char)
  | '.' :: rest =>
    let digits := rest.takeWhile isDigit
    if digits.isEmpty then none
    else
      let places := (digits.take 9).length
      some (valueOfDigits (digits.take 9) * Nat.pow 10 (9 - places), rest.dropWhile isDigit)
  | chars => some (0, chars)

def parseChars? (chars : List Char) : Option Timestamp := do
  let (year, rest) ← takeField 4 (· == '-') chars
  let (month, rest) ← takeField 2 (· == '-') rest
  let (day, rest) ← takeField 2 (fun char => char == 'T' || char == 't' || char == ' ') rest
  let (hour, rest) ← takeField 2 (· == ':') rest
  let (minute, rest) ← takeField 2 (· == ':') rest
  let second ← wholeNumber? 2 (rest.take 2)
  let (fraction, rest) ← fraction? (rest.drop 2)
  let offset ← offset? rest
  let date : Date := ⟨year, month, day⟩
  if !date.isValid || 23 < hour || 59 < minute || 60 < second then none
  let leap := if second == 60 then Duration.nanosPerSecond else 0
  return {
    dayNumber := date.dayNumber
    secondOfDay := hour * 3600 + minute * 60 + min second 59
    nanos := fraction + leap
    offsetMinutes := offset }

def parse? (text : String) : Option Timestamp := parseChars? text.toList

end Timestamp

end TestDelegation
