import TestDelegation.Calendar
import TestDelegation.Decimal.Digits

/-!
Dates and times of TOML: `1979-05-27`, `07:32:00.5`, or both with an offset. Main definition:
`moment?`, which brings them into normal form.
-/

namespace TestDelegation.Toml

open Decimal (isDigit padded valueOfDigits)

def takeNumber (count : Nat) (chars : List Char) : Option (Nat × List Char) :=
  let digits := chars.take count
  if digits.length == count && digits.all isDigit then
    some (valueOfDigits digits, chars.drop count)
  else none

def takeChar (expected : Char) : List Char → Option (List Char)
  | char :: rest => if char == expected then some rest else none
  | [] => none

def takeDate (chars : List Char) : Option (List Char × List Char) := do
  let (year, rest) ← takeNumber 4 chars
  let (month, rest) ← takeNumber 2 (← takeChar '-' rest)
  let (day, rest) ← takeNumber 2 (← takeChar '-' rest)
  if Date.isValid ⟨year, month, day⟩ then
    return (padded 4 year ++ '-' :: padded 2 month ++ '-' :: padded 2 day, rest)
  else none

def normalFraction (digits : List Char) : List Char :=
  match (digits.take 9).reverse.dropWhile (· == '0') with
  | [] => ['0']
  | reversed => reversed.reverse

def takeFraction (chars : List Char) : Option (List Char × List Char) :=
  match chars with
  | '.' :: rest =>
    let digits := rest.takeWhile isDigit
    if digits.isEmpty then none
    else some ('.' :: normalFraction digits, rest.dropWhile isDigit)
  | _ => some ([], chars)

def takeSeconds (chars : List Char) : Option (List Char × List Char) :=
  match chars with
  | ':' :: rest => do
    let (second, rest) ← takeNumber 2 rest
    if 60 < second then none
    let (fraction, rest) ← takeFraction rest
    return (':' :: padded 2 second ++ fraction, rest)
  | _ => some ([], chars)

def takeTime (chars : List Char) : Option (List Char × List Char) := do
  let (hour, rest) ← takeNumber 2 chars
  let (minute, rest) ← takeNumber 2 (← takeChar ':' rest)
  if 23 < hour || 59 < minute then none
  let (seconds, rest) ← takeSeconds rest
  return (padded 2 hour ++ ':' :: padded 2 minute ++ seconds, rest)

def offset? : List Char → Option (List Char)
  | [] => some []
  | ['Z'] => some ['Z']
  | ['z'] => some ['Z']
  | sign :: rest => do
    if sign != '+' && sign != '-' then none
    let (hour, rest) ← takeNumber 2 rest
    let (minute, rest) ← takeNumber 2 (← takeChar ':' rest)
    if 23 < hour || 59 < minute || !rest.isEmpty then none
    let shown := if hour == 0 && minute == 0 then '+' else sign
    return shown :: padded 2 hour ++ ':' :: padded 2 minute

def moment? (chars : List Char) : Option String :=
  match takeDate chars with
  | none =>
    match takeTime chars with
    | some (time, []) => some (String.ofList time)
    | _ => none
  | some (date, []) => some (String.ofList date)
  | some (date, separator :: rest) => do
    if separator != 'T' && separator != 't' && separator != ' ' then none
    let (time, rest) ← takeTime rest
    return String.ofList (date ++ 'T' :: time ++ (← offset? rest))

end TestDelegation.Toml
