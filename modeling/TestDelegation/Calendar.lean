/-!
Days of the Gregorian calendar, from the first day of the year zero on. Main definitions:
`Date.dayNumber` and `Date.ofDayNumber`.
-/

namespace TestDelegation

def isLeapYear (year : Nat) : Bool :=
  year % 4 == 0 && (year % 100 != 0 || year % 400 == 0)

def daysInMonth (year month : Nat) : Nat :=
  if month == 2 then (if isLeapYear year then 29 else 28)
  else if [4, 6, 9, 11].contains month then 30
  else 31

def daysBeforeYear (year : Nat) : Nat :=
  365 * year + (year + 3) / 4 - (year + 99) / 100 + (year + 399) / 400

structure Date where
  year : Nat
  month : Nat
  day : Nat
  deriving DecidableEq

namespace Date

def isValid (date : Date) : Bool :=
  1 ≤ date.month && date.month ≤ 12 && 1 ≤ date.day &&
    date.day ≤ daysInMonth date.year date.month

def daysBeforeMonth (year month : Nat) : Nat :=
  (List.range (month - 1)).foldl (fun days index => days + daysInMonth year (index + 1)) 0

def dayNumber (date : Date) : Nat :=
  daysBeforeYear date.year + daysBeforeMonth date.year date.month + (date.day - 1)

/-- The year that holds a day: 400 years have 146097 days, so the estimate is off by one at most. -/
def yearOfDayNumber (number : Nat) : Nat :=
  let estimate := number * 400 / 146097
  if daysBeforeYear (estimate + 1) ≤ number then estimate + 1
  else if number < daysBeforeYear estimate then estimate - 1
  else estimate

def ofDayOfYear (year : Nat) (left month day : Nat) : Date :=
  match left with
  | 0 => ⟨year, month, day + 1⟩
  | left + 1 =>
    if day < daysInMonth year month then ⟨year, month, day + 1⟩
    else ofDayOfYear year left (month + 1) (day - daysInMonth year month)

def ofDayNumber (number : Nat) : Date :=
  let year := yearOfDayNumber number
  ofDayOfYear year 11 1 (number - daysBeforeYear year)

end Date

end TestDelegation
