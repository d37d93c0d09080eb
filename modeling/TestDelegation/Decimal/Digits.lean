/-!
Whole numbers in decimal digits, written and read.
-/

namespace TestDelegation.Decimal

def digitChar (digit : Nat) : Char := Char.ofNat (0x30 + digit)

def isDigit (char : Char) : Bool := '0' ≤ char && char ≤ '9'

def digitValue (char : Char) : Nat := char.toNat - 0x30

def digitsFrom : Nat → Nat → List Char
  | 0, _ => []
  | fuel + 1, value =>
    if value < 10 then [digitChar value]
    else digitsFrom fuel (value / 10) ++ [digitChar (value % 10)]

def digits (value : Nat) : List Char := digitsFrom (value + 1) value

def integerChars : Int → List Char
  | .ofNat value => digits value
  | .negSucc value => '-' :: digits (value + 1)

def padded (width value : Nat) : List Char :=
  let plain := digits value
  List.replicate (width - plain.length) '0' ++ plain

def valueOfDigits (chars : List Char) : Nat :=
  chars.foldl (fun value char => value * 10 + digitValue char) 0

def natOfDigits? (chars : List Char) : Option Nat :=
  if !chars.isEmpty && chars.all isDigit then some (valueOfDigits chars) else none

def integerOfChars? : List Char → Option Int
  | '-' :: chars => (natOfDigits? chars).map fun value => -(value : Int)
  | '+' :: chars => (natOfDigits? chars).map fun value => (value : Int)
  | chars => (natOfDigits? chars).map fun value => (value : Int)

def natText (value : Nat) : String := String.ofList (digits value)

def integerText (value : Int) : String := String.ofList (integerChars value)

end TestDelegation.Decimal
