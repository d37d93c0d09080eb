import TestDelegation.Decimal.Digits
import TestDelegation.Json.Scan

/-!
JSON texts scanned from left to right. Main definitions: `scan`, which never fails but records
where the text breaks, and `parse`, which accepts whole values only.
-/

namespace TestDelegation.Json

open Decimal (isDigit digitValue)

def isSpace (char : Char) : Bool :=
  char == ' ' || char == '\t' || char == '\n' || char == '\r'

def dropSpaces (chars : List Char) : List Char := chars.dropWhile isSpace

def unsignedLimit : Nat := Nat.pow 2 64

/-- Takes digits while the number fits 64 bits; also the count of digits left over. -/
def significantDigits : Nat → List Char → Nat × Nat
  | significand, [] => (significand, 0)
  | significand, digit :: rest =>
    let next := significand * 10 + digitValue digit
    if next < unsignedLimit then significantDigits next rest
    else (significand, rest.length + 1)

structure NumberText where
  negative : Bool
  whole : List Char
  fraction : List Char
  exponentNegative : Bool
  exponent : List Char

def NumberText.real (text : NumberText) : Except Fault Numeral :=
  let (wholeSignificand, wholeDropped) := significantDigits 0 text.whole
  let (significand, fractionDropped) := significantDigits wholeSignificand text.fraction
  let magnitude : Int := (Decimal.valueOfDigits text.exponent : Nat)
  let exponent : Int := if text.exponentNegative then -magnitude else magnitude
  let places : Int := (text.fraction.length : Int) - (fractionDropped : Int)
  match Decimal.twoStepDecimal significand ((wholeDropped : Int) - places + exponent) with
  | some value => .ok (.real ⟨text.negative, value⟩)
  | none => .error .malformed

/--
A number without fraction and exponent that fits 64 bits, signed or unsigned, is an integer; any
other is a floating point number, minus zero too. One too large for that is refused.
-/
def NumberText.numeral (text : NumberText) : Except Fault Numeral :=
  let value := Decimal.valueOfDigits text.whole
  if text.fraction.isEmpty && text.exponent.isEmpty && value < unsignedLimit then
    if !text.negative then .ok (.integer value)
    else if value != 0 && value ≤ Nat.pow 2 63 then .ok (.integer (-(value : Int)))
    else text.real
  else text.real

def cutNumber : Break := ⟨.ended, .malformed⟩

def scanExponent (text : NumberText) (chars : List Char) :
    Except Break (NumberText × List Char) :=
  let (negative, digits) :=
    match chars with
    | '+' :: rest => (false, rest)
    | '-' :: rest => (true, rest)
    | _ => (false, chars)
  match digits with
  | [] => .error cutNumber
  | digit :: _ =>
    if isDigit digit then
      .ok ({ text with exponentNegative := negative, exponent := digits.takeWhile isDigit },
        digits.dropWhile isDigit)
    else .error (.both .malformed)

def scanFraction (text : NumberText) (chars : List Char) :
    Except Break (NumberText × List Char) :=
  match chars with
  | [] => .error cutNumber
  | digit :: _ =>
    if isDigit digit then
      let text := { text with fraction := chars.takeWhile isDigit }
      match chars.dropWhile isDigit with
      | 'e' :: rest => scanExponent text rest
      | 'E' :: rest => scanExponent text rest
      | rest => .ok (text, rest)
    else .error (.both .malformed)

def scanNumber (negative : Bool) (chars : List Char) :
    Except Break (Except Fault Numeral × List Char) := do
  match chars with
  | [] => throw cutNumber
  | first :: later =>
    if !isDigit first then throw (.both .malformed)
    if first == '0' && later.head?.any isDigit then throw (.both .malformed)
    let text : NumberText := ⟨negative, chars.takeWhile isDigit, [], false, []⟩
    let (text, rest) ←
      match chars.dropWhile isDigit with
      | '.' :: rest => scanFraction text rest
      | 'e' :: rest => scanExponent text rest
      | 'E' :: rest => scanExponent text rest
      | rest => .ok (text, rest)
    return (text.numeral, rest)

def hexValue? (char : Char) : Option Nat :=
  let code := char.toNat
  if 0x30 ≤ code && code ≤ 0x39 then some (code - 0x30)
  else if 0x41 ≤ code && code ≤ 0x46 then some (code - 0x37)
  else if 0x61 ≤ code && code ≤ 0x66 then some (code - 0x57)
  else none

def byteCount (chars : List Char) : Nat :=
  chars.foldl (fun count char => count + char.utf8Size) 0

/-- Four hexadecimal digits; with fewer than four bytes left the text has ended. -/
def readHex : List Char → Except Fault (Nat × List Char)
  | first :: second :: third :: fourth :: rest =>
    match hexValue? first, hexValue? second, hexValue? third, hexValue? fourth with
    | some a, some b, some c, some d => .ok (((a * 16 + b) * 16 + c) * 16 + d, rest)
    | _, _, _, _ => .error .malformed
  | chars => .error (if byteCount chars < 4 then .ended else .malformed)

def simpleEscape? (char : Char) : Option Char :=
  if char == '"' then some '"'
  else if char == '\\' then some '\\'
  else if char == '/' then some '/'
  else if char == 'b' then some '\x08'
  else if char == 'f' then some '\x0c'
  else if char == 'n' then some '\n'
  else if char == 'r' then some '\r'
  else if char == 't' then some '\t'
  else none

def isLeadingSurrogate (code : Nat) : Bool := 0xD800 ≤ code && code ≤ 0xDBFF

def isTrailingSurrogate (code : Nat) : Bool := 0xDC00 ≤ code && code ≤ 0xDFFF

def readTrailing (leading : Nat) : List Char → Except Fault (Char × List Char)
  | [] => .error .ended
  | ['\\'] => .error .ended
  | '\\' :: 'u' :: chars => do
    let (trailing, rest) ← readHex chars
    if isTrailingSurrogate trailing then
      return (Char.ofNat (0x10000 + (leading - 0xD800) * 0x400 + (trailing - 0xDC00)), rest)
    else .error .malformed
  | _ => .error .malformed

def readEscape : List Char → Except Fault (Char × List Char)
  | [] => .error .ended
  | 'u' :: chars => do
    let (code, rest) ← readHex chars
    if isTrailingSurrogate code then .error .malformed
    else if isLeadingSurrogate code then readTrailing code rest
    else return (Char.ofNat code, rest)
  | char :: rest =>
    match simpleEscape? char with
    | some escaped => .ok (escaped, rest)
    | none => .error .malformed

def skipEscape : List Char → Except Fault (List Char)
  | [] => .error .ended
  | 'u' :: chars => (readHex chars).map Prod.snd
  | char :: rest => if (simpleEscape? char).isSome then .ok rest else .error .malformed

def readString : Nat → List Char → Except Fault (List Char × List Char)
  | 0, _ => .error .ended
  | _, [] => .error .ended
  | fuel + 1, char :: rest =>
    if char == '"' then .ok ([], rest)
    else if char == '\\' then do
      let (escaped, rest) ← readEscape rest
      let (chars, rest) ← readString fuel rest
      return (escaped :: chars, rest)
    else if char.toNat < 0x20 then .error .malformed
    else do
      let (chars, rest) ← readString fuel rest
      return (char :: chars, rest)

def skipString : Nat → List Char → Except Fault (List Char)
  | 0, _ => .error .ended
  | _, [] => .error .ended
  | fuel + 1, char :: rest =>
    if char == '"' then .ok rest
    else if char == '\\' then do
      let rest ← skipEscape rest
      skipString fuel rest
    else if char.toNat < 0x20 then .error .malformed
    else skipString fuel rest

def scanString (fuel : Nat) (chars : List Char) :
    Except Break (Except Fault String × List Char) :=
  let text := (readString fuel chars).map fun read => String.ofList read.1
  match skipString fuel chars with
  | .ok rest => .ok (text, rest)
  | .error skipping =>
    match text with
    | .ok _ => .error (.both skipping)
    | .error reading => .error ⟨reading, skipping⟩

def scanWord (value : Scan) : List Char → List Char → Scan × Option (List Char)
  | [], chars => (value, some chars)
  | _ :: _, [] => (.broken (.both .ended), none)
  | expected :: word, char :: chars =>
    if expected == char then scanWord value word chars else (.broken (.both .malformed), none)

def ofNumber : Except Break (Except Fault Numeral × List Char) → Scan × Option (List Char)
  | .ok (value, rest) => (.number value, some rest)
  | .error stop => (.broken stop, none)

def afterColon (chars : List Char) : Except Break (List Char) :=
  match dropSpaces chars with
  | [] => .error (.both .ended)
  | ':' :: rest => .ok rest
  | _ => .error (.both .malformed)

mutual

/-- A value at the front of a text; no rest if the text broke inside it. -/
def scanValue : Nat → List Char → Scan × Option (List Char)
  | 0, _ => (.broken (.both .malformed), none)
  | fuel + 1, chars =>
    match dropSpaces chars with
    | [] => (.broken (.both .ended), none)
    | 'n' :: rest => scanWord .null ['u', 'l', 'l'] rest
    | 't' :: rest => scanWord (.bool true) ['r', 'u', 'e'] rest
    | 'f' :: rest => scanWord (.bool false) ['a', 'l', 's', 'e'] rest
    | '"' :: rest =>
      match scanString fuel rest with
      | .ok (text, rest) => (.string text, some rest)
      | .error stop => (.broken stop, none)
    | '[' :: rest =>
      match dropSpaces rest with
      | [] => (.array [] (some (.both .ended)), none)
      | ']' :: rest => (.array [] none, some rest)
      | first =>
        let (items, stop, rest) := scanItems fuel first
        (.array items stop, rest)
    | '\x7b' :: rest =>
      match dropSpaces rest with
      | [] => (.object [] (some (.both .ended)), none)
      | '\x7d' :: rest => (.object [] none, some rest)
      | first =>
        let (members, stop, rest) := scanMembers fuel first
        (.object members stop, rest)
    | '-' :: rest => ofNumber (scanNumber true rest)
    | char :: rest =>
      if isDigit char then ofNumber (scanNumber false (char :: rest))
      else (.broken (.both .malformed), none)

def scanItems : Nat → List Char → List Scan × Option Break × Option (List Char)
  | 0, _ => ([], some (.both .malformed), none)
  | fuel + 1, chars =>
    match scanValue fuel chars with
    | (item, none) => ([item], none, none)
    | (item, some rest) =>
      match dropSpaces rest with
      | [] => ([item], some (.both .ended), none)
      | ']' :: rest => ([item], none, some rest)
      | ',' :: rest =>
        let (items, stop, rest) := scanItems fuel rest
        (item :: items, stop, rest)
      | _ => ([item], some (.both .malformed), none)

def scanMembers : Nat → List Char →
    List (Except Fault String × Scan) × Option Break × Option (List Char)
  | 0, _ => ([], some (.both .malformed), none)
  | fuel + 1, chars =>
    match dropSpaces chars with
    | [] => ([], some (.both .ended), none)
    | '"' :: rest =>
      match scanString fuel rest with
      | .error stop => ([], some stop, none)
      | .ok (key, rest) =>
        match afterColon rest with
        | .error stop => ([(key, .broken stop)], none, none)
        | .ok rest =>
          match scanValue fuel rest with
          | (value, none) => ([(key, value)], none, none)
          | (value, some rest) =>
            match dropSpaces rest with
            | [] => ([(key, value)], some (.both .ended), none)
            | '\x7d' :: rest => ([(key, value)], none, some rest)
            | ',' :: rest =>
              let (members, stop, rest) := scanMembers fuel rest
              ((key, value) :: members, stop, rest)
            | _ => ([(key, value)], some (.both .malformed), none)
    | _ => ([], some (.both .malformed), none)

end

def scanChars (chars : List Char) : Document :=
  match scanValue (2 * chars.length + 2) chars with
  | (value, none) => ⟨value, false⟩
  | (value, some rest) => ⟨value, !(dropSpaces rest).isEmpty⟩

def scan (text : String) : Document := scanChars text.toList

def parse (text : String) : Except Fault Json := (scan text).read

end TestDelegation.Json
