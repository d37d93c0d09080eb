import TestDelegation.Text.Quoted
import TestDelegation.Toml.Basic
import TestDelegation.Toml.Moment

/-!
TOML documents. Main definition: `parse?`, the entries of the root table of a document, or nothing
if the document is not well-formed.
-/

namespace TestDelegation.Toml

open Decimal (isDigit digitValue valueOfDigits)

def isControl (char : Char) : Bool :=
  (char.toNat < 0x20 && char != '\t') || char.toNat == 0x7F

def isIndent (char : Char) : Bool := char == ' ' || char == '\t'

def dropIndent (chars : List Char) : List Char := chars.dropWhile isIndent

def dropComment : List Char → Option (List Char)
  | '#' :: rest =>
    let (comment, after) := rest.span fun char => char != '\n' && char != '\r'
    if comment.any isControl then none else some after
  | chars => some chars

def takeNewline : List Char → Option (List Char)
  | '\n' :: rest => some rest
  | '\r' :: '\n' :: rest => some rest
  | _ => none

def dropFiller : Nat → List Char → Option (List Char)
  | 0, chars => some chars
  | fuel + 1, chars => do
    let rest ← dropComment (dropIndent chars)
    match takeNewline rest with
    | some rest => dropFiller fuel rest
    | none => return rest

def hexNumber? (chars : List Char) : Option Nat :=
  chars.foldl (fun value char => do
    let value ← value
    let code := char.toNat
    if isDigit char then return value * 16 + (code - 0x30)
    else if 'a' ≤ char && char ≤ 'f' then return value * 16 + (code - 0x57)
    else if 'A' ≤ char && char ≤ 'F' then return value * 16 + (code - 0x37)
    else none) (some 0)

def takeScalar (count : Nat) (chars : List Char) : Option (Char × List Char) := do
  let digits := chars.take count
  if digits.length != count then none
  let code ← hexNumber? digits
  if code < 0xD800 || (0xDFFF < code && code < 0x110000) then
    return (Char.ofNat code, chars.drop count)
  else none

def takeEscape : List Char → Option (Char × List Char)
  | 'b' :: rest => some ('\x08', rest)
  | 't' :: rest => some ('\t', rest)
  | 'n' :: rest => some ('\n', rest)
  | 'f' :: rest => some ('\x0c', rest)
  | 'r' :: rest => some ('\r', rest)
  | 'e' :: rest => some ('\x1b', rest)
  | '"' :: rest => some ('"', rest)
  | '\\' :: rest => some ('\\', rest)
  | 'x' :: rest => takeScalar 2 rest
  | 'u' :: rest => takeScalar 4 rest
  | 'U' :: rest => takeScalar 8 rest
  | _ => none

def takeBasic : Nat → List Char → Option (List Char × List Char)
  | 0, _ => none
  | _, [] => none
  | fuel + 1, char :: rest =>
    if char == '"' then some ([], rest)
    else if char == '\\' then do
      let (escaped, rest) ← takeEscape rest
      let (chars, rest) ← takeBasic fuel rest
      return (escaped :: chars, rest)
    else if isControl char then none
    else do
      let (chars, rest) ← takeBasic fuel rest
      return (char :: chars, rest)

def takeLiteral : List Char → Option (List Char × List Char)
  | [] => none
  | char :: rest =>
    if char == '\'' then some ([], rest)
    else if isControl char then none
    else do
      let (chars, rest) ← takeLiteral rest
      return (char :: chars, rest)

def quoteRun (quote : Char) (chars : List Char) : Nat := (chars.takeWhile (· == quote)).length

/-- The end of a string over several lines: three quotes, after up to two of its content. -/
def takeClosing (quote : Char) (chars : List Char) : Option (List Char × List Char) :=
  let run := quoteRun quote chars
  if run ≤ 5 then some (List.replicate (run - 3) quote, chars.drop run) else none

/-- The text after a backslash at the end of a line: what follows all blanks and line ends. -/
def dropLineEnd (chars : List Char) : Option (List Char) := do
  let rest ← takeNewline (dropIndent chars)
  return rest.dropWhile fun char => isIndent char || char == '\n' || char == '\r'

def takeLongBasic : Nat → List Char → Option (List Char × List Char)
  | 0, _ => none
  | _, [] => none
  | fuel + 1, char :: rest =>
    if 3 ≤ quoteRun '"' (char :: rest) then takeClosing '"' (char :: rest)
    else
      if char == '\\' then
        match dropLineEnd rest with
        | some rest => takeLongBasic fuel rest
        | none => do
          let (escaped, rest) ← takeEscape rest
          let (chars, rest) ← takeLongBasic fuel rest
          return (escaped :: chars, rest)
      else
        match takeNewline (char :: rest) with
        | some rest => do
          let (chars, rest) ← takeLongBasic fuel rest
          return ('\n' :: chars, rest)
        | none => do
          if isControl char then none
          let (chars, rest) ← takeLongBasic fuel rest
          return (char :: chars, rest)

def takeLongLiteral : Nat → List Char → Option (List Char × List Char)
  | 0, _ => none
  | _, [] => none
  | fuel + 1, char :: rest =>
    if 3 ≤ quoteRun '\'' (char :: rest) then takeClosing '\'' (char :: rest)
    else
      match takeNewline (char :: rest) with
      | some rest => do
        let (chars, rest) ← takeLongLiteral fuel rest
        return ('\n' :: chars, rest)
      | none => do
        if isControl char then none
        let (chars, rest) ← takeLongLiteral fuel rest
        return (char :: chars, rest)

def dropFirstNewline (chars : List Char) : List Char := (takeNewline chars).getD chars

def takeString (fuel : Nat) : List Char → Option (String × List Char)
  | '"' :: '"' :: '"' :: rest =>
    (takeLongBasic fuel (dropFirstNewline rest)).map fun read => (String.ofList read.1, read.2)
  | '\'' :: '\'' :: '\'' :: rest =>
    (takeLongLiteral fuel (dropFirstNewline rest)).map fun read => (String.ofList read.1, read.2)
  | '"' :: rest => (takeBasic fuel rest).map fun read => (String.ofList read.1, read.2)
  | '\'' :: rest => (takeLiteral rest).map fun read => (String.ofList read.1, read.2)
  | _ => none

def plainDigits (accepts : Char → Bool) : List Char → Option (List Char)
  | [] => none
  | [char] => if accepts char then some [char] else none
  | char :: '_' :: rest =>
    if accepts char then (plainDigits accepts rest).map (char :: ·) else none
  | char :: rest => if accepts char then (plainDigits accepts rest).map (char :: ·) else none

def inRange (value : Int) : Option Scalar :=
  if -(Nat.pow 2 63 : Int) ≤ value && value < (Nat.pow 2 63 : Int) then some (.integer value)
  else none

def isRadixDigit (radix : Nat) (char : Char) : Bool :=
  (hexNumber? [char]).any (· < radix)

def radixNumber? (radix : Nat) (chars : List Char) : Option Scalar := do
  let digits ← plainDigits (isRadixDigit radix) chars
  let value := digits.foldl
    (fun value char => value * radix + (hexNumber? [char]).getD 0) 0
  inRange value

def wholePart? (chars : List Char) : Option (List Char) := do
  let digits ← plainDigits isDigit chars
  match digits with
  | '0' :: _ :: _ => none
  | digits => return digits

def exponentOf? : List Char → Option Int
  | '+' :: rest => (plainDigits isDigit rest).map fun digits => (valueOfDigits digits : Int)
  | '-' :: rest => (plainDigits isDigit rest).map fun digits => -(valueOfDigits digits : Int)
  | rest => (plainDigits isDigit rest).map fun digits => (valueOfDigits digits : Int)

def isExponentMark (char : Char) : Bool := char == 'e' || char == 'E'

def realNumber? (negative : Bool) (chars : List Char) : Option Scalar := do
  let (mantissa, tail) := chars.span fun char => !isExponentMark char
  let (whole, fraction) := mantissa.span fun char => char != '.'
  let whole ← wholePart? whole
  let fraction ←
    match fraction with
    | '.' :: rest => plainDigits isDigit rest
    | _ => some []
  let exponent ←
    match tail with
    | _ :: rest => exponentOf? rest
    | [] => some 0
  let value ← Decimal.nearestDecimal (valueOfDigits (whole ++ fraction))
    (exponent - (fraction.length : Int))
  return .real ⟨negative, value⟩

def signedNumber? (negative : Bool) (chars : List Char) : Option Scalar :=
  if chars == ['i', 'n', 'f'] then some (.infinity negative)
  else if chars == ['n', 'a', 'n'] then some .notANumber
  else if chars.any fun char => char == '.' || isExponentMark char then realNumber? negative chars
  else do
    let digits ← wholePart? chars
    let value : Int := (valueOfDigits digits : Nat)
    inRange (if negative then -value else value)

def word? (chars : List Char) : Option Scalar :=
  match chars with
  | ['t', 'r', 'u', 'e'] => some (.boolean true)
  | ['f', 'a', 'l', 's', 'e'] => some (.boolean false)
  | '0' :: 'x' :: rest => radixNumber? 16 rest
  | '0' :: 'o' :: rest => radixNumber? 8 rest
  | '0' :: 'b' :: rest => radixNumber? 2 rest
  | '+' :: rest => signedNumber? false rest
  | '-' :: rest => signedNumber? true rest
  | _ => ((moment? chars).map Scalar.moment).or (signedNumber? false chars)

def isWordChar (char : Char) : Bool :=
  isDigit char || ('a' ≤ char && char ≤ 'z') || ('A' ≤ char && char ≤ 'Z') || char == '_' ||
    char == '-' || char == '+' || char == '.' || char == ':'

/-- A word; a date takes in a time that follows it after one space. -/
def takeWord (chars : List Char) : Option (Scalar × List Char) := do
  let (word, rest) := chars.span isWordChar
  let (word, rest) :=
    match takeDate word, rest with
    | some (_, []), ' ' :: digit :: later =>
      if isDigit digit then
        let (time, rest) := (digit :: later).span isWordChar
        (word ++ ' ' :: time, rest)
      else (word, rest)
    | _, _ => (word, rest)
  return (← word? word, rest)

def isBareKeyChar (char : Char) : Bool :=
  isDigit char || ('a' ≤ char && char ≤ 'z') || ('A' ≤ char && char ≤ 'Z') || char == '_' ||
    char == '-'

def takeSimpleKey (fuel : Nat) (chars : List Char) : Option (String × List Char) :=
  match chars with
  | '"' :: rest => (takeBasic fuel rest).map fun read => (String.ofList read.1, read.2)
  | '\'' :: rest => (takeLiteral rest).map fun read => (String.ofList read.1, read.2)
  | _ =>
    let (key, rest) := chars.span isBareKeyChar
    if key.isEmpty then none else some (String.ofList key, rest)

def takeKey : Nat → List Char → Option (List String × List Char)
  | 0, _ => none
  | fuel + 1, chars => do
    let (key, rest) ← takeSimpleKey fuel (dropIndent chars)
    match dropIndent rest with
    | '.' :: rest =>
      let (path, rest) ← takeKey fuel rest
      return (key :: path, rest)
    | rest => return ([key], rest)

mutual

def takeValue : Nat → List Char → Option (Value × List Char)
  | 0, _ => none
  | fuel + 1, chars =>
    match chars with
    | '"' :: _ => (takeString fuel chars).map fun read => (.scalar (.text read.1), read.2)
    | '\'' :: _ => (takeString fuel chars).map fun read => (.scalar (.text read.1), read.2)
    | '[' :: rest => (takeItems fuel rest).map fun read => (.array read.1, read.2)
    | '\x7b' :: rest =>
      (takeMembers fuel [] rest).map fun read => (.table .inlineTable read.1, read.2)
    | _ => (takeWord chars).map fun read => (.scalar read.1, read.2)

def takeItems : Nat → List Char → Option (List Value × List Char)
  | 0, _ => none
  | fuel + 1, chars => do
    match ← dropFiller chars.length chars with
    | ']' :: rest => return ([], rest)
    | first =>
      let (item, rest) ← takeValue fuel first
      match ← dropFiller rest.length rest with
      | ']' :: rest => return ([item], rest)
      | ',' :: rest =>
        let (items, rest) ← takeItems fuel rest
        return (item :: items, rest)
      | _ => none

def takeMembers : Nat → Entries → List Char → Option (Entries × List Char)
  | 0, _, _ => none
  | fuel + 1, entries, chars => do
    match ← dropFiller chars.length chars with
    | '\x7d' :: rest => return (entries, rest)
    | first =>
      let (key, rest) ← takeKey fuel first
      let rest ← takeChar '=' rest
      let (value, rest) ← takeValue fuel (dropIndent rest)
      let entries ← entries.insertDotted key value
      match ← dropFiller rest.length rest with
      | '\x7d' :: rest => return (entries, rest)
      | ',' :: rest => takeMembers fuel entries rest
      | _ => none

end

def takeLineEnd (chars : List Char) : Option (List Char) := do
  match ← dropComment (dropIndent chars) with
  | [] => return []
  | rest => takeNewline rest

structure Position where
  root : Entries
  header : List String

def Position.openHeader (position : Position) (path : List String)
    (openLast : String → Entries → Option Entries) : Option Position := do
  let last ← path.getLast?
  let root ← position.root.modifyAt (openLast last) path.dropLast
  return ⟨root, path⟩

def Position.insert (position : Position) (key : List String) (value : Value) :
    Option Position := do
  let root ← position.root.modifyAt (fun entries => entries.insertDotted key value) position.header
  return { position with root := root }

def takeExpression (fuel : Nat) (position : Position) (chars : List Char) :
    Option (Position × List Char) :=
  match chars with
  | '[' :: '[' :: rest => do
    let (path, rest) ← takeKey fuel rest
    let rest ← takeChar ']' (← takeChar ']' rest)
    return (← position.openHeader path Entries.appendTable, rest)
  | '[' :: rest => do
    let (path, rest) ← takeKey fuel rest
    let rest ← takeChar ']' rest
    return (← position.openHeader path Entries.openTable, rest)
  | _ => do
    let (key, rest) ← takeKey fuel chars
    let rest ← takeChar '=' rest
    let (value, rest) ← takeValue fuel (dropIndent rest)
    return (← position.insert key value, rest)

def parseFrom : Nat → Position → List Char → Option Position
  | 0, _, _ => none
  | fuel + 1, position, chars => do
    match ← dropFiller chars.length chars with
    | [] => return position
    | first =>
      let (position, rest) ← takeExpression (first.length + 1) position first
      let rest ← takeLineEnd rest
      parseFrom fuel position rest

def parse? (text : String) : Option Entries :=
  let chars :=
    match text.toList with
    | '\ufeff' :: rest => rest
    | chars => chars
  (parseFrom (chars.length + 1) ⟨[], []⟩ chars).map Position.root

end TestDelegation.Toml
