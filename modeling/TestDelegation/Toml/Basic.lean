import TestDelegation.Decimal.Shortest

/-!
TOML values, and tables while they are being built. A table remembers how it came to be, since
that decides what may still be added to it.
-/

namespace TestDelegation.Toml

inductive Scalar where
  | text (value : String)
  | integer (value : Int)
  | real (value : Decimal.Binary64)
  | infinity (negative : Bool)
  | notANumber
  | boolean (value : Bool)
  /-- A date, a time or both, in normal form. -/
  | moment (value : String)

def Scalar.asText : Scalar → String
  | .text value => value
  | .integer value => Decimal.integerText value
  | .real value => String.ofList value.plainChars
  | .infinity false => "inf"
  | .infinity true => "-inf"
  | .notANumber => "NaN"
  | .boolean true => "true"
  | .boolean false => "false"
  | .moment value => value

inductive TableOrigin where
  | header
  | parentOfHeader
  | dottedKey
  | inlineTable
  deriving DecidableEq

inductive Value where
  | scalar (value : Scalar)
  | array (items : List Value)
  | table (origin : TableOrigin) (entries : List (String × Value))
  /-- Tables under a doubled header; the last one is open. -/
  | tables (items : List (List (String × Value)))

abbrev Entries := List (String × Value)

namespace Entries

def find? (entries : Entries) (key : String) : Option Value := entries.lookup key

def set : Entries → String → Value → Entries
  | [], key, value => [(key, value)]
  | entry :: rest, key, value =>
    if entry.1 == key then (key, value) :: rest else entry :: set rest key value

/-- Adds a value under a dotted key, from a table that its own header or braces have opened. -/
def insertDotted (entries : Entries) : List String → Value → Option Entries
  | [], _ => none
  | [key], value =>
    match entries.find? key with
    | some _ => none
    | none => some (entries ++ [(key, value)])
  | key :: path, value =>
    match entries.find? key with
    | none => (insertDotted [] path value).map fun inner =>
        entries ++ [(key, .table .dottedKey inner)]
    | some (.table .dottedKey inner) =>
      (insertDotted inner path value).map fun inner => set entries key (.table .dottedKey inner)
    | some (.table .parentOfHeader inner) =>
      match path with
      | [_] => none
      | _ => (insertDotted inner path value).map fun inner =>
          set entries key (.table .parentOfHeader inner)
    | some _ => none

/-- Changes the table at the end of a path of headers; names not met yet become tables. -/
def modifyAt (change : Entries → Option Entries) : List String → Entries → Option Entries
  | [], entries => change entries
  | key :: path, entries =>
    match entries.find? key with
    | none => (modifyAt change path []).map fun inner =>
        entries ++ [(key, .table .parentOfHeader inner)]
    | some (.table .inlineTable _) => none
    | some (.table origin inner) =>
      (modifyAt change path inner).map fun inner => set entries key (.table origin inner)
    | some (.tables items) =>
      match items.reverse with
      | [] => none
      | last :: earlier => (modifyAt change path last).map fun last =>
          set entries key (.tables (earlier.reverse ++ [last]))
    | some _ => none

/-- Opens the table of a header: a new one, or one that was only the parent of another. -/
def openTable (key : String) (entries : Entries) : Option Entries :=
  match entries.find? key with
  | none => some (entries ++ [(key, .table .header [])])
  | some (.table .parentOfHeader inner) => some (set entries key (.table .header inner))
  | some _ => none

def appendTable (key : String) (entries : Entries) : Option Entries :=
  match entries.find? key with
  | none => some (entries ++ [(key, .tables [[]])])
  | some (.tables items) => some (set entries key (.tables (items ++ [[]])))
  | some _ => none

end Entries

end TestDelegation.Toml
