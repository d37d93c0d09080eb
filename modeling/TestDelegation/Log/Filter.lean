import TestDelegation.Decimal.Digits
import TestDelegation.Log.Entry
import TestDelegation.Text.Strip

/-!
Filters of the log: a list of directives such as `warn` or `target=debug`, of which the most
specific one that fits an entry decides. Main definition: `LogFilter.enables`.
-/

namespace TestDelegation

structure LogLimit where
  verbosity : Nat
  deriving DecidableEq, Repr

def LogLevel.limit (level : LogLevel) : LogLimit := ⟨level.verbosity⟩

def lowerAscii (text : String) : String := String.ofList (text.toList.map Char.toLower)

def LogLimit.parse? (text : String) : Option LogLimit :=
  let digits :=
    match text.toList with
    | '+' :: rest => rest
    | chars => chars
  match Decimal.natOfDigits? digits with
  | some number => if number ≤ 5 then some ⟨number⟩ else none
  | none =>
    [("", 1), ("off", 0), ("error", 1), ("warn", 2), ("info", 3), ("debug", 4),
      ("trace", 5)].lookup (lowerAscii text) |>.map LogLimit.mk

structure LogDirective where
  target : Option String
  fields : List String
  limit : LogLimit
  deriving DecidableEq

namespace LogDirective

def fits (directive : LogDirective) (entry : LogEntry) : Bool :=
  (directive.target.all fun target => target.toList.isPrefixOf entry.target.toList) &&
    directive.fields.all entry.fieldNames.contains

/-- Directives with a longer target are more specific, then those with more fields. -/
def specificity (directive : LogDirective) : Nat × Nat :=
  ((directive.target.map fun target => target.utf8ByteSize + 1).getD 0, directive.fields.length)

def moreSpecific (left right : LogDirective) : Bool :=
  right.specificity.1 < left.specificity.1 ||
    (left.specificity.1 == right.specificity.1 && right.specificity.2 < left.specificity.2)

def sameScope (left right : LogDirective) : Bool :=
  left.target == right.target && left.fields == right.fields

def dropClosing : List Char → List Char
  | ']' :: '\x7d' :: rest => dropClosing rest
  | chars => chars

def bracketed? (text : String) : Option (List String) :=
  match text.toList.reverse with
  | ']' :: '\x7d' :: rest =>
    let names := String.ofList (dropClosing rest).reverse
    some ((names.splitOn ",").filter fun name => !name.isEmpty)
  | _ => none

def scope? (text : String) : Option (Option String × List String) :=
  match text.splitOn "[\x7b" with
  | [target] => some (some target, [])
  | [target, fields] => (bracketed? fields).map fun fields => (some target, fields)
  | _ => none

def parse? (text : String) : Option LogDirective :=
  match text.splitOn "=" with
  | [alone] =>
    match LogLimit.parse? alone with
    | some limit => some ⟨none, [], limit⟩
    | none => some ⟨some alone, [], LogLevel.trace.limit⟩
  | [scope, level] => do
    let (target, fields) ← scope? scope
    let limit ← LogLimit.parse? level
    return ⟨target, fields, limit⟩
  | _ => none

end LogDirective

structure LogFilter where
  directives : List LogDirective

namespace LogFilter

def upTo (level : LogLevel) : LogFilter := ⟨[⟨none, [], level.limit⟩]⟩

/-- Of two directives with the same scope the later one counts. -/
def add (filter : LogFilter) (directive : LogDirective) : LogFilter :=
  ⟨(filter.directives.filter fun earlier => !earlier.sameScope directive) ++ [directive]⟩

def parse? (text : String) : Option LogFilter := do
  let directives ← (text.splitOn ",").mapM LogDirective.parse?
  return directives.foldl add ⟨[]⟩

def deciding? (filter : LogFilter) (entry : LogEntry) : Option LogDirective :=
  filter.directives.foldl (fun best directive =>
    if !directive.fits entry then best
    else
      match best with
      | none => some directive
      | some found => if directive.moreSpecific found then some directive else best) none

def enables (filter : LogFilter) (entry : LogEntry) : Bool :=
  (filter.deciding? entry).any fun directive => entry.level.verbosity ≤ directive.limit.verbosity

end LogFilter

end TestDelegation
