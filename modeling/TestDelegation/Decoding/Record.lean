import TestDelegation.Decoding.Basic

/-!
Decoding of records: an object that gives the fields by name, in any order, or an array that
gives them in their declared order.
-/

namespace TestDelegation

structure Field (α : Type) where
  name : String
  aliases : List String
  decoder : Decoder α
  absent : Option α
  /-- Whether an array may end before this field. -/
  mayBeCut : Bool

namespace Field

def required {α : Type} (name : String) (aliases : List String) (decoder : Decoder α) : Field α :=
  ⟨name, aliases, decoder, none, false⟩

def defaulted {α : Type} (name : String) (aliases : List String) (decoder : Decoder α)
    (value : α) : Field α :=
  ⟨name, aliases, decoder, some value, true⟩

def answersTo {α : Type} (field : Field α) (key : String) : Bool :=
  key == field.name || field.aliases.contains key

end Field

inductive Record : Type → Type → Type 1 where
  | done : Record Unit Unit
  | field {α σ β : Type} (head : Field α) (tail : Record σ β) : Record (Option α × σ) (α × β)

namespace Record

def size {σ α : Type} : Record σ α → Nat
  | .done => 0
  | .field _ tail => tail.size + 1

def noSlots {σ α : Type} : Record σ α → σ
  | .done => ()
  | .field _ tail => (none, tail.noSlots)

def accept {σ α : Type} : Record σ α → String → Scan → σ → Option (Except ReadError σ)
  | .done, _, _, _ => none
  | .field head tail, key, scan, (slot, slots) =>
    if head.answersTo key then
      match slot with
      | some _ => some (Decoder.mismatched (.duplicateField head.name))
      | none => some ((head.decoder scan).map fun value => (some value, slots))
    else (tail.accept key scan slots).map fun accepted => accepted.map fun slots => (slot, slots)

def members {σ α : Type} (record : Record σ α) :
    List (Except Fault String × Scan) → σ → Except ReadError σ
  | [], slots => .ok slots
  | (.error fault, _) :: _, _ => Decoder.broken fault
  | (.ok key, scan) :: rest, slots =>
    match record.accept key scan slots with
    | some (.ok slots) => record.members rest slots
    | some (.error error) => .error error
    | none => do
      Decoder.ignored scan
      record.members rest slots

def complete {σ α : Type} : Record σ α → σ → Except ReadError α
  | .done, () => .ok ()
  | .field head tail, (slot, slots) =>
    match slot.or head.absent with
    | none => Decoder.mismatched (.missingField head.name)
    | some value => (tail.complete slots).map fun values => (value, values)

def positional {σ α : Type} (name : String) (total : Nat) (stop : Option Break) :
    Record σ α → Nat → List Scan → Except ReadError (α × List Scan)
  | .done, _, scans => .ok ((), scans)
  | .field head tail, index, scan :: scans => do
    let value ← head.decoder scan
    let (values, rest) ← tail.positional name total stop (index + 1) scans
    return ((value, values), rest)
  | .field head tail, index, [] => do
    Decoder.finish stop
    match head.mayBeCut, head.absent with
    | true, some value =>
      let (values, rest) ← tail.positional name total stop (index + 1) []
      return ((value, values), rest)
    | _, _ => Decoder.mismatched (.tooFewItems index name total)

/-- Items after the last field: a fault in a text, a mismatch in a value read before. -/
def surplus (source : Source) (length : Nat) (stop : Option Break) :
    List Scan → Except ReadError Unit
  | [] => Decoder.finish stop
  | _ :: _ =>
    match source with
    | .text => Decoder.broken .malformed
    | .value => Decoder.mismatched (.tooManyItems length)

def decode {σ α : Type} (record : Record σ α) (source : Source) (name : String) : Decoder α
  | .object scans stop => do
    let slots ← record.members scans record.noSlots
    Decoder.finish stop
    record.complete slots
  | .array scans stop => do
    let (values, rest) ← record.positional name record.size stop 0 scans
    surplus source scans.length stop rest
    return values
  | scan => Decoder.wrongType (.record name) scan

end Record

end TestDelegation
