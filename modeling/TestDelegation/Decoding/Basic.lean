import TestDelegation.Decoding.Mismatch

/-!
Decoders of single JSON values. A decoder works on a scan, so that the first fault or mismatch in
the order of the text is the one reported.
-/

namespace TestDelegation

/-- Where a scan comes from: a text being read, or a value that was read whole before. -/
inductive Source where
  | text
  | value
  deriving DecidableEq

abbrev Decoder (α : Type) := Scan → Except ReadError α

namespace Decoder

def broken {α : Type} (fault : Fault) : Except ReadError α := .error (.text fault)

def mismatched {α : Type} (mismatch : Mismatch) : Except ReadError α := .error (.shape mismatch)

/-- Refuses a value; a fault inside a number or a string comes before the mismatch. -/
def wrongType {α : Type} (expected : Expected) : Decoder α
  | .null => mismatched (.wrongType .null expected)
  | .bool value => mismatched (.wrongType (.bool value) expected)
  | .number (.ok value) => mismatched (.wrongType (.number value) expected)
  | .number (.error fault) => broken fault
  | .string (.ok value) => mismatched (.wrongType (.string value) expected)
  | .string (.error fault) => broken fault
  | .array _ _ => mismatched (.wrongType .sequence expected)
  | .object _ _ => mismatched (.wrongType .map expected)
  | .broken stop => broken stop.reading

def opensArray : Expected → Bool
  | .sequence | .record _ => true
  | _ => false

def opensObject : Expected → Bool
  | .uniqueKeys | .record _ => true
  | _ => false

def noLevel {α : Type} (expected : Expected) (scan : Scan) : Except ReadError α :=
  match scan with
  | .array _ _ => if opensArray expected then broken .malformed else wrongType expected scan
  | .object _ _ => if opensObject expected then broken .malformed else wrongType expected scan
  | scan => wrongType expected scan

def finish (stop : Option Break) : Except ReadError Unit :=
  match stop with
  | none => .ok ()
  | some stop => broken stop.reading

def string : Decoder String
  | .string (.ok value) => .ok value
  | scan => wrongType .string scan

def boolean : Decoder Bool
  | .bool value => .ok value
  | scan => wrongType .boolean scan

def optional {α : Type} (decoder : Decoder α) : Decoder (Option α)
  | .null => .ok none
  | scan => (decoder scan).map some

def ignored : Decoder Unit := fun scan =>
  match scan.skip with
  | none => .ok ()
  | some fault => broken fault

def anything (levels : Nat) : Decoder Json := fun scan =>
  match scan.read levels with
  | .ok value => .ok value
  | .error fault => broken fault

def items {α : Type} (decoder : Decoder α) : List Scan → Except ReadError (List α)
  | [] => .ok []
  | item :: rest => do
    let value ← decoder item
    let values ← items decoder rest
    return value :: values

def list {α : Type} (decoder : Decoder α) : Decoder (List α)
  | .array scans stop => do
    let values ← items decoder scans
    finish stop
    return values
  | scan => wrongType .sequence scan

def uniqueMembers {α : Type} (decoder : Decoder α) (map : SortedMap α) :
    List (Except Fault String × Scan) → Except ReadError (SortedMap α)
  | [] => .ok map
  | (.error fault, _) :: _ => broken fault
  | (.ok key, scan) :: rest =>
    if map.contains key then mismatched (.duplicateKey key)
    else do
      let value ← decoder scan
      uniqueMembers decoder (map.insert key value) rest

def uniqueMap {α : Type} (decoder : Decoder α) : Decoder (SortedMap α)
  | .object members stop => do
    let map ← uniqueMembers decoder .empty members
    finish stop
    return map
  | scan => wrongType .uniqueKeys scan

def opening {α : Type} (expected : Expected) (decoder : Nat → Decoder α) : Nat → Decoder α
  | 0 => noLevel expected
  | levels + 1 => decoder levels

end Decoder

def signedLimit (bits : Nat) : Int := Nat.pow 2 (bits - 1)

def SignedWord (bits : Nat) : Type :=
  { value : Int // -signedLimit bits ≤ value ∧ value < signedLimit bits }

namespace SignedWord

instance {bits : Nat} : DecidableEq (SignedWord bits) :=
  inferInstanceAs (DecidableEq { _value : Int // _ })

def ofInt? (bits : Nat) (value : Int) : Option (SignedWord bits) :=
  if inRange : -signedLimit bits ≤ value ∧ value < signedLimit bits then some ⟨value, inRange⟩
  else none

def toInt {bits : Nat} (word : SignedWord bits) : Int := word.val

def zero (bits : Nat) : SignedWord bits :=
  ⟨0, by
    have positive : 0 < signedLimit bits :=
      Int.natCast_pos.mpr (Nat.pow_pos (show 0 < 2 by decide))
    omega⟩

end SignedWord

def Decoder.word (bits : Nat) : Decoder (SignedWord bits)
  | .number (.ok (.integer value)) =>
    match SignedWord.ofInt? bits value with
    | some word => .ok word
    | none => mismatched (.outOfRange value (.word bits))
  | scan => wrongType (.word bits) scan

end TestDelegation
