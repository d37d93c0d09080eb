import TestDelegation.Json.Basic

/-!
What a reader meets in a JSON text from left to right: the value as far as the text goes, and the
place where it breaks. A member that nobody asks for is only skipped, and skipping is more
lenient than reading, so every break knows the fault of both.
-/

namespace TestDelegation

inductive Fault where
  | ended
  | malformed
  deriving DecidableEq, Repr

structure Break where
  reading : Fault
  skipping : Fault
  deriving DecidableEq, Repr

def Break.both (fault : Fault) : Break := ⟨fault, fault⟩

inductive Scan where
  | null
  | bool (value : Bool)
  | number (value : Except Fault Numeral)
  | string (value : Except Fault String)
  | array (items : List Scan) (stop : Option Break)
  | object (members : List (Except Fault String × Scan)) (stop : Option Break)
  | broken (stop : Break)

namespace Scan

instance : Inhabited Scan := ⟨.null⟩

def ofJson : Json → Scan
  | .null => .null
  | .bool value => .bool value
  | .number value => .number (.ok value)
  | .string value => .string (.ok value)
  | .array items => .array (ofItems items) none
  | .object members => .object (ofMembers members) none
where
  ofItems : List Json → List Scan
    | [] => []
    | item :: rest => ofJson item :: ofItems rest
  ofMembers : List (String × Json) → List (Except Fault String × Scan)
    | [] => []
    | (key, value) :: rest => (.ok key, ofJson value) :: ofMembers rest

def stopReading : Option Break → Except Fault Unit
  | none => .ok ()
  | some stop => .error stop.reading

def read : Nat → Scan → Except Fault Json
  | _, .null => .ok .null
  | _, .bool value => .ok (.bool value)
  | _, .number value => value.map .number
  | _, .string value => value.map .string
  | 0, .array _ _ => .error .malformed
  | levels + 1, .array items stop => do
    let values ← readItems levels items
    stopReading stop
    return .array values
  | 0, .object _ _ => .error .malformed
  | levels + 1, .object members stop => do
    let values ← readMembers levels members
    stopReading stop
    return .object values
  | _, .broken stop => .error stop.reading
where
  readItems : Nat → List Scan → Except Fault (List Json)
    | _, [] => .ok []
    | levels, item :: rest => do
      let value ← read levels item
      let values ← readItems levels rest
      return value :: values
  readMembers : Nat → List (Except Fault String × Scan) → Except Fault (List (String × Json))
    | _, [] => .ok []
    | levels, (key, item) :: rest => do
      let name ← key
      let value ← read levels item
      let values ← readMembers levels rest
      return (name, value) :: values

/-- The fault met when the value is skipped, if any. -/
def skip : Scan → Option Fault
  | .null => none
  | .bool _ => none
  | .number _ => none
  | .string _ => none
  | .array items stop => (skipItems items).or (stop.map Break.skipping)
  | .object members stop => (skipMembers members).or (stop.map Break.skipping)
  | .broken stop => some stop.skipping
where
  skipItems : List Scan → Option Fault
    | [] => none
    | item :: rest => (skip item).or (skipItems rest)
  skipMembers : List (Except Fault String × Scan) → Option Fault
    | [] => none
    | (_, item) :: rest => (skip item).or (skipMembers rest)

end Scan

def levelLimit : Nat := 127

structure Document where
  value : Scan
  trailing : Bool

def Document.read (document : Document) : Except Fault Json := do
  let value ← document.value.read levelLimit
  if document.trailing then .error .malformed else .ok value

end TestDelegation
