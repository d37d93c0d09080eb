import TestDelegation.Outcome
import TestDelegation.Payload.Decoder
import TestDelegation.Payload.Encoder
import TestDelegation.ValueKind

/-!
Decoding of remote payloads. Before the typed decode a codec walks the payload once, drops the
fields of excluded kinds and refuses fields of kinds it has no adapter for.
-/

namespace TestDelegation

/-- Exclusion takes precedence over an adapter. -/
structure Codec where
  adapters : List ValueKind
  excluded : List ValueKind
  /-- How a payload is told to be wrong by whoever reads its text; in short unless given. -/
  wording : String → ReadError → ErrorTrail := fun _ error => .last error.message

namespace Codec

def empty : Codec where
  adapters := []
  excluded := []

def default : Codec where
  adapters := [.annotations, .maybe, .atomicInteger, .atomicLong, .classLiteral]
  excluded := [.serializableMarker]

def register (codec : Codec) (kind : ValueKind) : Codec :=
  { codec with adapters := codec.adapters ++ [kind] }

def exclude (codec : Codec) (kind : ValueKind) : Codec :=
  { codec with excluded := codec.excluded ++ [kind] }

def hasAdapter (codec : Codec) (kind : ValueKind) : Bool := codec.adapters.contains kind

def isExcluded (codec : Codec) (kind : ValueKind) : Bool := codec.excluded.contains kind

end Codec

inductive DecodeError where
  | notJson (error : ErrorTrail)
  | noAdapter (field : String) (kind : ValueKind)
  | wrongShape (error : ErrorTrail)
  | conflict (conflict : OutcomeConflict)

namespace DecodeError

def message : DecodeError → String
  | .notJson _ => "remote test result is not valid JSON"
  | .noAdapter field kind =>
    "field `" ++ field ++ "` holds a " ++ kind.name ++
      " value, but no adapter is registered for it"
  | .wrongShape _ => "remote test result has an unexpected shape"
  | .conflict _ => "remote test result has conflicting outcomes"

def sources : DecodeError → List String
  | .notJson error => error.texts
  | .noAdapter _ _ => []
  | .wrongShape error => error.texts
  | .conflict found => [found.message]

end DecodeError

structure MissingAdapter where
  field : String
  kind : ValueKind
  deriving DecidableEq

def methodMapField : String := "failedMethods"

namespace Codec

def drops (codec : Codec) (keysAreFields : Bool) (key : String) : Bool :=
  keysAreFields && (fieldKind? key).any codec.isExcluded

def missingAdapter? (codec : Codec) (keysAreFields : Bool) (key : String) :
    Option MissingAdapter :=
  if keysAreFields then
    match fieldKind? key with
    | some kind => if codec.hasAdapter kind then none else some ⟨key, kind⟩
    | none => none
  else none

/--
Drops the excluded fields of a value, depth first and in the order of the members. The keys of a
method map are method names, but the values under them are objects with fields again.
-/
def prune (codec : Codec) (keysAreFields : Bool) : Json → Except MissingAdapter Json
  | .null => .ok .null
  | .bool value => .ok (.bool value)
  | .number value => .ok (.number value)
  | .string value => .ok (.string value)
  | .array items => (pruneItems codec items).map .array
  | .object members => (pruneMembers codec keysAreFields members).map .object
where
  pruneItems (codec : Codec) : List Json → Except MissingAdapter (List Json)
    | [] => .ok []
    | item :: rest => do
      let item ← prune codec true item
      let items ← pruneItems codec rest
      return item :: items
  pruneMembers (codec : Codec) (keysAreFields : Bool) :
      List (String × Json) → Except MissingAdapter (List (String × Json))
    | [] => .ok []
    | (key, value) :: rest =>
      if codec.drops keysAreFields key then pruneMembers codec keysAreFields rest
      else
        match codec.missingAdapter? keysAreFields key with
        | some missing => .error missing
        | none => do
          let value ← prune codec (!(keysAreFields && key == methodMapField)) value
          let members ← pruneMembers codec keysAreFields rest
          return (key, value) :: members

end Codec

def methodMapRecord (levels : Nat) :=
  Record.field (.defaulted methodMapField [] (Decoder.uniqueMapAt (fun _ => Decoder.ignored) levels)
    SortedMap.empty) Record.done

/-- Repeated methods can be seen in the text only: a parsed value keeps the last of them. -/
def checkMethodMap (text : String) : Except ReadError Unit := do
  let (_, ()) ← Decoder.ofText (Decoder.opening (.record "RawMethodMap") fun levels =>
    (methodMapRecord levels).decode .text "RawMethodMap") text
  return ()

namespace Codec

/--
The payload's detail. Faults of the text come first, then repeated methods, then kinds without an
adapter, then the shape.
-/
def decodeDetail (codec : Codec) (payload : String) : Except DecodeError ResultDetail := do
  let worded (error : ReadError) : ErrorTrail := codec.wording payload error
  let value ← (Json.parse payload).mapError fun fault => .notJson (worded (.text fault))
  (checkMethodMap payload).mapError fun error => .wrongShape (worded error)
  let pruned ← (codec.prune true value.sorted).mapError
    fun missing => .noAdapter missing.field missing.kind
  (Decoder.ofJson (Decoder.detail .value) pruned).mapError fun error => .wrongShape (worded error)

def decode (codec : Codec) (payload : String) : Except DecodeError OutcomeSet := do
  let detail ← codec.decodeDetail payload
  (OutcomeSet.ofDetail detail).mapError .conflict

end Codec

def OutcomeSet.render (set : OutcomeSet) (classname : Option String) : String :=
  (set.toDetail classname).render

end TestDelegation
