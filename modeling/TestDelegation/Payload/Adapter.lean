import TestDelegation.Decoding.Record
import TestDelegation.Payload.Detail
import TestDelegation.Text.Strip

/-!
Decoders of values with several written forms: annotations, class literals, counters and values
that may be present or not.
-/

namespace TestDelegation.Decoder

def onlyText? (key : String) (members : List (String × Json)) : Option String :=
  match members.filter fun member => member.1 == key with
  | [(_, .string text)] => some text
  | _ => none

def annotationOfJson? : Json → Option Annotation
  | .string text => some ⟨text⟩
  | .object members => (onlyText? "annotationType" members).map Annotation.mk
  | .array [.string text] => some ⟨text⟩
  | _ => none

def annotationValue (levels : Nat) : Decoder Annotation := fun scan => do
  match annotationOfJson? (← anything levels scan) with
  | some found => return found
  | none => mismatched (.noForm .annotationForm)

def classLiteralOfJson? : Json → Option ClassLiteral
  | .string text => some ⟨text⟩
  | .object members => (onlyText? "name" members).map ClassLiteral.mk
  | _ => none

def classLiteralValue (levels : Nat) : Decoder ClassLiteral := fun scan => do
  match classLiteralOfJson? (← anything levels scan) with
  | some literal => return literal
  | none => mismatched (.noForm .classLiteralForm)

def counterOfText? (text : String) : Option (SignedWord 64) := do
  let value ← Decimal.integerOfChars? (Text.trimChars text.toList)
  SignedWord.ofInt? 64 value

def longCounter (levels : Nat) : Decoder (SignedWord 64) := fun scan => do
  match ← anything levels scan with
  | .number (.integer value) =>
    match SignedWord.ofInt? 64 value with
    | some word => return word
    | none => mismatched (.noForm .numberForm)
  | .string text =>
    match counterOfText? text with
    | some word => return word
    | none => mismatched (.notCounter text)
  | _ => mismatched (.noForm .numberForm)

def integerCounter (levels : Nat) : Decoder (SignedWord 32) := fun scan => do
  let value ← longCounter levels scan
  match SignedWord.ofInt? 32 value.toInt with
  | some word => return word
  | none => mismatched (.counterOutOfRange value.toInt)

def maybeRecord {α : Type} (decoder : Decoder α) :=
  Record.field (.required "present" [] boolean) <|
  Record.field ⟨"value", [], optional decoder, some none, false⟩ Record.done

def maybe {α : Type} (source : Source) (levels : Nat) (decoder : Nat → Decoder α) :
    Decoder (Option α) := fun scan => do
  let owned ← optional (opening (.record "MaybeOwned")
    (fun inner => (maybeRecord (decoder inner)).decode source "MaybeOwned") levels) scan
  match owned with
  | none => return none
  | some (false, _, ()) => return none
  | some (true, some value, ()) => return some value
  | some (true, none, ()) => mismatched .presentWithoutValue

end TestDelegation.Decoder
