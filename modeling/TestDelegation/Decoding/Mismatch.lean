import TestDelegation.Decimal.Digits
import TestDelegation.Decimal.Shortest
import TestDelegation.Json.Scan
import TestDelegation.Text.Quoted

/-!
Ways in which a JSON value fails to be of the shape that is asked for, and the text of each.
-/

namespace TestDelegation

inductive Found where
  | null
  | bool (value : Bool)
  | number (value : Numeral)
  | string (value : String)
  | sequence
  | map

def Found.message : Found → String
  | .null => "null"
  | .bool true => "boolean `true`"
  | .bool false => "boolean `false`"
  | .number (.integer value) => "integer `" ++ Decimal.integerText value ++ "`"
  | .number (.real value) => "floating point `" ++ String.ofList value.jsonChars ++ "`"
  | .string value => "string " ++ Text.quoted value
  | .sequence => "sequence"
  | .map => "map"

inductive Expected where
  | string
  | boolean
  | sequence
  | record (name : String)
  | word (bits : Nat)
  | uniqueKeys

def Expected.message : Expected → String
  | .string => "a string"
  | .boolean => "a boolean"
  | .sequence => "a sequence"
  | .record name => "struct " ++ name
  | .word bits => "i" ++ Decimal.natText bits
  | .uniqueKeys => "a map with unique keys"

inductive FormChoice where
  | annotationForm
  | classLiteralForm
  | numberForm

def FormChoice.name : FormChoice → String
  | .annotationForm => "AnnotationRepr"
  | .classLiteralForm => "ClassLiteralRepr"
  | .numberForm => "NumberRepr"

inductive Mismatch where
  | wrongType (found : Found) (expected : Expected)
  | outOfRange (value : Int) (expected : Expected)
  | missingField (name : String)
  | duplicateField (name : String)
  | tooFewItems (length : Nat) (record : String) (size : Nat)
  | tooManyItems (length : Nat)
  | noForm (choice : FormChoice)
  | presentWithoutValue
  | notCounter (text : String)
  | counterOutOfRange (value : Int)
  | duplicateKey (key : String)
  | refused (message : String)

def elementCount (size : Nat) : String :=
  if size == 1 then "1 element" else Decimal.natText size ++ " elements"

def Mismatch.message : Mismatch → String
  | .wrongType found expected =>
    "invalid type: " ++ found.message ++ ", expected " ++ expected.message
  | .outOfRange value expected =>
    "invalid value: integer `" ++ Decimal.integerText value ++ "`, expected " ++ expected.message
  | .missingField name => "missing field `" ++ name ++ "`"
  | .duplicateField name => "duplicate field `" ++ name ++ "`"
  | .tooFewItems length record size =>
    "invalid length " ++ Decimal.natText length ++ ", expected struct " ++ record ++ " with " ++
      elementCount size
  | .tooManyItems length =>
    "invalid length " ++ Decimal.natText length ++ ", expected fewer elements in array"
  | .noForm choice => "data did not match any variant of untagged enum " ++ choice.name
  | .presentWithoutValue => "maybe value is present but has no `value`"
  | .notCounter text => "expected an integer counter, found `" ++ text ++ "`"
  | .counterOutOfRange value =>
    "counter " ++ Decimal.integerText value ++ " out of range for 32 bits"
  | .duplicateKey key => "duplicate key `" ++ key ++ "`"
  | .refused message => message

inductive ReadError where
  | text (fault : Fault)
  | shape (mismatch : Mismatch)

def Fault.message : Fault → String
  | .ended => "<json eof>"
  | .malformed => "<json syntax>"

/-- What is wrong in short: neither the place in the text nor more of its syntax is told. -/
def ReadError.message : ReadError → String
  | .text fault => fault.message
  | .shape mismatch => mismatch.message

inductive ErrorTrail where
  | last (text : String)
  | caused (text : String) (source : ErrorTrail)

namespace ErrorTrail

def text : ErrorTrail → String
  | .last text => text
  | .caused text _ => text

def sources : ErrorTrail → List String
  | .last _ => []
  | .caused _ source => source.text :: source.sources

def texts (trail : ErrorTrail) : List String := trail.text :: trail.sources

end ErrorTrail

end TestDelegation
