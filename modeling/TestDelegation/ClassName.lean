import TestDelegation.Decoding.Basic
import TestDelegation.Text.Strip

/-!
Fully-qualified names of test classes: segments joined by points, the last of which is the simple
name and the others the package.
-/

namespace TestDelegation

inductive ClassNameFault where
  | empty
  | blank
  | emptySegment
  deriving DecidableEq, Repr

def ClassNameFault.reason : ClassNameFault → String
  | .empty => "class name is empty"
  | .blank => "class name contains whitespace"
  | .emptySegment => "class name has an empty segment"

structure ClassNameError where
  input : String
  fault : ClassNameFault
  deriving DecidableEq

def ClassNameError.message (error : ClassNameError) : String :=
  "invalid test class name `" ++ error.input ++ "`: " ++ error.fault.reason

def segments : List Char → List (List Char)
  | [] => [[]]
  | char :: rest =>
    if char == '.' then [] :: segments rest
    else
      match segments rest with
      | [] => [[char]]
      | first :: later => (char :: first) :: later

/-- What stands before and after the last point of a text, if there is one. -/
def splitAtLast? : List Char → Option (List Char × List Char)
  | [] => none
  | char :: rest =>
    match splitAtLast? rest with
    | some (before, after) => some (char :: before, after)
    | none => if char == '.' then some ([], rest) else none

def classNameFault? (name : String) : Option ClassNameFault :=
  let chars := name.toList
  if chars.isEmpty then some .empty
  else if chars.any Text.isBlank then some .blank
  else if (segments chars).any List.isEmpty then some .emptySegment
  else none

structure ClassName where
  text : String
  sound : classNameFault? text = none
  deriving DecidableEq

namespace ClassName

def parse (input : String) : Except ClassNameError ClassName :=
  match found : classNameFault? input with
  | none => .ok ⟨input, found⟩
  | some fault => .error ⟨input, fault⟩

def package (name : ClassName) : String :=
  match splitAtLast? name.text.toList with
  | some (package, _) => String.ofList package
  | none => ""

def simpleName (name : ClassName) : String :=
  match splitAtLast? name.text.toList with
  | some (_, simple) => String.ofList simple
  | none => name.text

def topLevelNamespace (name : ClassName) : String :=
  String.ofList ((segments name.package.toList).headD [])

end ClassName

def Decoder.className : Decoder ClassName := fun scan =>
  match Decoder.string scan with
  | .error error => .error error
  | .ok text =>
    match ClassName.parse text with
    | .ok name => .ok name
    | .error error => mismatched (.refused error.message)

end TestDelegation
