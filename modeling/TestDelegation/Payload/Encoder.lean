import TestDelegation.Json.Printer
import TestDelegation.Payload.Detail

/-!
The payload's records as JSON values: members in declared order, absent and empty ones left out.
-/

namespace TestDelegation

def optionalMember {α : Type} (key : String) (encode : α → Json) :
    Option α → List (String × Json)
  | none => []
  | some value => [(key, encode value)]

def listMember {α : Type} (key : String) (encode : α → Json) : List α → List (String × Json)
  | [] => []
  | items => [(key, .array (items.map encode))]

def SignedWord.encode {bits : Nat} (word : SignedWord bits) : Json := .integer word.toInt

def StackFrame.encode (frame : StackFrame) : Json :=
  .object <|
    [("declaringClass", .string frame.declaringClass), ("methodName", .string frame.methodName)] ++
    optionalMember "fileName" .string frame.fileName ++
    [("lineNumber", frame.lineNumber.encode)]

def Thrown.members (thrown : Thrown) : List (String × Json) :=
  optionalMember "type" .string thrown.exceptionType ++
  optionalMember "message" .string thrown.message ++
  listMember "stackTrace" StackFrame.encode thrown.stackTrace

def Thrown.encode (thrown : Thrown) : List Thrown → Json
  | [] => .object thrown.members
  | inner :: nested => .object (thrown.members ++ [("cause", inner.encode nested)])

def FailureCause.encode (cause : FailureCause) : Json := cause.outer.encode cause.nested

def Annotation.encode (mark : Annotation) : Json :=
  .object [("annotationType", .string mark.annotationType)]

def ClassLiteral.encode (literal : ClassLiteral) : Json := .string literal.name

def RemoteDescription.encode : RemoteDescription → Json
  | ⟨displayName, annotations, testClass, children⟩ =>
    .object <|
      [("fDisplayName", .string displayName)] ++
      listMember "fAnnotations" Annotation.encode annotations ++
      optionalMember "fTestClass" ClassLiteral.encode testClass ++
      childrenMember children
where
  childrenMember : List RemoteDescription → List (String × Json)
    | [] => []
    | child :: rest => [("fChildren", .array (child.encode :: encodeAll rest))]
  encodeAll : List RemoteDescription → List Json
    | [] => []
    | child :: rest => child.encode :: encodeAll rest

def RemoteFailure.encode (failure : RemoteFailure) : Json :=
  .object <|
    optionalMember "description" RemoteDescription.encode failure.description ++
    [("cause", failure.cause.encode)]

def RunSummary.encode (summary : RunSummary) : Json :=
  .object <|
    [("count", summary.count.encode), ("ignoreCount", summary.ignoreCount.encode),
      ("runTime", summary.runTime.encode), ("startTime", summary.startTime.encode)] ++
    listMember "failures" RemoteFailure.encode summary.failures

def encodeMaybe {α : Type} (encode : α → Json) : Option α → Json
  | none => .object [("present", .bool false)]
  | some value => .object [("present", .bool true), ("value", encode value)]

def SortedMap.encode {α : Type} (encode : α → Json) (map : SortedMap α) : Json :=
  .object (map.entries.map fun entry => (entry.1, encode entry.2))

def ResultDetail.encode (detail : ResultDetail) : Json :=
  .object <|
    optionalMember "classname" .string detail.classname ++
    [("testResult", encodeMaybe RunSummary.encode detail.testResult),
      ("passedMethods", .array (detail.passedMethods.map .string)),
      ("ignoredMethods", .array (detail.ignoredMethods.map .string)),
      ("failedMethods", detail.failedMethods.encode RemoteFailure.encode)]

def ResultDetail.render (detail : ResultDetail) : String := detail.encode.render

end TestDelegation
