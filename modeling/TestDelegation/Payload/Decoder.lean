import TestDelegation.Json.Scanner
import TestDelegation.Payload.Adapter

/-!
Decoders of the payload's records. Each takes the number of levels that may still be opened, which
is also what their recursion runs on.
-/

namespace TestDelegation.Decoder

def listAt {α : Type} (decoder : Nat → Decoder α) : Nat → Decoder (List α) :=
  opening .sequence fun levels => list (decoder levels)

def frameRecord :=
  Record.field (.required "declaringClass" [] string) <|
  Record.field (.required "methodName" [] string) <|
  Record.field (.defaulted "fileName" [] (optional string) none) <|
  Record.field (.defaulted "lineNumber" [] (word 32) (SignedWord.zero 32)) Record.done

def frame (source : Source) : Nat → Decoder StackFrame :=
  opening (.record "StackFrame") fun _ scan => do
    let (declaringClass, methodName, fileName, lineNumber, ()) ←
      frameRecord.decode source "StackFrame" scan
    return { declaringClass, methodName, fileName, lineNumber }

def causeRecord (source : Source) (levels : Nat) (inner : Decoder FailureCause) :=
  Record.field (.defaulted "type" ["class"] (optional string) none) <|
  Record.field (.defaulted "message" ["detailMessage"] (optional string) none) <|
  Record.field (.defaulted "stackTrace" [] (listAt (frame source) levels) []) <|
  Record.field (.defaulted "cause" [] (optional inner) none) Record.done

def cause (source : Source) : Nat → Decoder FailureCause
  | 0, scan => noLevel (.record "FailureCause") scan
  | levels + 1, scan => do
    let (exceptionType, message, stackTrace, inner, ()) ←
      (causeRecord source levels (cause source levels)).decode source "FailureCause" scan
    let outer : Thrown := { exceptionType, message, stackTrace }
    match inner with
    | none => return ⟨outer, []⟩
    | some inner => return ⟨outer, inner.chain⟩

def descriptionRecord (levels : Nat) (children : Decoder (List RemoteDescription)) :=
  Record.field (.defaulted "fDisplayName" ["displayName"] string "") <|
  Record.field (.defaulted "fAnnotations" ["annotations"] (listAt annotationValue levels) []) <|
  Record.field
    (.defaulted "fTestClass" ["testClass"] (optional (classLiteralValue levels)) none) <|
  Record.field (.defaulted "fChildren" ["children"] children []) Record.done

def describe (source : Source) (levels : Nat) (children : Decoder (List RemoteDescription)) :
    Decoder RemoteDescription := fun scan => do
  let (displayName, annotations, testClass, children, ()) ←
    (descriptionRecord levels children).decode source "RemoteDescription" scan
  return { displayName, annotations, testClass, children }

def description (source : Source) : Nat → Decoder RemoteDescription
  | 0, scan => noLevel (.record "RemoteDescription") scan
  | 1, scan => describe source 0 (noLevel .sequence) scan
  | levels + 2, scan =>
    describe source (levels + 1) (list fun child => description source levels child) scan

def failureRecord (source : Source) (levels : Nat) :=
  Record.field
    (.defaulted "description" ["fDescription"] (optional (description source levels)) none) <|
  Record.field (.required "cause" ["fThrownException"] (cause source levels)) Record.done

def failure (source : Source) : Nat → Decoder RemoteFailure :=
  opening (.record "RemoteFailure") fun levels scan => do
    let (description, cause, ()) ←
      (failureRecord source levels).decode source "RemoteFailure" scan
    return { description, cause }

def summaryRecord (source : Source) (levels : Nat) :=
  Record.field (.defaulted "count" [] (integerCounter levels) (SignedWord.zero 32)) <|
  Record.field (.defaulted "ignoreCount" [] (integerCounter levels) (SignedWord.zero 32)) <|
  Record.field (.defaulted "runTime" [] (longCounter levels) (SignedWord.zero 64)) <|
  Record.field (.defaulted "startTime" [] (longCounter levels) (SignedWord.zero 64)) <|
  Record.field (.defaulted "failures" [] (listAt (failure source) levels) []) Record.done

def summary (source : Source) : Nat → Decoder RunSummary :=
  opening (.record "RunSummary") fun levels scan => do
    let (count, ignoreCount, runTime, startTime, failures, ()) ←
      (summaryRecord source levels).decode source "RunSummary" scan
    return { count, ignoreCount, runTime, startTime, failures }

def uniqueMapAt {α : Type} (decoder : Nat → Decoder α) : Nat → Decoder (SortedMap α) :=
  opening .uniqueKeys fun levels => uniqueMap (decoder levels)

def detailRecord (source : Source) (levels : Nat) :=
  Record.field (.defaulted "classname" [] (optional string) none) <|
  Record.field (.defaulted "testResult" [] (maybe source levels (summary source)) none) <|
  Record.field (.required "passedMethods" [] (listAt (fun _ => string) levels)) <|
  Record.field (.required "ignoredMethods" [] (listAt (fun _ => string) levels)) <|
  Record.field (.required "failedMethods" [] (uniqueMapAt (failure source) levels)) Record.done

def detail (source : Source) : Nat → Decoder ResultDetail :=
  opening (.record "TestResultDetail") fun levels scan => do
    let (classname, testResult, passedMethods, ignoredMethods, failedMethods, ()) ←
      (detailRecord source levels).decode source "TestResultDetail" scan
    return { classname, testResult, passedMethods, ignoredMethods, failedMethods }

/-- Decodes a whole text, which must hold the value and nothing after it. -/
def ofText {α : Type} (decoder : Nat → Decoder α) (text : String) : Except ReadError α := do
  let document := Json.scan text
  let value ← decoder levelLimit document.value
  if document.trailing then broken .malformed else return value

def ofJson {α : Type} (decoder : Nat → Decoder α) (value : Json) : Except ReadError α :=
  decoder levelLimit (Scan.ofJson value)

end TestDelegation.Decoder
