import TestDelegation.Payload.Cause
import TestDelegation.SortedMap

/-!
The payload that a remote service returns for one test class.
-/

namespace TestDelegation

structure Annotation where
  annotationType : String
  deriving DecidableEq

structure ClassLiteral where
  name : String
  deriving DecidableEq

structure RemoteDescription where
  displayName : String
  annotations : List Annotation
  testClass : Option ClassLiteral
  children : List RemoteDescription

structure RemoteFailure where
  description : Option RemoteDescription
  cause : FailureCause

structure RunSummary where
  count : SignedWord 32
  ignoreCount : SignedWord 32
  runTime : SignedWord 64
  startTime : SignedWord 64
  failures : List RemoteFailure

/-- Lists may repeat a method; a failed method has one failure. -/
structure ResultDetail where
  classname : Option String
  testResult : Option RunSummary
  passedMethods : List String
  ignoredMethods : List String
  failedMethods : SortedMap RemoteFailure

end TestDelegation
