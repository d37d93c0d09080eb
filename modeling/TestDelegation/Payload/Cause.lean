import TestDelegation.Decoding.Basic

/-!
Causes of failed tests: a chain of throwables, each with its stack frames, outermost first.
-/

namespace TestDelegation

structure StackFrame where
  declaringClass : String
  methodName : String
  fileName : Option String
  lineNumber : SignedWord 32
  deriving DecidableEq

def StackFrame.location (frame : StackFrame) : String :=
  match frame.fileName with
  | none => "(Unknown Source)"
  | some file =>
    if 0 ≤ frame.lineNumber.toInt then
      "(" ++ file ++ ":" ++ Decimal.integerText frame.lineNumber.toInt ++ ")"
    else "(" ++ file ++ ")"

def StackFrame.display (frame : StackFrame) : String :=
  "at " ++ frame.declaringClass ++ "." ++ frame.methodName ++ frame.location

structure Thrown where
  exceptionType : Option String := none
  message : Option String := none
  stackTrace : List StackFrame := []
  deriving DecidableEq

def Thrown.display (thrown : Thrown) : String :=
  match thrown.exceptionType, thrown.message with
  | some exceptionType, some message => exceptionType ++ ": " ++ message
  | some exceptionType, none => exceptionType
  | none, some message => message
  | none, none => "(no message)"

structure FailureCause where
  outer : Thrown
  nested : List Thrown := []
  deriving DecidableEq

namespace FailureCause

def new (exceptionType message : String) : FailureCause :=
  ⟨⟨some exceptionType, some message, []⟩, []⟩

def ofMessage (message : String) : FailureCause :=
  ⟨⟨none, some message, []⟩, []⟩

def chain (cause : FailureCause) : List Thrown := cause.outer :: cause.nested

def inner? (cause : FailureCause) : Option FailureCause :=
  match cause.nested with
  | [] => none
  | outer :: nested => some ⟨outer, nested⟩

def withCause (cause inner : FailureCause) : FailureCause :=
  { cause with nested := inner.chain }

def withoutCause (cause : FailureCause) : FailureCause :=
  { cause with nested := [] }

def display (cause : FailureCause) : String := cause.outer.display

end FailureCause

end TestDelegation
