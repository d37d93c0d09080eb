import TestDelegation.ClassName
import TestDelegation.Payload.Cause

/-!
What a notification is about: one test, a class of tests, or a suite that belongs to no class.
-/

namespace TestDelegation

inductive Description where
  | suite (title : String)
  | ofClass (name : ClassName)
  | ofMethod (name : ClassName) (method : String)
  deriving DecidableEq

namespace Description

def displayName : Description → String
  | .suite title => title
  | .ofClass name => name.text
  | .ofMethod name method => method ++ "(" ++ name.text ++ ")"

def className? : Description → Option ClassName
  | .suite _ => none
  | .ofClass name => some name
  | .ofMethod name _ => some name

def method? : Description → Option String
  | .suite _ => none
  | .ofClass _ => none
  | .ofMethod _ method => some method

def isTest (description : Description) : Bool := description.method?.isSome

end Description

structure Failure where
  description : Description
  cause : FailureCause
  deriving DecidableEq

end TestDelegation
