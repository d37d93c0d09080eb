import TestDelegation.Notification.Event

/-!
Lines for people: those of a failure and its causes, and the report with one line for each start and
end of a run, failure and ignored test.
-/

namespace TestDelegation

namespace Failure

def message? (failure : Failure) : Option String := failure.cause.outer.message

def display (failure : Failure) : String :=
  failure.description.displayName ++ ": " ++ failure.cause.display

end Failure

def renderThrown (thrown : Thrown) : String :=
  thrown.display ++ "\n" ++
    String.join (thrown.stackTrace.map fun frame => "    " ++ frame.display ++ "\n")

def renderCause (cause : FailureCause) : String :=
  renderThrown cause.outer ++
    String.join (cause.nested.map fun thrown => "caused by: " ++ renderThrown thrown)

namespace Report

def line? : Notice → Option String
  | .runStarted description => some description.displayName
  | .runFinished result =>
    some ("finished with success:" ++ if result.wasSuccessful then "true" else "false")
  | .testFailure failure => some failure.description.displayName
  | .testIgnored description => some description.displayName
  | .testStarted _ => none
  | .testFinished _ => none

def lines (events : List Event) : List String :=
  events.filterMap fun event => line? event.notice

def ended (line : String) : String := line ++ "\n"

def linesText (events : List Event) : String :=
  String.join ((lines events).map ended)

end Report

end TestDelegation
