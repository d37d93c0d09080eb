import TestDelegation.Notification.Event
import TestDelegation.Payload.Encoder

/-!
The report for programs: each event as a JSON object on a line of its own.
-/

namespace TestDelegation

def Description.encode (description : Description) : Json :=
  .object <|
    [("display-name", .string description.displayName)] ++
    optionalMember "class-name" (fun name => .string name.text) description.className? ++
    optionalMember "method" .string description.method?

def Failure.encode (failure : Failure) : Json :=
  .object [("description", failure.description.encode), ("cause", failure.cause.encode)]

def RunResult.encode (result : RunResult) : Json :=
  .object
    [("start-time", .string result.startTime.display),
      ("run-time", .string result.runTime.display),
      ("started-count", .integer result.startedCount), ("run-count", .integer result.runCount),
      ("failure-count", .integer result.failureCount),
      ("ignore-count", .integer result.ignoreCount),
      ("failures", .array (result.failures.map Failure.encode))]

def Notice.content : Notice → String × Json
  | .runStarted description => ("description", description.encode)
  | .runFinished result => ("result", result.encode)
  | .testStarted description => ("description", description.encode)
  | .testFinished description => ("description", description.encode)
  | .testIgnored description => ("description", description.encode)
  | .testFailure failure => ("failure", failure.encode)

def Event.encode (event : Event) : Json :=
  .object
    [("timestamp", .string event.timestamp.display), ("elapsed", .string event.elapsed.display),
      ("event", .string event.notice.name), event.notice.content]

namespace Report

def jsonLine (event : Event) : String := event.encode.render ++ "\n"

def jsonLinesText (events : List Event) : String := String.join (events.map jsonLine)

end Report

end TestDelegation
