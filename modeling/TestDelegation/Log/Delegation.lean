import TestDelegation.Log.Entry
import TestDelegation.Runner

/-!
What a run writes to the log: the request, the answer to it, and what was made of it.
-/

namespace TestDelegation

namespace LogTarget

def config : String := "delegate_runner::config"
def codec : String := "delegate_runner::codec"
def http : String := "delegate_runner::http"
def runner : String := "delegate_runner::runner"
def junit : String := "delegate_runner::reporter::junit"
def dispatch : String := "delegate_cli::dispatch"
def errors : String := "delegate_cli::errors"

end LogTarget

namespace Runner

def requestLog (request : Request) : List LogEntry :=
  [{ level := .debug, target := LogTarget.runner, message := "delegating test class"
     fields := [("url", request.url)] },
    { level := .debug, target := LogTarget.http, message := "sending request"
      fields := [("url", request.url), ("read_timeout", request.readTimeout.logText)] }]

def count (number : Nat) : String := Decimal.natText number

/-- The entries for a decoded set; the last one stands only if every outcome was reported. -/
def outcomeLog (className : ClassName) (set : OutcomeSet) (reported : Bool) : List LogEntry :=
  let decoded : LogEntry :=
    { level := .debug, target := LogTarget.codec, message := "decoded remote test result"
      fields := [("total", count set.totalCount)] }
  let name := ("class_name", className.text)
  if set.isEmpty then
    [decoded,
      { level := .warning, target := LogTarget.runner
        message := "remote run reported no tests", fields := [name] }]
  else if reported then
    [decoded,
      { level := .info, target := LogTarget.runner, message := "replayed remote test results"
        fields :=
          [name, ("passed", count set.passed.length), ("ignored", count set.ignored.length),
            ("failed", count set.failed.length)] }]
  else [decoded]

def errorLog (className : ClassName) (error : DelegationError) : LogEntry :=
  let name := ("class_name", className.text)
  let failed : LogEntry :=
    { level := .warning, target := LogTarget.runner, message := "delegation failed"
      fields := [name, ("error", error.message)] }
  match error with
  | .stopped _ =>
    { level := .debug, target := LogTarget.runner
      message := "stop requested, not sending request" }
  | .assumption violation =>
    { level := .info, target := LogTarget.runner, message := "skipping class"
      fields := [name, ("message", violation.message)] }
  | .configuration _ => failed
  | .transport _ => failed
  | .decode _ => failed

def runLog (className : ClassName) (course : Course (Except DelegationError OutcomeSet))
    (reported : Bool) : List LogEntry :=
  course.requests.flatMap requestLog ++
    match course.result with
    | .ok set => outcomeLog className set reported
    | .error error => [errorLog className error]

end Runner

end TestDelegation
