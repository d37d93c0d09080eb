import TestDelegation.Notification.Description
import TestDelegation.Timestamp

/-!
Notices of a run, the events that carry them, and the result that they add up to. Main definition:
`RunResult.record`.
-/

namespace TestDelegation

structure RunResult where
  startTime : Timestamp
  runTime : Duration
  startedCount : Nat
  runCount : Nat
  failureCount : Nat
  ignoreCount : Nat
  failures : List Failure
  deriving DecidableEq

inductive Notice where
  | runStarted (description : Description)
  | runFinished (result : RunResult)
  | testStarted (description : Description)
  | testFinished (description : Description)
  | testIgnored (description : Description)
  | testFailure (failure : Failure)
  deriving DecidableEq

namespace Notice

def name : Notice → String
  | .runStarted _ => "run-started"
  | .runFinished _ => "run-finished"
  | .testStarted _ => "test-started"
  | .testFinished _ => "test-finished"
  | .testIgnored _ => "test-ignored"
  | .testFailure _ => "test-failure"

/-- Notices that are refused once a stop is requested: those that begin the report of a test. -/
def canBeRefused : Notice → Bool
  | .testStarted _ => true
  | .testIgnored _ => true
  | .testFailure _ => true
  | .runStarted _ => false
  | .runFinished _ => false
  | .testFinished _ => false

end Notice

namespace RunResult

def new (startTime : Timestamp) : RunResult := ⟨startTime, .zero, 0, 0, 0, 0, []⟩

def wasSuccessful (result : RunResult) : Bool := result.failureCount == 0

def record (result : RunResult) : Notice → RunResult
  | .testStarted _ => { result with startedCount := result.startedCount + 1 }
  | .testFinished _ => { result with runCount := result.runCount + 1 }
  | .testIgnored _ => { result with ignoreCount := result.ignoreCount + 1 }
  | .testFailure failure =>
    { result with
      failureCount := result.failureCount + 1
      failures := result.failures ++ [failure] }
  | .runStarted _ => result
  | .runFinished _ => result

end RunResult

structure Event where
  timestamp : Timestamp
  elapsed : Duration
  notice : Notice
  deriving DecidableEq

end TestDelegation
