import TestDelegation.Delegation
import TestDelegation.Notification.Event

/-!
The notifier delivers the notices of runs to its listeners and adds up their result. A stop may be
requested from outside at any time, or by a listener that receives an event; from then on every
notice that begins the report of a test is refused.
-/

namespace TestDelegation

structure Reading where
  timestamp : Timestamp
  uptime : Duration

abbrev Clock := Nat → Reading

structure Listener where
  received : List Event := []
  asksToStop : List Event → Bool := fun _ => false

namespace Listener

def receive (listener : Listener) (event : Event) : Listener :=
  { listener with received := listener.received ++ [event] }

def stopper (position : Nat) : Listener where
  asksToStop events := events.length == position

end Listener

structure Notifier where
  listeners : List Listener := []
  stopRequested : Bool := false
  /-- Whether somebody outside requests a stop before the n-th look at the request. -/
  interrupts : Nat → Bool := fun _ => false
  looks : Nat := 0
  clock : Clock
  readings : Nat
  startedAt : Duration
  result : RunResult

namespace Notifier

def new (clock : Clock) : Notifier where
  clock := clock
  readings := 1
  startedAt := (clock 0).uptime
  result := .new (clock 0).timestamp

def addListener (notifier : Notifier) (listener : Listener) : Notifier :=
  { notifier with listeners := notifier.listeners ++ [listener] }

def pleaseStop (notifier : Notifier) : Notifier := { notifier with stopRequested := true }

/-- Looks at the stop request, which may have come from outside in the meantime. -/
def look (notifier : Notifier) : Notifier × Bool :=
  let stop := notifier.stopRequested || notifier.interrupts notifier.looks
  ({ notifier with stopRequested := stop, looks := notifier.looks + 1 }, stop)

def deliver (notifier : Notifier) (event : Event) : Notifier :=
  let listeners := notifier.listeners.map fun listener => listener.receive event
  { notifier with
    listeners := listeners
    stopRequested := notifier.stopRequested ||
      listeners.any fun listener => listener.asksToStop listener.received }

def fire (notifier : Notifier) (notice : Notice) : Notifier :=
  let reading := notifier.clock notifier.readings
  deliver
    { notifier with
      readings := notifier.readings + 1
      result := notifier.result.record notice }
    { timestamp := reading.timestamp
      elapsed := reading.uptime.since notifier.startedAt
      notice := notice }

def attempt (notifier : Notifier) (notice : Notice) : Notifier × Except StoppedByUser Unit :=
  if notice.canBeRefused then
    match notifier.look with
    | (notifier, true) => (notifier, .error .stopped)
    | (notifier, false) => (notifier.fire notice, .ok ())
  else (notifier.fire notice, .ok ())

def attemptAll (notifier : Notifier) : List Notice → Notifier × Except StoppedByUser Unit
  | [] => (notifier, .ok ())
  | notice :: rest =>
    match notifier.attempt notice with
    | (notifier, .ok ()) => notifier.attemptAll rest
    | (notifier, .error stop) => (notifier, .error stop)

def startRun (notifier : Notifier) (description : Description) : Notifier :=
  let reading := notifier.clock notifier.readings
  fire
    { notifier with
      readings := notifier.readings + 1
      startedAt := reading.uptime
      result := .new reading.timestamp }
    (.runStarted description)

def finishRun (notifier : Notifier) : Notifier × RunResult :=
  let reading := notifier.clock notifier.readings
  let result := { notifier.result with runTime := reading.uptime.since notifier.startedAt }
  (fire { notifier with readings := notifier.readings + 1, result := result }
    (.runFinished result), result)

def testStarted (notifier : Notifier) (description : Description) :
    Notifier × Except StoppedByUser Unit :=
  notifier.attempt (.testStarted description)

def testFinished (notifier : Notifier) (description : Description) : Notifier :=
  notifier.fire (.testFinished description)

def testIgnored (notifier : Notifier) (description : Description) :
    Notifier × Except StoppedByUser Unit :=
  notifier.attempt (.testIgnored description)

def testFailure (notifier : Notifier) (failure : Failure) :
    Notifier × Except StoppedByUser Unit :=
  notifier.attempt (.testFailure failure)

end Notifier

structure TestNotifier where
  notifier : Notifier
  description : Description

namespace TestNotifier

def started (test : TestNotifier) : Notifier × Except StoppedByUser Unit :=
  test.notifier.testStarted test.description

def finished (test : TestNotifier) : Notifier := test.notifier.testFinished test.description

def ignored (test : TestNotifier) : Notifier × Except StoppedByUser Unit :=
  test.notifier.testIgnored test.description

def failed (test : TestNotifier) (cause : FailureCause) : Notifier × Except StoppedByUser Unit :=
  test.notifier.testFailure ⟨test.description, cause⟩

end TestNotifier

end TestDelegation
