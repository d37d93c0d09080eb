import TestDelegation.Notification.Notifier

/-!
The calls on a new notifier, in any order, with their answers. Main definitions:
`Operation.perform` and `History`.
-/

namespace TestDelegation

inductive TestCall where
  | started (description : Description)
  | finished (description : Description)
  | ignored (description : Description)
  | failed (failure : Failure)

namespace TestCall

def notice : TestCall → Notice
  | .started description => .testStarted description
  | .finished description => .testFinished description
  | .ignored description => .testIgnored description
  | .failed failure => .testFailure failure

def onNotifier (notifier : Notifier) : TestCall → Notifier × Except StoppedByUser Unit
  | .started description => notifier.testStarted description
  | .finished description => (notifier.testFinished description, .ok ())
  | .ignored description => notifier.testIgnored description
  | .failed failure => notifier.testFailure failure

def onTestNotifier (notifier : Notifier) : TestCall → Notifier × Except StoppedByUser Unit
  | .started description => (TestNotifier.mk notifier description).started
  | .finished description => ((TestNotifier.mk notifier description).finished, .ok ())
  | .ignored description => (TestNotifier.mk notifier description).ignored
  | .failed failure => (TestNotifier.mk notifier failure.description).failed failure.cause

theorem onNotifier_eq_attempt (notifier : Notifier) (call : TestCall) :
    call.onNotifier notifier = notifier.attempt call.notice := by
  cases call with
  | started description => rfl
  | finished description => rfl
  | ignored description => rfl
  | failed failure => rfl

theorem onTestNotifier_eq_attempt (notifier : Notifier) (call : TestCall) :
    call.onTestNotifier notifier = notifier.attempt call.notice := by
  cases call with
  | started description => rfl
  | finished description => rfl
  | ignored description => rfl
  | failed failure => rfl

end TestCall

inductive Operation where
  | addListener (listener : Listener)
  | pleaseStop
  | isStopRequested
  | startRun (description : Description)
  | finishRun
  | tell (call : TestCall)
  | tellBound (call : TestCall)

inductive Answer where
  | done
  | requested (stop : Bool)
  | finished (result : RunResult)
  | told (outcome : Except StoppedByUser Unit)

def Operation.perform (notifier : Notifier) : Operation → Notifier × Answer
  | .addListener listener => (notifier.addListener listener, .done)
  | .pleaseStop => (notifier.pleaseStop, .done)
  | .isStopRequested => (notifier.look.1, .requested notifier.look.2)
  | .startRun description => (notifier.startRun description, .done)
  | .finishRun => (notifier.finishRun.1, .finished notifier.finishRun.2)
  | .tell call => ((call.onNotifier notifier).1, .told (call.onNotifier notifier).2)
  | .tellBound call => ((call.onTestNotifier notifier).1, .told (call.onTestNotifier notifier).2)

structure Step where
  operation : Operation
  answer : Answer

def TestCall.accepted (call : TestCall) : Except StoppedByUser Unit → List Notice
  | .ok () => [call.notice]
  | .error _ => []

def Step.notices (step : Step) : List Notice :=
  match step.operation, step.answer with
  | .startRun description, _ => [.runStarted description]
  | .finishRun, .finished result => [.runFinished result]
  | .tell call, .told outcome => call.accepted outcome
  | .tellBound call, .told outcome => call.accepted outcome
  | _, _ => []

/-- A listener that was added when so many notices had been fired. -/
structure Addition where
  listener : Listener
  position : Nat

def Operation.additions (position : Nat) : Operation → List Addition
  | .addListener listener => [⟨listener, position⟩]
  | _ => []

def additionsFrom (position : Nat) : List Step → List Addition
  | [] => []
  | step :: rest =>
    step.operation.additions position ++ additionsFrom (position + step.notices.length) rest

/-- The calls on a notifier since it was new, and what has become of it. -/
structure History where
  notifier : Notifier
  steps : List Step := []

theorem additionsFrom_append (position : Nat) (first second : List Step) :
    additionsFrom position (first ++ second) = additionsFrom position first ++
      additionsFrom (position + (first.flatMap Step.notices).length) second := by
  induction first generalizing position with
  | nil => rfl
  | cons step rest ih =>
      rw [List.cons_append, additionsFrom, additionsFrom, ih, List.flatMap_cons, List.length_append,
        List.append_assoc, Nat.add_assoc]

namespace History

def new (clock : Clock) (interrupts : Nat → Bool) : History where
  notifier := { Notifier.new clock with interrupts := interrupts }

def perform (history : History) (operation : Operation) : History where
  notifier := (operation.perform history.notifier).1
  steps := history.steps ++ [⟨operation, (operation.perform history.notifier).2⟩]

def performAll (history : History) (operations : List Operation) : History :=
  operations.foldl perform history

def fired (history : History) : List Notice := history.steps.flatMap Step.notices

def additions (history : History) : List Addition := additionsFrom 0 history.steps

theorem fired_perform (history : History) (operation : Operation) :
    (history.perform operation).fired =
      history.fired ++ (Step.mk operation (operation.perform history.notifier).2).notices := by
  rw [fired, perform, List.flatMap_append, List.flatMap_singleton]
  rfl

theorem additions_perform (history : History) (operation : Operation) :
    (history.perform operation).additions =
      history.additions ++ operation.additions history.fired.length := by
  rw [additions, perform, additionsFrom_append, Nat.zero_add, additionsFrom, additionsFrom,
    List.append_nil]
  rfl

theorem performAll_append (history : History) (first second : List Operation) :
    history.performAll (first ++ second) = (history.performAll first).performAll second :=
  List.foldl_append

end History

end TestDelegation
