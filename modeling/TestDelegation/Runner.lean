import TestDelegation.Notification.Notifier

/-!
A runner stands in for one test class: it fetches the result of the remote run in one request and
reports it as if the tests had run here. Main definitions: `Runner.delegate`, `Runner.run` and
`Runner.execute`.
-/

namespace TestDelegation

structure Request where
  url : String
  readTimeout : Duration
  deriving DecidableEq

namespace Request

def acceptedType : String := "application/json"

end Request

abbrev Transport := Request → Except TransportError Response

abbrev Assumption := ClassName → Except AssumptionViolated Unit

structure Runner where
  className : ClassName
  settings : Settings
  transport : Transport
  codec : Codec := .default
  assumptions : List Assumption := []

structure Course (α : Type) where
  checked : Nat := 0
  requests : List Request := []
  result : α

structure Run where
  notifier : Notifier
  course : Course (Except DelegationError OutcomeSet)
  result : Except StoppedByUser Unit

namespace Runner

def description (runner : Runner) : Description := .ofClass runner.className

def resourceUrl (runner : Runner) : Except ConfigurationError String :=
  runner.settings.resourceUrl runner.className

def request (runner : Runner) : Except ConfigurationError Request :=
  runner.resourceUrl.map fun url => ⟨url, runner.settings.readTimeout⟩

def checkNamespace (runner : Runner) : Except ConfigurationError Unit :=
  runner.settings.checkNamespace runner.className

/-- Checks assumptions up to the first that is violated; `checked` of them came before. -/
def checkFrom (className : ClassName) (checked : Nat) :
    List Assumption → Nat × Except AssumptionViolated Unit
  | [] => (checked, .ok ())
  | assumption :: rest =>
    match assumption className with
    | .ok () => checkFrom className (checked + 1) rest
    | .error violation => (checked + 1, .error violation)

def checkAssumptions (runner : Runner) : Nat × Except AssumptionViolated Unit :=
  checkFrom runner.className 0 runner.assumptions

def outcomesOf (runner : Runner) (request : Request)
    (answer : Except TransportError Response) : Except DelegationError OutcomeSet := do
  let response ← answer.mapError .transport
  let body ← (response.intoBody request.url).mapError .transport
  (runner.codec.decode body).mapError .decode

def fetch (runner : Runner) : Course (Except DelegationError OutcomeSet) :=
  match runner.request with
  | .error error => { result := .error (.configuration error) }
  | .ok request =>
    { requests := [request], result := runner.outcomesOf request (runner.transport request) }

def delegate (runner : Runner) : Course (Except DelegationError OutcomeSet) :=
  match runner.checkNamespace with
  | .error error => { result := .error (.configuration error) }
  | .ok () => runner.fetch

/--
Everything before the report: the namespace, the assumptions, whether a stop is requested, then
the request.
-/
def prepare (runner : Runner) (notifier : Notifier) :
    Notifier × Course (Except DelegationError OutcomeSet) :=
  match runner.checkNamespace with
  | .error error => (notifier, { result := .error (.configuration error) })
  | .ok () =>
    match runner.checkAssumptions with
    | (checked, .error violation) =>
      (notifier, { checked := checked, result := .error (.assumption violation) })
    | (checked, .ok ()) =>
      match notifier.look with
      | (notifier, true) =>
        (notifier, { checked := checked, result := .error (.stopped .stopped) })
      | (notifier, false) => (notifier, { runner.fetch with checked := checked })

def methodNotices (className : ClassName) (outcome : MethodOutcome) : List Notice :=
  let description := Description.ofMethod className outcome.method
  match outcome.outcome with
  | .passed => [.testStarted description, .testFinished description]
  | .ignored => [.testIgnored description]
  | .failed cause => [.testFailure ⟨description, cause⟩]

/-- A remote run without any tests counts as a failure. -/
def emptyNotice (className : ClassName) : Notice :=
  let message := "No tests found in class [" ++ className.text ++ "]"
  .testFailure ⟨.suite message, .ofMessage message⟩

def outcomeNotices (className : ClassName) (set : OutcomeSet) : List Notice :=
  if set.isEmpty then [emptyNotice className]
  else set.outcomes.flatMap (methodNotices className)

/-- An assumption that does not hold skips the class; other errors are one failure of the class. -/
def errorNotice (description : Description) (error : DelegationError) : Notice :=
  match error with
  | .assumption _ => .testIgnored description
  | .configuration _ => .testFailure ⟨description, error.cause⟩
  | .transport _ => .testFailure ⟨description, error.cause⟩
  | .decode _ => .testFailure ⟨description, error.cause⟩
  | .stopped _ => .testFailure ⟨description, error.cause⟩

def run (runner : Runner) (notifier : Notifier) : Run :=
  match runner.prepare notifier with
  | (notifier, course) =>
    let reported :=
      match course.result with
      | .ok set => notifier.attemptAll (outcomeNotices runner.className set)
      | .error (.stopped stop) => (notifier, .error stop)
      | .error error => notifier.attempt (errorNotice runner.description error)
    { notifier := reported.1, course := course, result := reported.2 }

end Runner

structure Execution where
  notifier : Notifier
  course : Course (Except DelegationError OutcomeSet)
  result : Except StoppedByUser RunResult

/-- Runs the class between the announcements of its start and its end; a stopped run has no end. -/
def Runner.execute (runner : Runner) (notifier : Notifier) : Execution :=
  let run := runner.run (notifier.startRun runner.description)
  match run.result with
  | .error stop => { notifier := run.notifier, course := run.course, result := .error stop }
  | .ok () =>
    let (notifier, result) := run.notifier.finishRun
    { notifier := notifier, course := run.course, result := .ok result }

end TestDelegation
