import TestDelegation.Proofs.Notification.Stopping
import TestDelegation.Proofs.Settings
import TestDelegation.Proofs.Success
import TestDelegation.Runner

/-!
The stages of a run. Main definition: `Runner.planned`, what a run has to report. Main statement:
`run_cuts`, a run fires what it has planned up to the first notice that is refused.
-/

namespace TestDelegation

theorem Notifier.attemptAll_singleton (notifier : Notifier) (notice : Notice) :
    notifier.attemptAll [notice] = notifier.attempt notice := by
  rw [attemptAll]
  rcases notifier.attempt notice with ⟨after, ⟨⟩ | ⟨⟩⟩ <;> rfl

namespace Runner

def Assumed (runner : Runner) : Prop :=
  ∀ assumption ∈ runner.assumptions, assumption runner.className = .ok ()

/-- Nothing speaks against a request but a stop, or the lack of an address. -/
def Ready (runner : Runner) : Prop :=
  runner.settings.Admits runner.className ∧ runner.Assumed

instance (runner : Runner) : Decidable runner.Assumed := List.decidableBAll _ _

instance (runner : Runner) : Decidable runner.Ready := inferInstanceAs (Decidable (_ ∧ _))

/-- The looks at the stop request before the first notice is attempted. -/
def checks (runner : Runner) : Nat := if runner.Ready then 1 else 0

/-- Everything a run has to report, in order. -/
def planned (runner : Runner) : List Notice :=
  match runner.checkNamespace with
  | .error error => [errorNotice runner.description (.configuration error)]
  | .ok () =>
    match runner.checkAssumptions.2 with
    | .error violation => [errorNotice runner.description (.assumption violation)]
    | .ok () =>
      match runner.fetch.result with
      | .ok set => outcomeNotices runner.className set
      | .error error => [errorNotice runner.description error]

variable {runner : Runner}

theorem checkFrom_of_assumed {className : ClassName} {assumptions : List Assumption} {checked : Nat}
    (assumed : ∀ assumption ∈ assumptions, assumption className = .ok ()) :
    (checkFrom className checked assumptions).2 = .ok () := by
  induction assumptions generalizing checked with
  | nil => rfl
  | cons assumption rest ih =>
      obtain ⟨first, later⟩ := List.forall_mem_cons.mp assumed
      rw [checkFrom, first]
      exact ih later

theorem checkFrom_of_not_assumed {className : ClassName} {assumptions : List Assumption}
    {checked : Nat} (violated : ¬∀ assumption ∈ assumptions, assumption className = .ok ()) :
    ∃ violation, (checkFrom className checked assumptions).2 = .error violation := by
  induction assumptions generalizing checked with
  | nil => simp at violated
  | cons assumption rest ih =>
      rw [checkFrom]
      cases first : assumption className with
      | error violation => exact ⟨violation, rfl⟩
      | ok _ =>
          refine ih fun later => violated ?_
          exact List.forall_mem_cons.mpr ⟨first, later⟩

theorem checkAssumptions_of_assumed (assumed : runner.Assumed) :
    runner.checkAssumptions = (runner.checkAssumptions.1, .ok ()) :=
  Prod.ext rfl (checkFrom_of_assumed assumed)

theorem checkAssumptions_of_not_assumed (violated : ¬runner.Assumed) :
    ∃ violation, runner.checkAssumptions = (runner.checkAssumptions.1, .error violation) := by
  have stops : ∃ violation, runner.checkAssumptions.2 = .error violation :=
    checkFrom_of_not_assumed violated
  obtain ⟨violation, found⟩ := stops
  exact ⟨violation, Prod.ext rfl found⟩

theorem delegate_of_admits (inside : runner.settings.Admits runner.className) :
    runner.delegate = runner.fetch := by
  rw [delegate, checkNamespace, Settings.checkNamespace_of_admits inside]

theorem outcomesOf_error_cases {request : Request} {answer : Except TransportError Response}
    {error : DelegationError} (failed : runner.outcomesOf request answer = .error error) :
    (∃ fault, error = .transport fault) ∨ ∃ fault, error = .decode fault := by
  cases answer with
  | error fault => exact .inl ⟨fault, (Except.error.inj failed).symm⟩
  | ok response =>
      rw [outcomesOf, Except.mapError, ok_bind] at failed
      cases accepted : response.intoBody request.url with
      | error fault =>
          rw [accepted] at failed
          exact .inl ⟨fault, (Except.error.inj failed).symm⟩
      | ok body =>
          rw [accepted, Except.mapError, ok_bind] at failed
          cases decoded : runner.codec.decode body with
          | error fault =>
              rw [decoded] at failed
              exact .inr ⟨fault, (Except.error.inj failed).symm⟩
          | ok set =>
              rw [decoded] at failed
              cases failed

theorem outcomesOf_eq_ok {request : Request} {response : Response} {set : OutcomeSet}
    (success : response.status < 300) (decoded : runner.codec.decode response.body = .ok set) :
    runner.outcomesOf request (.ok response) = .ok set := by
  have accepted : response.intoBody request.url = .ok response.body := if_pos success
  rw [outcomesOf, Except.mapError, ok_bind, accepted, Except.mapError, ok_bind, decoded]
  rfl

theorem fetch_error_cases {error : DelegationError} (failed : runner.fetch.result = .error error) :
    (∃ fault, error = .configuration fault) ∨ (∃ fault, error = .transport fault) ∨
      ∃ fault, error = .decode fault := by
  rw [fetch] at failed
  cases request : runner.request with
  | error fault =>
      rw [request] at failed
      exact .inl ⟨fault, (Except.error.inj failed).symm⟩
  | ok _ =>
      rw [request] at failed
      exact .inr (outcomesOf_error_cases failed)

theorem fetch_of_hasAddress (address : runner.settings.HasAddress) :
    ∃ request, runner.fetch.requests = [request] ∧ runner.resourceUrl = .ok request.url ∧
      request.readTimeout = runner.settings.readTimeout := by
  obtain ⟨url, found⟩ := Settings.resourceUrl_eq_ok address runner.className
  have request : runner.request = .ok ⟨url, runner.settings.readTimeout⟩ := by
    rw [Runner.request, resourceUrl, found]
    rfl
  refine ⟨⟨url, runner.settings.readTimeout⟩, ?_, found, rfl⟩
  rw [fetch, request]

theorem fetch_of_not_hasAddress (missing : ¬runner.settings.HasAddress) :
    runner.fetch = { result := .error (.configuration .missingBaseUrl) } := by
  have request : runner.request = .error .missingBaseUrl := by
    rw [Runner.request, resourceUrl, Settings.resourceUrl_eq_error missing runner.className]
    rfl
  rw [fetch, request]

theorem planned_of_not_admits (outside : ¬runner.settings.Admits runner.className) :
    runner.planned = [errorNotice runner.description (.configuration
      (.wrongNamespace runner.className runner.settings.requiredNamespace))] := by
  rw [planned, checkNamespace, Settings.checkNamespace_of_not_admits outside]

theorem planned_of_not_assumed (inside : runner.settings.Admits runner.className)
    (violated : ¬runner.Assumed) : runner.planned = [.testIgnored runner.description] := by
  obtain ⟨violation, found⟩ := checkAssumptions_of_not_assumed violated
  rw [planned, checkNamespace, Settings.checkNamespace_of_admits inside, found]
  rfl

theorem planned_of_ready (ready : runner.Ready) :
    runner.planned =
      match runner.fetch.result with
      | .ok set => outcomeNotices runner.className set
      | .error error => [errorNotice runner.description error] := by
  rw [planned, checkNamespace, Settings.checkNamespace_of_admits ready.1,
    checkAssumptions_of_assumed ready.2]

theorem errorNotice_beginsReport (description : Description) (error : DelegationError) :
    (errorNotice description error).BeginsReport := by
  cases error with
  | assumption _ => exact .ignored description
  | configuration _ => exact .failed _
  | transport _ => exact .failed _
  | decode _ => exact .failed _
  | stopped _ => exact .failed _

theorem outcomeNotices_of_eq_nil {set : OutcomeSet} (none : set.outcomes = [])
    (className : ClassName) : outcomeNotices className set = [emptyNotice className] := by
  rw [outcomeNotices, OutcomeSet.isEmpty, none]
  rfl

theorem outcomeNotices_of_ne_nil {set : OutcomeSet} (some : set.outcomes ≠ [])
    (className : ClassName) :
    outcomeNotices className set = set.outcomes.flatMap (methodNotices className) := by
  rw [outcomeNotices, OutcomeSet.isEmpty, List.isEmpty_eq_false_iff.mpr some]
  rfl

theorem exists_methodNotices_eq_cons (className : ClassName) (outcome : MethodOutcome) :
    ∃ notice rest, methodNotices className outcome = notice :: rest ∧ notice.BeginsReport := by
  obtain ⟨method, _ | _ | cause⟩ := outcome
  · exact ⟨_, _, rfl, .started _⟩
  · exact ⟨_, _, rfl, .ignored _⟩
  · exact ⟨_, _, rfl, .failed _⟩

theorem exists_outcomeNotices_eq_cons (className : ClassName) (set : OutcomeSet) :
    ∃ notice rest, outcomeNotices className set = notice :: rest ∧ notice.BeginsReport := by
  cases outcomes : set.outcomes with
  | nil => exact ⟨_, [], outcomeNotices_of_eq_nil outcomes className, .failed _⟩
  | cons first rest =>
      obtain ⟨notice, later, reported, begins⟩ := exists_methodNotices_eq_cons className first
      have some : set.outcomes ≠ [] := by simp [outcomes]
      rw [outcomeNotices_of_ne_nil some, outcomes, List.flatMap_cons, reported]
      exact ⟨notice, _, List.cons_append, begins⟩

theorem exists_planned_eq_cons (runner : Runner) :
    ∃ notice rest, runner.planned = notice :: rest ∧ notice.BeginsReport := by
  by_cases inside : runner.settings.Admits runner.className
  · by_cases assumed : runner.Assumed
    · rw [planned_of_ready ⟨inside, assumed⟩]
      cases runner.fetch.result with
      | error error => exact ⟨_, [], rfl, errorNotice_beginsReport _ error⟩
      | ok set => exact exists_outcomeNotices_eq_cons runner.className set
    · exact ⟨_, [], planned_of_not_assumed inside assumed, .ignored _⟩
  · exact ⟨_, [], planned_of_not_admits inside, errorNotice_beginsReport _ _⟩

theorem run_of_not_ready (unready : ¬runner.Ready) (notifier : Notifier) :
    (runner.run notifier).notifier = (notifier.attemptAll runner.planned).1 ∧
      (runner.run notifier).result = (notifier.attemptAll runner.planned).2 ∧
      (runner.run notifier).course.requests = [] ∧
      ∃ error, (runner.run notifier).course.result = .error error := by
  by_cases inside : runner.settings.Admits runner.className
  · have violated : ¬runner.Assumed := fun assumed => unready ⟨inside, assumed⟩
    obtain ⟨violation, found⟩ := checkAssumptions_of_not_assumed violated
    rw [planned_of_not_assumed inside violated, Notifier.attemptAll_singleton, run, prepare,
      checkNamespace, Settings.checkNamespace_of_admits inside, found]
    exact ⟨rfl, rfl, rfl, _, rfl⟩
  · rw [planned_of_not_admits inside, Notifier.attemptAll_singleton, run, prepare,
      checkNamespace, Settings.checkNamespace_of_not_admits inside]
    exact ⟨rfl, rfl, rfl, _, rfl⟩

theorem run_of_stopped (ready : runner.Ready) {notifier : Notifier}
    (stopped : notifier.look.2 = true) :
    (runner.run notifier).notifier = notifier.look.1 ∧
      (runner.run notifier).result = .error .stopped ∧
      (runner.run notifier).course.requests = [] ∧
      ∃ error, (runner.run notifier).course.result = .error error := by
  have looked : notifier.look = (notifier.look.1, true) := Prod.ext rfl stopped
  rw [run, prepare, checkNamespace, Settings.checkNamespace_of_admits ready.1,
    checkAssumptions_of_assumed ready.2, looked]
  exact ⟨rfl, rfl, rfl, _, rfl⟩

theorem run_of_clear (ready : runner.Ready) {notifier : Notifier}
    (clear : notifier.look.2 = false) :
    (runner.run notifier).notifier = (notifier.look.1.attemptAll runner.planned).1 ∧
      (runner.run notifier).result = (notifier.look.1.attemptAll runner.planned).2 ∧
      (runner.run notifier).course.requests = runner.fetch.requests ∧
      (runner.run notifier).course.result = runner.fetch.result := by
  have looked : notifier.look = (notifier.look.1, false) := Prod.ext rfl clear
  rw [planned_of_ready ready, run, prepare, checkNamespace,
    Settings.checkNamespace_of_admits ready.1, checkAssumptions_of_assumed ready.2, looked]
  dsimp only
  cases fetched : runner.fetch.result with
  | ok set => exact ⟨rfl, rfl, rfl, rfl⟩
  | error error =>
      dsimp only
      rw [Notifier.attemptAll_singleton]
      rcases fetch_error_cases fetched with ⟨_, rfl⟩ | ⟨_, rfl⟩ | ⟨_, rfl⟩
      · exact ⟨rfl, rfl, rfl, rfl⟩
      · exact ⟨rfl, rfl, rfl, rfl⟩
      · exact ⟨rfl, rfl, rfl, rfl⟩

/--
A run fires what it has planned before the first notice that is refused, and fails if there is such
a one. A stop seen before the request counts as refusing the first notice.
-/
theorem run_cuts (runner : Runner) (notifier : Notifier) :
    ∃ fired, notifier.Fires fired (runner.run notifier).notifier ∧
      notifier.Cuts runner.checks fired runner.planned ∧
      ((fired = runner.planned ∧ (runner.run notifier).result = .ok ()) ∨
        (fired ≠ runner.planned ∧ (runner.run notifier).result = .error .stopped ∧
          (runner.run notifier).notifier.stopRequested = true)) := by
  by_cases ready : runner.Ready
  · have one : runner.checks = 1 := if_pos ready
    cases stopped : notifier.look.2 with
    | true =>
        obtain ⟨after, result, _⟩ := run_of_stopped ready stopped
        obtain ⟨notice, rest, planned, begins⟩ := runner.exists_planned_eq_cons
        have raised : notifier.StopRaised 1 [] :=
          (Notifier.stopRaised_now_iff.mpr stopped).mono (Nat.zero_le 1) (List.prefix_refl [])
        rw [after, result, one, planned]
        refine ⟨[], notifier.fires_look, .refused ⟨begins, ?_⟩, .inr ⟨by simp, rfl, stopped⟩⟩
        exact raised
    | false =>
        obtain ⟨after, result, _⟩ := run_of_clear ready stopped
        obtain ⟨fired, fires, cuts, outcome⟩ := notifier.look.1.attemptAll_cuts runner.planned
        rw [after, result, one]
        exact ⟨fired, notifier.fires_look.trans fires, cuts.look, outcome⟩
  · have none_ : runner.checks = 0 := if_neg ready
    obtain ⟨after, result, _⟩ := run_of_not_ready ready notifier
    rw [after, result, none_]
    exact notifier.attemptAll_cuts runner.planned

end Runner

end TestDelegation
