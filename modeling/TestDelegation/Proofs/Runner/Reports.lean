import Mathlib.Data.List.Forall2
import TestDelegation.Proofs.Codec.Outcomes
import TestDelegation.Proofs.Runner.Stages

/-!
What a run reports. Main definition: `Runner.Report`, which notices stand for what came of a
delegation. Main statement: `run_reports`.
-/

namespace TestDelegation

namespace Runner

inductive ReportsMethod (className : ClassName) : MethodOutcome → List Notice → Prop
  | passed {method : String} : ReportsMethod className ⟨method, .passed⟩
      [.testStarted (.ofMethod className method), .testFinished (.ofMethod className method)]
  | ignored {method : String} : ReportsMethod className ⟨method, .ignored⟩
      [.testIgnored (.ofMethod className method)]
  | failed {method : String} {cause : FailureCause} :
      ReportsMethod className ⟨method, .failed cause⟩
        [.testFailure ⟨.ofMethod className method, cause⟩]

/-- The failure of the class: category and text of an error, then the texts below it. -/
def failureOf (className : ClassName) (error : DelegationError) : Notice :=
  .testFailure ⟨.ofClass className, ⟨⟨some error.category, some error.message, []⟩,
    error.sources.map fun text => ⟨none, some text, []⟩⟩⟩

def noTestsMessage (className : ClassName) : String :=
  "No tests found in class [" ++ className.text ++ "]"

/-- The notices of a run: one of five cases, each of which excludes the others. -/
inductive Report (runner : Runner) : List Notice → Prop
  | misplaced (outside : ¬runner.settings.Admits runner.className) :
      Report runner [failureOf runner.className (.configuration
        (.wrongNamespace runner.className runner.settings.requiredNamespace))]
  | skipped (inside : runner.settings.Admits runner.className) (violated : ¬runner.Assumed) :
      Report runner [.testIgnored (.ofClass runner.className)]
  | failed {error : DelegationError} (ready : runner.Ready)
      (failed : runner.delegate.result = .error error) :
      Report runner [failureOf runner.className error]
  | empty {set : OutcomeSet} (ready : runner.Ready) (decoded : runner.delegate.result = .ok set)
      (nothing : set.outcomes = []) :
      Report runner [.testFailure ⟨.suite (noTestsMessage runner.className),
        ⟨⟨none, some (noTestsMessage runner.className), []⟩, []⟩⟩]
  | replayed {set : OutcomeSet} {parts : List (List Notice)} (ready : runner.Ready)
      (decoded : runner.delegate.result = .ok set) (something : set.outcomes ≠ [])
      (each : List.Forall₂ (ReportsMethod runner.className) set.outcomes parts) :
      Report runner parts.flatten

variable {runner : Runner} {notifier : Notifier}

theorem reportsMethod_iff {className : ClassName} {outcome : MethodOutcome}
    {notices : List Notice} :
    ReportsMethod className outcome notices ↔ notices = methodNotices className outcome := by
  constructor
  · intro reports
    cases reports with
    | passed => rfl
    | ignored => rfl
    | failed => rfl
  · rintro rfl
    obtain ⟨method, _ | _ | cause⟩ := outcome
    · exact .passed
    · exact .ignored
    · exact .failed

theorem forall₂_reportsMethod_iff {className : ClassName} {outcomes : List MethodOutcome}
    {parts : List (List Notice)} :
    List.Forall₂ (ReportsMethod className) outcomes parts ↔
      parts = outcomes.map (methodNotices className) := by
  induction outcomes generalizing parts with
  | nil => simp
  | cons outcome rest ih =>
      cases parts with
      | nil => simp
      | cons part parts =>
          rw [List.forall₂_cons, reportsMethod_iff, ih, List.map_cons, List.cons.injEq]

theorem errorNotice_eq_failureOf (className : ClassName) {error : DelegationError}
    (counts : (∃ fault, error = .configuration fault) ∨ (∃ fault, error = .transport fault) ∨
      ∃ fault, error = .decode fault) :
    errorNotice (.ofClass className) error = failureOf className error := by
  rcases counts with ⟨_, rfl⟩ | ⟨_, rfl⟩ | ⟨_, rfl⟩
  · rfl
  · rfl
  · rfl

theorem report_iff {notices : List Notice} : runner.Report notices ↔ notices = runner.planned := by
  constructor
  · intro report
    cases report with
    | misplaced outside => exact (planned_of_not_admits outside).symm
    | skipped inside violated => exact (planned_of_not_assumed inside violated).symm
    | failed ready failed =>
        rw [delegate_of_admits ready.1] at failed
        rw [planned_of_ready ready, failed]
        exact congrArg (fun notice => [notice])
          (errorNotice_eq_failureOf runner.className (fetch_error_cases failed)).symm
    | empty ready decoded nothing =>
        rw [delegate_of_admits ready.1] at decoded
        rw [planned_of_ready ready, decoded]
        exact (outcomeNotices_of_eq_nil nothing runner.className).symm
    | replayed ready decoded something each =>
        rw [delegate_of_admits ready.1] at decoded
        rw [planned_of_ready ready, decoded, forall₂_reportsMethod_iff.mp each]
        exact (outcomeNotices_of_ne_nil something runner.className).symm
  · rintro rfl
    by_cases inside : runner.settings.Admits runner.className
    · by_cases assumed : runner.Assumed
      · have ready : runner.Ready := ⟨inside, assumed⟩
        have delegated := delegate_of_admits inside
        rw [planned_of_ready ready]
        cases fetched : runner.fetch.result with
        | error error =>
            have same := errorNotice_eq_failureOf runner.className (fetch_error_cases fetched)
            dsimp only
            rw [description, same]
            exact .failed ready (by rw [delegated, fetched])
        | ok set =>
            dsimp only
            by_cases nothing : set.outcomes = []
            · rw [outcomeNotices_of_eq_nil nothing]
              exact .empty ready (by rw [delegated, fetched]) nothing
            · rw [outcomeNotices_of_ne_nil nothing, List.flatMap_def]
              exact .replayed ready (by rw [delegated, fetched]) nothing
                (forall₂_reportsMethod_iff.mpr rfl)
      · rw [planned_of_not_assumed inside assumed]
        exact .skipped inside assumed
    · rw [planned_of_not_admits inside]
      exact .misplaced inside

theorem run_requests (runner : Runner) (notifier : Notifier) :
    ((runner.run notifier).course.requests = [] ∧
      ¬(runner.Ready ∧ notifier.look.2 = false ∧ runner.settings.HasAddress)) ∨
    ∃ request, (runner.run notifier).course.requests = [request] ∧
      runner.resourceUrl = .ok request.url ∧
      request.readTimeout = runner.settings.readTimeout ∧
      runner.Ready ∧ notifier.look.2 = false ∧ runner.settings.HasAddress := by
  by_cases ready : runner.Ready
  · cases stopped : notifier.look.2 with
    | true =>
        obtain ⟨_, _, requests, _⟩ := run_of_stopped ready stopped
        exact .inl ⟨requests, by simp⟩
    | false =>
        obtain ⟨_, _, requests, _⟩ := run_of_clear ready stopped
        by_cases address : runner.settings.HasAddress
        · obtain ⟨request, sent, url, readTimeout⟩ := fetch_of_hasAddress address
          exact .inr ⟨request, requests.trans sent, url, readTimeout, ready, rfl, address⟩
        · rw [fetch_of_not_hasAddress address] at requests
          exact .inl ⟨requests, by simp [address]⟩
  · obtain ⟨_, _, requests, _⟩ := run_of_not_ready ready notifier
    exact .inl ⟨requests, by simp [ready]⟩

theorem calm_run (calm : notifier.Calm) (runner : Runner) :
    (runner.run notifier).notifier.Calm := by
  by_cases ready : runner.Ready
  · have clear : notifier.look.2 = false := by
      rw [← Bool.not_eq_true, ← Notifier.stopRaised_now_iff]
      exact calm 0 []
    obtain ⟨after, _⟩ := run_of_clear ready clear
    rw [after]
    exact calm.look.attemptAll runner.planned
  · obtain ⟨after, _⟩ := run_of_not_ready ready notifier
    rw [after]
    exact calm.attemptAll runner.planned

/--
A run before whose end no stop is requested succeeds, sends its request if it is ready and has an
address, and fires exactly its report.
-/
theorem run_reports (quiet : (runner.run notifier).notifier.stopRequested = false) :
    (runner.run notifier).result = .ok () ∧
      (runner.run notifier).course.requests.length ≤ 1 ∧
      ((runner.run notifier).course.requests.length = 1 ↔
        runner.settings.Admits runner.className ∧ runner.Assumed ∧ runner.settings.HasAddress) ∧
      (∀ request ∈ (runner.run notifier).course.requests,
        runner.resourceUrl = .ok request.url ∧
          request.readTimeout = runner.settings.readTimeout) ∧
      ∃ notices, (∀ other, runner.Report other ↔ other = notices) ∧
        notifier.Fires notices (runner.run notifier).notifier := by
  obtain ⟨fired, fires, _, ⟨rfl, result⟩ | ⟨_, _, stopped⟩⟩ := runner.run_cuts notifier
  · refine ⟨result, ?_, ?_, ?_, runner.planned, fun other => report_iff, fires⟩
    · rcases runner.run_requests notifier with ⟨none, _⟩ | ⟨request, one, _⟩
      · simp [none]
      · simp [one]
    · have clear : runner.Ready → notifier.look.2 = false := by
        intro ready
        cases stopped : notifier.look.2 with
        | false => rfl
        | true =>
            obtain ⟨_, failed, _⟩ := run_of_stopped ready stopped
            rw [result] at failed
            cases failed
      rcases runner.run_requests notifier with ⟨none, lacking⟩ | ⟨request, one, _, _, sends⟩
      · rw [none]
        simp only [List.length_nil, Nat.zero_ne_one, false_iff]
        rintro ⟨inside, assumed, address⟩
        exact lacking ⟨⟨inside, assumed⟩, clear ⟨inside, assumed⟩, address⟩
      · rw [one]
        simp only [List.length_singleton, true_iff]
        exact ⟨sends.1.1, sends.1.2, sends.2.2⟩
    · intro sent member
      rcases runner.run_requests notifier with ⟨none, _⟩ | ⟨request, one, url, readTimeout, _⟩
      · rw [none] at member
        simp at member
      · rw [one, List.mem_singleton] at member
        subst member
        exact ⟨url, readTimeout⟩
  · rw [quiet] at stopped
    cases stopped

def jobsClass : ClassName := ⟨"it.Jobs", by decide⟩

def mixedCause : FailureCause := ⟨⟨some "p.E", none, []⟩, [⟨none, some "below", []⟩]⟩

def mixedSet : OutcomeSet :=
  ⟨[⟨"a", .passed⟩, ⟨"b", .ignored⟩, ⟨"c", .failed mixedCause⟩], by decide⟩

def mixedRunner : Runner where
  className := jobsClass
  settings := .new (some " http://host/ ")
  transport _ := .ok ⟨200, mixedSet.render none⟩
  assumptions := [fun _ => .ok ()]

def watched : Notifier :=
  (Notifier.new fun count => ⟨default, ⟨count⟩⟩).addListener {}

theorem calm_watched : watched.Calm := by
  intro looks events
  simp [Notifier.StopRaised, watched, Notifier.new, Notifier.addListener]

theorem delegate_of_answer {request : Request} {set : OutcomeSet}
    (inside : runner.settings.Admits runner.className) (asked : runner.request = .ok request)
    (answered : runner.transport request = .ok ⟨200, set.render none⟩)
    (adapters : runner.codec = .default) (fits : (set.toDetail none).encode.depth ≤ levelLimit) :
    runner.delegate.result = .ok set.regrouped := by
  have decoded : runner.codec.decode (set.render none) = .ok set.regrouped := by
    rw [adapters, Codec.decode, OutcomeSet.render,
      (set.outcomesOnly_toDetail none).decodeDetail_render fits, if_pos (by decide), ok_bind,
      OutcomeSet.ofDetail_toDetail]
    rfl
  have success : (⟨200, set.render none⟩ : Response).status < 300 := show 200 < 300 by decide
  rw [delegate_of_admits inside, fetch, asked]
  change runner.outcomesOf request (runner.transport request) = _
  rw [answered]
  exact outcomesOf_eq_ok success decoded

theorem delegate_mixedRunner : mixedRunner.delegate.result = .ok mixedSet := by
  have url : mixedRunner.request =
      .ok ⟨"http://host/rest/atlassiantestrunner/1.0/runtest/it.Jobs", .ofSeconds 1800⟩ := by
    decide
  have regrouped : mixedSet.regrouped = mixedSet := by decide
  rw [delegate_of_answer (by decide) url rfl rfl (by decide), regrouped]

theorem run_reports_mixedSet :
    (mixedRunner.run watched).notifier.stopRequested = false ∧
      (mixedRunner.run watched).result = .ok () ∧
      (mixedRunner.run watched).course.requests.length = 1 ∧
      watched.Fires
        [.testStarted (.ofMethod jobsClass "a"), .testFinished (.ofMethod jobsClass "a"),
          .testIgnored (.ofMethod jobsClass "b"),
          .testFailure ⟨.ofMethod jobsClass "c", mixedCause⟩]
        (mixedRunner.run watched).notifier := by
  have quiet := (calm_run calm_watched mixedRunner).stopRequested_eq_false
  have ready : mixedRunner.Ready := by decide
  obtain ⟨result, _, sends, _, notices, report, fires⟩ := run_reports quiet
  have address : mixedRunner.settings.HasAddress := ⟨_, rfl, 'h', by decide, by decide⟩
  have replayed := (report _).mp (.replayed ready delegate_mixedRunner (by decide)
    (.cons .passed (.cons .ignored (.cons .failed .nil))))
  rw [← replayed] at fires
  exact ⟨quiet, result, sends.mpr ⟨ready.1, ready.2, address⟩, fires⟩

end Runner

end TestDelegation
