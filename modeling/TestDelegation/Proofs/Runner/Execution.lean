import TestDelegation.Proofs.Notification.Accounting
import TestDelegation.Proofs.Runner.Stopping

/-!
Complete runs, from the announcement of their start to that of their end. Main statement:
`execute_adds_up`, the result of a complete run accounts for its report, which is never empty.
-/

namespace TestDelegation

/-- Of the tests that are told of, so many passed, were ignored and failed. -/
structure Tally (notices : List Notice) (passed ignored failed : Nat) : Prop where
  started : numberOf "test-started" notices = passed
  finished : numberOf "test-finished" notices = passed
  ignored : numberOf "test-ignored" notices = ignored
  failed : numberOf "test-failure" notices = failed

variable {notices : List Notice} {passed ignored failed : Nat}

theorem Tally.append {first second : List Notice} {morePassed moreIgnored moreFailed : Nat}
    (tally : Tally first passed ignored failed)
    (more : Tally second morePassed moreIgnored moreFailed) :
    Tally (first ++ second) (passed + morePassed) (ignored + moreIgnored) (failed + moreFailed) where
  started := by rw [numberOf_append, tally.started, more.started]
  finished := by rw [numberOf_append, tally.finished, more.finished]
  ignored := by rw [numberOf_append, tally.ignored, more.ignored]
  failed := by rw [numberOf_append, tally.failed, more.failed]

theorem tally_ignored (description : Description) : Tally [.testIgnored description] 0 1 0 :=
  ⟨rfl, rfl, rfl, rfl⟩

theorem tally_failed (failure : Failure) : Tally [.testFailure failure] 0 0 1 :=
  ⟨rfl, rfl, rfl, rfl⟩

theorem RunResult.Accounts.of_tally {result : RunResult} (accounts : result.Accounts notices)
    (tally : Tally notices passed ignored failed) :
    result.startedCount = passed ∧ result.runCount = passed ∧ result.ignoreCount = ignored ∧
      result.failureCount = failed :=
  ⟨accounts.startedCount.trans tally.started, accounts.runCount.trans tally.finished,
    accounts.ignoreCount.trans tally.ignored, accounts.failureCount.trans tally.failed⟩

theorem numberOf_finished_pos (some : 0 < numberOf "test-finished" notices) :
    ∃ description, .testFinished description ∈ notices := by
  obtain ⟨notice, member, named⟩ := List.countP_pos_iff.mp some
  cases notice with
  | testFinished description => exact ⟨description, member⟩
  | _ => simp [Notice.name] at named

theorem numberOf_ignored_pos (some : 0 < numberOf "test-ignored" notices) :
    ∃ description, .testIgnored description ∈ notices := by
  obtain ⟨notice, member, named⟩ := List.countP_pos_iff.mp some
  cases notice with
  | testIgnored description => exact ⟨description, member⟩
  | _ => simp [Notice.name] at named

namespace Runner

variable {runner : Runner} {notifier : Notifier} {set : OutcomeSet}

theorem ReportsMethod.tally {className : ClassName} {outcome : MethodOutcome}
    (reports : ReportsMethod className outcome notices) :
    Tally notices ([outcome].countP fun outcome => outcome.kind == .passed)
      ([outcome].countP fun outcome => outcome.kind == .ignored)
      ([outcome].countP fun outcome => outcome.kind == .failed) := by
  cases reports with
  | passed => exact ⟨rfl, rfl, rfl, rfl⟩
  | ignored => exact tally_ignored _
  | failed => exact tally_failed _

theorem tally_of_reportsMethod {className : ClassName} {outcomes : List MethodOutcome}
    {parts : List (List Notice)}
    (each : List.Forall₂ (ReportsMethod className) outcomes parts) :
    Tally parts.flatten (outcomes.countP fun outcome => outcome.kind == .passed)
      (outcomes.countP fun outcome => outcome.kind == .ignored)
      (outcomes.countP fun outcome => outcome.kind == .failed) := by
  induction each with
  | nil => exact ⟨rfl, rfl, rfl, rfl⟩
  | cons first _ ih =>
      have both := first.tally.append ih
      rw [← List.countP_append, ← List.countP_append, ← List.countP_append] at both
      exact both

theorem Report.tally_of_ok (report : runner.Report notices) (ready : runner.Ready)
    (decoded : runner.delegate.result = .ok set) :
    (set.outcomes = [] ∧ Tally notices 0 0 1) ∨
    (set.outcomes ≠ [] ∧
      Tally notices set.passed.length set.ignored.length set.failed.length) := by
  cases report with
  | misplaced outside => exact absurd ready.1 outside
  | skipped _ violated => exact absurd ready.2 violated
  | failed _ failed =>
      rw [decoded] at failed
      cases failed
  | empty _ decodedEmpty nothing =>
      obtain rfl := Except.ok.inj (decoded.symm.trans decodedEmpty)
      exact .inl ⟨nothing, tally_failed _⟩
  | replayed _ decodedSome something each =>
      obtain rfl := Except.ok.inj (decoded.symm.trans decodedSome)
      refine .inr ⟨something, ?_⟩
      rw [OutcomeSet.passed, OutcomeSet.ignored, OutcomeSet.length_ofKind,
        OutcomeSet.length_ofKind, OutcomeSet.length_failed]
      exact tally_of_reportsMethod each

theorem Report.exists_tally (report : runner.Report notices) :
    ∃ passed ignored failed, Tally notices passed ignored failed ∧
      1 ≤ passed + ignored + failed := by
  have ofSet (ready : runner.Ready) {set : OutcomeSet}
      (decoded : runner.delegate.result = .ok set) (report : runner.Report notices) :
      ∃ passed ignored failed, Tally notices passed ignored failed ∧
        1 ≤ passed + ignored + failed := by
    rcases report.tally_of_ok ready decoded with ⟨_, tally⟩ | ⟨some, tally⟩
    · exact ⟨0, 0, 1, tally, Nat.le_refl 1⟩
    · have total := set.totalCount_eq
      have positive : 0 < set.totalCount := List.length_pos_iff.mpr some
      exact ⟨_, _, _, tally, by omega⟩
  have told := report
  cases report with
  | misplaced _ => exact ⟨0, 0, 1, tally_failed _, Nat.le_refl 1⟩
  | skipped _ _ => exact ⟨0, 1, 0, tally_ignored _, Nat.le_refl 1⟩
  | failed _ _ => exact ⟨0, 0, 1, tally_failed _, Nat.le_refl 1⟩
  | empty ready decoded _ => exact ofSet ready decoded told
  | replayed ready decoded _ _ => exact ofSet ready decoded told

theorem Report.adds_up {result : RunResult} (report : runner.Report notices)
    (accounts : result.Accounts notices) :
    result.startedCount = result.runCount ∧
      1 ≤ result.runCount + result.ignoreCount + result.failureCount ∧
      (result.wasSuccessful = true →
        (∃ description, .testFinished description ∈ notices ∨
          .testIgnored description ∈ notices) ∧
        ∀ failure, .testFailure failure ∉ notices) := by
  obtain ⟨passed, ignored, failed, tally, some⟩ := report.exists_tally
  obtain ⟨started, run, ignoredCount, failureCount⟩ := accounts.of_tally tally
  refine ⟨started.trans run.symm, by omega, ?_⟩
  intro green
  refine ⟨?_, accounts.wasSuccessful_iff.mp green⟩
  rw [RunResult.wasSuccessful, beq_iff_eq, failureCount] at green
  by_cases none_passed : passed = 0
  · have someIgnored : 0 < numberOf "test-ignored" notices := by
      rw [tally.ignored]
      omega
    obtain ⟨description, member⟩ := numberOf_ignored_pos someIgnored
    exact ⟨description, .inr member⟩
  · have somePassed : 0 < numberOf "test-finished" notices := by
      rw [tally.finished]
      omega
    obtain ⟨description, member⟩ := numberOf_finished_pos somePassed
    exact ⟨description, .inl member⟩

theorem Report.adds_up_of_ok {result : RunResult} (report : runner.Report notices)
    (accounts : result.Accounts notices) (ready : runner.Ready)
    (decoded : runner.delegate.result = .ok set) :
    result.runCount + result.ignoreCount + result.failureCount = max 1 set.totalCount ∧
      (set.outcomes = [] →
        result.runCount = 0 ∧ result.ignoreCount = 0 ∧ result.failureCount = 1) ∧
      (set.outcomes ≠ [] → result.runCount = set.passed.length ∧
        result.ignoreCount = set.ignored.length ∧ result.failureCount = set.failed.length) := by
  rcases report.tally_of_ok ready decoded with ⟨nothing, tally⟩ | ⟨something, tally⟩
  · obtain ⟨_, run, ignored, failed⟩ := accounts.of_tally tally
    have total : set.totalCount = 0 := by rw [OutcomeSet.totalCount, nothing, List.length_nil]
    refine ⟨by omega, fun _ => ⟨run, ignored, failed⟩, ?_⟩
    intro something
    exact absurd nothing something
  · obtain ⟨_, run, ignored, failed⟩ := accounts.of_tally tally
    have total := set.totalCount_eq
    have positive : 0 < set.totalCount := List.length_pos_iff.mpr something
    refine ⟨by omega, ?_, fun _ => ⟨run, ignored, failed⟩⟩
    intro nothing
    exact absurd nothing something

theorem delegate_of_run_ok (decoded : (runner.run notifier).course.result = .ok set) :
    runner.Ready ∧ runner.delegate.result = .ok set := by
  by_cases ready : runner.Ready
  · cases stopped : notifier.look.2 with
    | true =>
        obtain ⟨_, _, _, _, failed⟩ := run_of_stopped ready stopped
        rw [failed] at decoded
        cases decoded
    | false =>
        obtain ⟨_, _, _, fetched⟩ := run_of_clear ready stopped
        rw [delegate_of_admits ready.1, ← fetched]
        exact ⟨ready, decoded⟩
  · obtain ⟨_, _, _, _, failed⟩ := run_of_not_ready ready notifier
    rw [failed] at decoded
    cases decoded

theorem execute_cases (runner : Runner) (notifier : Notifier) :
    let run := runner.run (notifier.startRun runner.description)
    (run.result = .ok () ∧
      runner.execute notifier = ⟨run.notifier.finishRun.1, run.course, .ok run.notifier.finishRun.2⟩) ∨
    ∃ stop, run.result = .error stop ∧
      runner.execute notifier = ⟨run.notifier, run.course, .error stop⟩ := by
  intro run
  cases result : run.result with
  | ok _ =>
      refine .inl ⟨rfl, ?_⟩
      simp only [execute, run] at result ⊢
      rw [result]
  | error stop =>
      refine .inr ⟨stop, rfl, ?_⟩
      simp only [execute, run] at result ⊢
      rw [result]

theorem Report.not_finished (report : runner.Report notices) (result : RunResult) :
    .runFinished result ∉ notices := by
  cases report with
  | misplaced _ => simp [failureOf]
  | skipped _ _ => simp
  | failed _ _ => simp [failureOf]
  | empty _ _ _ => simp
  | replayed _ _ _ each =>
      intro member
      obtain ⟨method, tells⟩ := tellsOf_of_reportsMethod each member
      cases tells

/--
A complete run tells each listener of its start, of what the run reports and of its end, with a
result that accounts for this report alone. A stopped run is never announced to have ended.
-/
theorem execute_adds_up (runner : Runner) (notifier : Notifier) :
    (∀ earlier startedAt,
      runner.execute { notifier with result := earlier, startedAt := startedAt } =
        runner.execute notifier) ∧
    (∀ result, (runner.execute notifier).result = .ok result →
      ∃ notices opening closing, runner.Report notices ∧
        (runner.run (notifier.startRun runner.description)).result = .ok () ∧
        (notifier.startRun runner.description).Fires notices
          (runner.run (notifier.startRun runner.description)).notifier ∧
        opening.notice = .runStarted runner.description ∧
        closing.notice = .runFinished result ∧
        ((runner.execute notifier).notifier.listeners = notifier.listeners.map fun listener =>
          listener.receiveAll
            (opening :: (notifier.startRun runner.description).events notices ++ [closing])) ∧
        result.Accounts notices ∧
        result.startedCount = result.runCount ∧
        1 ≤ result.runCount + result.ignoreCount + result.failureCount ∧
        (∀ set, (runner.execute notifier).course.result = .ok set →
          result.runCount + result.ignoreCount + result.failureCount = max 1 set.totalCount ∧
          (set.outcomes = [] →
            result.runCount = 0 ∧ result.ignoreCount = 0 ∧ result.failureCount = 1) ∧
          (set.outcomes ≠ [] → result.runCount = set.passed.length ∧
            result.ignoreCount = set.ignored.length ∧
            result.failureCount = set.failed.length)) ∧
        (result.wasSuccessful = true →
          (∃ description, .testFinished description ∈ notices ∨
            .testIgnored description ∈ notices) ∧
          ∀ failure, .testFailure failure ∉ notices)) ∧
    (∀ stop, (runner.execute notifier).result = .error stop →
      ∃ fired opening,
        (runner.run (notifier.startRun runner.description)).result = .error stop ∧
        (notifier.startRun runner.description).Fires fired
          (runner.run (notifier.startRun runner.description)).notifier ∧
        opening.notice = .runStarted runner.description ∧
        (∀ result, .runFinished result ∉ fired) ∧
        (runner.execute notifier).notifier.listeners = notifier.listeners.map fun listener =>
          listener.receiveAll
            (opening :: (notifier.startRun runner.description).events fired)) := by
  obtain ⟨opening, starts, opened⟩ := notifier.listeners_startRun runner.description
  obtain ⟨fired, fires, cuts, outcome⟩ :=
    runner.run_cuts (notifier.startRun runner.description)
  have report : runner.Report runner.planned := report_iff.mpr rfl
  have delivered := fires.listeners
  rw [opened, map_receiveAll_receiveAll] at delivered
  refine ⟨fun _ _ => rfl, ?_, ?_⟩
  · intro result complete
    rcases runner.execute_cases notifier with ⟨unstopped, executed⟩ | ⟨stop, _, executed⟩
    · obtain rfl : fired = runner.planned := by
        rcases outcome with ⟨whole, _⟩ | ⟨_, failed, _⟩
        · exact whole
        · rw [unstopped] at failed
          cases failed
      rw [executed] at complete ⊢
      obtain rfl := Except.ok.inj complete
      have accounts := Notifier.accounts_finishRun
        (fires.accounts (notifier.accounts_startRun runner.description))
      obtain ⟨closing, ends, closed⟩ := Notifier.listeners_finishRun
        (runner.run (notifier.startRun runner.description)).notifier
      rw [delivered, map_receiveAll_receiveAll] at closed
      obtain ⟨paired, something, green⟩ := report.adds_up accounts
      refine ⟨runner.planned, opening, closing, report, unstopped, fires, starts, ends, closed,
        accounts, paired, something, ?_, green⟩
      intro set decoded
      obtain ⟨ready, delegated⟩ := delegate_of_run_ok decoded
      exact report.adds_up_of_ok accounts ready delegated
    · rw [executed] at complete
      cases complete
  · intro stop stopped
    rcases runner.execute_cases notifier with ⟨_, executed⟩ | ⟨other, failed, executed⟩
    · rw [executed] at stopped
      cases stopped
    · obtain ⟨rest, split⟩ := cuts.exists_rest
      rw [executed] at stopped ⊢
      obtain rfl := Except.error.inj stopped
      refine ⟨fired, opening, failed, fires, starts, ?_, delivered⟩
      intro result member
      rw [split] at report
      exact report.not_finished result (List.mem_append_left rest member)

end Runner

end TestDelegation
