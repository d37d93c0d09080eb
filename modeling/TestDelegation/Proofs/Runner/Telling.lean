import TestDelegation.Proofs.Report.Writing
import TestDelegation.Proofs.Runner.Execution

/-!
What the events of a run tell. Main definition: `Runner.Told`, the events of a run that ended or of
one that was stopped. Main statements: `exists_told`, `Told.green` and `Told.reported`.
-/

namespace TestDelegation

def Execution.Stopped (execution : Execution) : Prop :=
  ∃ stop, execution.result = .error stop

def Notice.IsFailure (notice : Notice) : Prop := ∃ failure, notice = .testFailure failure

def Notice.IsSuccess (notice : Notice) : Prop :=
  ∃ description, notice = .testFinished description ∨ notice = .testIgnored description

/-- The events of a run that ended with a result, or of one that was stopped. -/
inductive Runner.Told (runner : Runner) : Except StoppedByUser RunResult → List Event → Prop
  | whole {opening closing : Event} {tests : List Event} {result : RunResult} :
      opening.notice = .runStarted runner.description →
      runner.Report (tests.map Event.notice) → result.Accounts (tests.map Event.notice) →
      closing.notice = .runFinished result →
      Told runner (.ok result) (opening :: tests ++ [closing])
  | cut {opening : Event} {tests : List Event} {stop : StoppedByUser} :
      opening.notice = .runStarted runner.description →
      (∀ event ∈ tests, ∀ result, event.notice ≠ .runFinished result) →
      Told runner (.error stop) (opening :: tests)

namespace Runner

variable {runner : Runner} {result : Except StoppedByUser RunResult} {events : List Event}

/--
What listeners are told: the start of the run, what is planned up to the first notice that is
refused, and its end if none is.
-/
theorem exists_delivered (runner : Runner) (notifier : Notifier) :
    ∃ opening tests, opening.notice = .runStarted runner.description ∧
      ((∃ closing result, tests.map Event.notice = runner.planned ∧
          closing.notice = .runFinished result ∧ result.Accounts (tests.map Event.notice) ∧
          (runner.execute notifier).result = .ok result ∧
          (runner.execute notifier).notifier.listeners = notifier.listeners.map fun listener =>
            listener.receiveAll (opening :: tests ++ [closing])) ∨
        ∃ stop rest, runner.planned = tests.map Event.notice ++ rest ∧
          (runner.execute notifier).result = .error stop ∧
          (runner.execute notifier).notifier.listeners = notifier.listeners.map fun listener =>
            listener.receiveAll (opening :: tests)) := by
  obtain ⟨opening, starts, opened⟩ := notifier.listeners_startRun runner.description
  obtain ⟨fired, fires, cuts, outcome⟩ :=
    runner.run_cuts (notifier.startRun runner.description)
  have delivered := fires.listeners
  rw [opened, map_receiveAll_receiveAll] at delivered
  have told := (notifier.startRun runner.description).map_notice_events fired
  refine ⟨opening, (notifier.startRun runner.description).events fired, starts, ?_⟩
  rw [told]
  rcases runner.execute_cases notifier with ⟨complete, executed⟩ | ⟨stop, stopped, executed⟩
  · obtain rfl : fired = runner.planned := by
      rcases outcome with ⟨whole, _⟩ | ⟨_, failed, _⟩
      · exact whole
      · exact absurd (complete.symm.trans failed) nofun
    have accounts := Notifier.accounts_finishRun
      (fires.accounts (notifier.accounts_startRun runner.description))
    obtain ⟨closing, ends, closed⟩ := Notifier.listeners_finishRun
      (runner.run (notifier.startRun runner.description)).notifier
    rw [delivered, map_receiveAll_receiveAll] at closed
    rw [executed]
    exact .inl ⟨closing, _, rfl, ends, accounts, rfl, closed⟩
  · obtain ⟨rest, split⟩ := cuts.exists_rest
    rw [executed]
    exact .inr ⟨stop, rest, split, rfl, delivered⟩

theorem exists_told (runner : Runner) (notifier : Notifier) :
    ∃ events, runner.Told (runner.execute notifier).result events ∧
      (runner.execute notifier).notifier.listeners =
        notifier.listeners.map fun listener => listener.receiveAll events := by
  obtain ⟨opening, tests, starts, complete | stopped⟩ := runner.exists_delivered notifier
  · obtain ⟨closing, result, told, ends, accounts, executed, delivered⟩ := complete
    rw [executed]
    exact ⟨_, .whole starts (report_iff.mpr told) accounts ends, delivered⟩
  · obtain ⟨stop, rest, split, executed, delivered⟩ := stopped
    have report : runner.Report (tests.map Event.notice ++ rest) := report_iff.mpr split.symm
    rw [executed]
    refine ⟨_, .cut starts ?_, delivered⟩
    intro event listed result finished
    apply report.not_finished result
    rw [← finished]
    exact List.mem_append_left rest (List.mem_map_of_mem listed)

theorem Told.stopped_iff (told : runner.Told result events) :
    (∃ stop, result = .error stop) ↔
      ∀ event ∈ events, ∀ result, event.notice ≠ .runFinished result := by
  cases told with
  | whole _ _ _ ends =>
      refine iff_of_false nofun fun unfinished => ?_
      exact unfinished _ (by simp) _ ends
  | cut starts unfinished =>
      refine iff_of_true ⟨_, rfl⟩ (List.forall_mem_cons.mpr ⟨fun result => ?_, unfinished⟩)
      simp [starts]

theorem not_stopped_of_calm {notifier : Notifier} (calm : notifier.Calm) (runner : Runner) :
    ¬(runner.execute notifier).Stopped := by
  have started : (notifier.startRun runner.description).Calm := by
    rw [Notifier.startRun]
    refine Notifier.Calm.fire ?_ _
    exact calm
  obtain ⟨_, _, _, outcome⟩ := runner.run_cuts (notifier.startRun runner.description)
  have unasked := (calm_run started runner).stopRequested_eq_false
  rintro ⟨stop, stopped⟩
  rcases runner.execute_cases notifier with ⟨_, executed⟩ | ⟨_, failed, _⟩
  · rw [executed] at stopped
    cases stopped
  · rcases outcome with ⟨_, whole⟩ | ⟨_, _, asked⟩
    · exact absurd (failed.symm.trans whole) nofun
    · exact absurd (asked.symm.trans unasked) Bool.true_eq_false.mp

theorem exists_told_iff {opening closing : Event} {tests : List Event} {result : RunResult}
    (starts : opening.notice = .runStarted runner.description)
    (ends : closing.notice = .runFinished result) (kind : Notice → Prop)
    (ofTest : ∀ notice, kind notice → notice.ofTest = true) :
    (∃ event ∈ opening :: tests ++ [closing], kind event.notice) ↔
      ∃ notice ∈ tests.map Event.notice, kind notice := by
  have notOpening : ¬kind opening.notice := by
    intro told
    rw [starts] at told
    exact absurd (ofTest _ told) Bool.false_ne_true
  have notClosing : ¬kind closing.notice := by
    intro told
    rw [ends] at told
    exact absurd (ofTest _ told) Bool.false_ne_true
  simp [or_and_right, exists_or, notOpening, notClosing]

theorem Told.green {result : RunResult} (told : runner.Told (.ok result) events) :
    (result.wasSuccessful = true ↔ ¬∃ event ∈ events, event.notice.IsFailure) ∧
      (result.wasSuccessful = true → ∃ event ∈ events, event.notice.IsSuccess) := by
  cases told with
  | whole starts report accounts ends =>
      constructor
      · rw [accounts.wasSuccessful_iff, exists_told_iff starts ends Notice.IsFailure]
        · constructor
          · rintro green ⟨_, listed, failure, rfl⟩
            exact green failure listed
          · intro spared failure listed
            exact spared ⟨_, listed, failure, rfl⟩
        · rintro _ ⟨failure, rfl⟩
          rfl
      · intro green
        obtain ⟨_, _, passes⟩ := report.adds_up accounts
        obtain ⟨⟨description, told⟩, _⟩ := passes green
        rw [exists_told_iff starts ends Notice.IsSuccess]
        · rcases told with finished | ignored
          · exact ⟨_, finished, description, .inl rfl⟩
          · exact ⟨_, ignored, description, .inr rfl⟩
        · rintro _ ⟨description, rfl | rfl⟩
          · rfl
          · rfl

theorem Told.reported {result : RunResult} (told : runner.Told (.ok result) events)
    (path : String) (tree : FileTree) :
    let after := ({ path } : JunitReporter).receiveAll tree events
    after.1.path = path ∧
    ((tree.Saves path ∧ after.1.finish = .ok () ∧ ∃ report : JunitReport,
      after.2.Stands path report.render ∧ HoldCases report.suites (events.map Event.notice)) ∨
    (¬tree.Saves path ∧ ∃ error, after.1.finish = .error error)) := by
  cases told with
  | whole starts report accounts ends =>
      rename_i opening closing tests
      have unfinished : ∀ event ∈ opening :: tests, ∀ result,
          event.notice ≠ .runFinished result := by
        refine List.forall_mem_cons.mpr ⟨fun result => by simp [starts], ?_⟩
        intro event listed result finished
        refine report.not_finished result ?_
        rw [← finished]
        exact List.mem_map_of_mem listed
      obtain ⟨own, written | blocked⟩ :=
        JunitReporter.receiveAll_of_finished path tree unfinished ends
      · obtain ⟨saves, finish, report, stands, holds⟩ := written
        refine ⟨own, .inl ⟨saves, finish, report, stands, ?_⟩⟩
        rw [List.map_append]
        exact JunitReporter.holdCases_of_caseless holds (by rw [ends]; rfl)
      · exact ⟨own, .inr blocked⟩

theorem Told.failed_of_not_hasAddress {result : RunResult}
    (told : runner.Told (.ok result) events) (ready : runner.Ready)
    (missing : ¬runner.settings.HasAddress) : ∃ event ∈ events, event.notice.IsFailure := by
  cases told with
  | whole starts report _ ends =>
      refine (exists_told_iff starts ends Notice.IsFailure ?_).mpr ?_
      · rintro _ ⟨failure, rfl⟩
        rfl
      · rw [report_iff.mp report, planned_of_ready ready,
          fetch_of_not_hasAddress missing]
        exact ⟨_, List.mem_singleton.mpr rfl, _, rfl⟩

end Runner

end TestDelegation
