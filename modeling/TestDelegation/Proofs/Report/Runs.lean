import TestDelegation.Proofs.Notification.Accounting
import TestDelegation.Proofs.Report.Suites

/-!
Reports of the runs that one reporter is told of. Main statement: `report_of_run`. A reporter
forgets its cases when a run finishes and at no other time, so a report holds the cases of its own
run and those of the runs that were stopped since the last one.
-/

namespace TestDelegation

def TestCase.untimed (testCase : TestCase) : TestCase := { testCase with time := none }

def Notice.case? : Notice → Option TestCase
  | .testFinished description => some (JunitReporter.testCase description .success none)
  | .testIgnored description => some (JunitReporter.testCase description .skipped none)
  | .testFailure failure =>
    some (JunitReporter.testCase failure.description (.failure failure.cause) none)
  | .testStarted _ => none
  | .runStarted _ => none
  | .runFinished _ => none

/-- The suites hold the cases of these notices, in their order, and no others. -/
def HoldCases (suites : List TestSuite) (notices : List Notice) : Prop :=
  ∃ cases, suites = suitesOf cases ∧ cases.map TestCase.untimed = notices.filterMap Notice.case?

theorem numberOf_cons (name : String) (notice : Notice) (rest : List Notice) :
    numberOf name (notice :: rest) =
      numberOf name rest + if notice.name == name then 1 else 0 :=
  List.countP_cons

theorem length_cases (notices : List Notice) :
    (notices.filterMap Notice.case?).length = numberOf "test-finished" notices +
      numberOf "test-ignored" notices + numberOf "test-failure" notices := by
  induction notices with
  | nil => rfl
  | cons notice rest ih =>
      rw [numberOf_cons, numberOf_cons, numberOf_cons]
      cases notice with
      | testFinished _ => simp [Notice.case?, Notice.name, ih]; omega
      | testIgnored _ => simp [Notice.case?, Notice.name, ih]; omega
      | testFailure _ => simp [Notice.case?, Notice.name, ih]; omega
      | _ => exact ih

theorem countP_failed_cases (notices : List Notice) :
    (notices.filterMap Notice.case?).countP TestCase.failed = numberOf "test-failure" notices := by
  induction notices with
  | nil => rfl
  | cons notice rest ih =>
      rw [numberOf_cons, ← ih]
      cases notice with
      | testFinished _ => exact List.countP_cons_of_neg Bool.false_ne_true
      | testIgnored _ => exact List.countP_cons_of_neg Bool.false_ne_true
      | testFailure _ => exact List.countP_cons_of_pos rfl
      | _ => rfl

namespace JunitReport

variable {report : JunitReport} {notices : List Notice}

theorem tests_of_holdCases (holds : HoldCases report.suites notices) :
    report.tests = (notices.filterMap Notice.case?).length := by
  obtain ⟨cases, suites, told⟩ := holds
  rw [tests_of_suitesOf suites, ← told, List.length_map]

theorem failures_of_holdCases (holds : HoldCases report.suites notices) :
    report.failures = numberOf "test-failure" notices := by
  obtain ⟨cases, suites, told⟩ := holds
  rw [failures_of_suitesOf suites, ← countP_failed_cases, ← told, List.countP_map]
  rfl

end JunitReport

def leftAfter (left : List Notice) : Notice → List Notice
  | .runFinished _ => []
  | .runStarted description => left ++ [.runStarted description]
  | .testStarted description => left ++ [.testStarted description]
  | .testFinished description => left ++ [.testFinished description]
  | .testIgnored description => left ++ [.testIgnored description]
  | .testFailure failure => left ++ [.testFailure failure]

namespace JunitReporter

variable {reporter : JunitReporter} {left : List Notice}

theorem holdCases_addCase {suites : List TestSuite} {notice : Notice} {testCase : TestCase}
    (holds : HoldCases suites left) (told : notice.case? = some testCase.untimed) :
    HoldCases (addCase testCase suites) (left ++ [notice]) := by
  obtain ⟨cases, rfl, same⟩ := holds
  refine ⟨cases ++ [testCase], addCase_suitesOf testCase cases, ?_⟩
  rw [List.map_append, same, List.filterMap_append, List.filterMap_cons_some told]
  rfl

theorem holdCases_of_caseless {suites : List TestSuite} {notice : Notice}
    (holds : HoldCases suites left) (caseless : notice.case? = none) :
    HoldCases suites (left ++ [notice]) := by
  obtain ⟨cases, suites, same⟩ := holds
  refine ⟨cases, suites, ?_⟩
  rw [same, List.filterMap_append, List.filterMap_cons_none caseless, List.filterMap_nil,
    List.append_nil]

theorem holdCases_collect (holds : HoldCases reporter.suites left) (event : Event) :
    HoldCases (reporter.collect event).suites (leftAfter left event.notice) := by
  unfold collect
  cases event.notice with
  | runStarted description => exact holdCases_of_caseless holds rfl
  | runFinished result => exact ⟨[], rfl, rfl⟩
  | testStarted description => exact holdCases_of_caseless holds rfl
  | testFinished description => exact holdCases_addCase holds rfl
  | testIgnored description => exact holdCases_addCase holds rfl
  | testFailure failure => exact holdCases_addCase holds rfl

theorem suites_receive (reporter : JunitReporter) (tree : FileTree) (event : Event) :
    (reporter.receive tree event).1.suites = (reporter.collect event).suites := by
  unfold receive
  split
  · rfl
  · -- a failed write changes the fault only
    rename_i report _
    obtain ⟨saved, _ | _⟩ := saveReport tree reporter.path report.render
    · rfl
    · rfl

def receiveAll (reporter : JunitReporter) (tree : FileTree) (events : List Event) :
    JunitReporter × FileTree :=
  events.foldl (fun (reporter, tree) event => reporter.receive tree event) (reporter, tree)

theorem holdCases_receiveAll (holds : HoldCases reporter.suites left) (tree : FileTree)
    (events : List Event) :
    HoldCases (reporter.receiveAll tree events).1.suites
      ((events.map Event.notice).foldl leftAfter left) := by
  induction events generalizing reporter tree left with
  | nil => exact holds
  | cons event rest ih =>
      refine @ih (reporter.receive tree event).1 (leftAfter left event.notice) ?_
        (reporter.receive tree event).2
      rw [suites_receive]
      exact holdCases_collect holds event

end JunitReporter

def Notice.ofTest : Notice → Bool
  | .testStarted _ => true
  | .testFinished _ => true
  | .testIgnored _ => true
  | .testFailure _ => true
  | .runStarted _ => false
  | .runFinished _ => false

/--
The events of one run. One that was stopped has no closing event; that of a finished run carries
the result of its tests.
-/
structure RunEvents where
  opening : Event
  tests : List Event
  closing : Option Event
  opens : ∃ description, opening.notice = .runStarted description
  ofTests : ∀ event ∈ tests, event.notice.ofTest = true
  closes : ∀ event, closing = some event → ∃ result, event.notice = .runFinished result ∧
    result.Accounts (tests.map Event.notice)

namespace RunEvents

def untilClosing (run : RunEvents) : List Event := run.opening :: run.tests

def events (run : RunEvents) : List Event := run.untilClosing ++ run.closing.toList

def told (run : RunEvents) : List Notice := run.untilClosing.map Event.notice

def pendingFrom (left : List Notice) : List RunEvents → List Notice
  | [] => left
  | run :: rest => pendingFrom (if run.closing.isSome then [] else left ++ run.told) rest

def pending (runs : List RunEvents) : List Notice := pendingFrom [] runs

theorem foldl_leftAfter_of_unfinished {left notices : List Notice}
    (unfinished : ∀ notice ∈ notices, ∀ result, notice ≠ .runFinished result) :
    notices.foldl leftAfter left = left ++ notices := by
  induction notices generalizing left with
  | nil => simp
  | cons notice rest ih =>
      obtain ⟨first, later⟩ := List.forall_mem_cons.mp unfinished
      have kept : leftAfter left notice = left ++ [notice] := by
        cases notice with
        | runFinished result => exact absurd rfl (first result)
        | _ => rfl
      rw [List.foldl_cons, kept, ih later, List.append_assoc, List.singleton_append]

theorem foldl_told (run : RunEvents) (left : List Notice) :
    run.told.foldl leftAfter left = left ++ run.told := by
  apply foldl_leftAfter_of_unfinished
  intro notice listed result finished
  obtain ⟨event, found, rfl⟩ := List.mem_map.mp listed
  rcases List.mem_cons.mp found with rfl | ofTest
  · obtain ⟨description, opens⟩ := run.opens
    rw [opens] at finished
    cases finished
  · have test := run.ofTests event ofTest
    rw [finished] at test
    cases test

theorem foldl_events (run : RunEvents) (left : List Notice) :
    (run.events.map Event.notice).foldl leftAfter left =
      if run.closing.isSome then [] else left ++ run.told := by
  rw [events, List.map_append, List.foldl_append, ← told, foldl_told]
  cases closed : run.closing with
  | none => rfl
  | some closing =>
      obtain ⟨result, finished, _⟩ := run.closes closing closed
      simp [finished, leftAfter]

theorem foldl_flatMap_events (runs : List RunEvents) (left : List Notice) :
    ((runs.flatMap events).map Event.notice).foldl leftAfter left = pendingFrom left runs := by
  induction runs generalizing left with
  | nil => rfl
  | cons run rest ih =>
      rw [List.flatMap_cons, List.map_append, List.foldl_append, foldl_events, ih, pendingFrom]

theorem numberOf_told (run : RunEvents) {name : String} (other : name ≠ "run-started") :
    numberOf name run.told = numberOf name (run.tests.map Event.notice) := by
  obtain ⟨description, opens⟩ := run.opens
  rw [told, untilClosing, List.map_cons, numberOf_cons, opens, if_neg]
  · rfl
  · simpa [Notice.name] using Ne.symm other

end RunEvents

namespace Notifier

variable {before after : Notifier} {description : Description} {notices : List Notice}

theorem exists_stopped_run (fires : (before.startRun description).Fires notices after)
    (ofTests : ∀ notice ∈ notices, notice.ofTest = true) :
    ∃ run : RunEvents, run.told = .runStarted description :: notices ∧ run.closing = none ∧
      after.listeners = before.listeners.map fun listener => listener.receiveAll run.events := by
  obtain ⟨opening, opens, heard⟩ := before.listeners_startRun description
  have tests : ∀ event ∈ (before.startRun description).events notices,
      event.notice.ofTest = true := by
    intro event listed
    apply ofTests
    rw [← map_notice_events (before.startRun description) notices]
    exact List.mem_map_of_mem listed
  refine ⟨⟨opening, (before.startRun description).events notices, none, ⟨description, opens⟩, tests,
    nofun⟩, ?_, rfl, ?_⟩
  · change opening.notice :: ((before.startRun description).events notices).map Event.notice = _
    rw [opens, map_notice_events]
  · rw [fires.listeners, heard, map_receiveAll_receiveAll]
    simp [RunEvents.events, RunEvents.untilClosing]

theorem exists_finished_run (fires : (before.startRun description).Fires notices after)
    (ofTests : ∀ notice ∈ notices, notice.ofTest = true) :
    ∃ (run : RunEvents) (closing : Event), run.told = .runStarted description :: notices ∧
      run.closing = some closing ∧ closing.notice = .runFinished after.finishRun.2 ∧
      after.finishRun.1.listeners =
        before.listeners.map fun listener => listener.receiveAll run.events := by
  obtain ⟨run, told, stopped, heard⟩ := exists_stopped_run fires ofTests
  obtain ⟨closing, closes, last⟩ := after.listeners_finishRun
  have tests : run.tests.map Event.notice = notices := (List.cons.inj told).2
  have accounts : after.finishRun.2.Accounts (run.tests.map Event.notice) := by
    rw [tests]
    exact accounts_finishRun (fires.accounts (before.accounts_startRun description))
  refine ⟨{ run with closing := some closing, closes := ?_ }, closing, told, rfl, closes, ?_⟩
  · rintro _ ⟨⟩
    exact ⟨_, closes, accounts⟩
  · have unclosed : run.events = run.untilClosing := by
      rw [RunEvents.events, stopped, Option.toList_none, List.append_nil]
    rw [last, heard, unclosed, map_receiveAll_receiveAll]
    rfl

end Notifier

namespace JunitReporter

open RunEvents

/--
A report holds the cases of its own run after those of the runs that were stopped since the report
before it. It describes its own run exactly when no stopped run has left a case.
-/
theorem report_of_run (path reportName : String) (tree : FileTree) (before : List RunEvents)
    (run : RunEvents) {closing : Event} (closed : run.closing = some closing) :
    ∃ result report,
      closing.notice = .runFinished result ∧
      (({ path, reportName } : JunitReporter).receiveAll tree
        (before.flatMap events ++ run.untilClosing)).1.report? closing = some report ∧
      HoldCases report.suites (pending before ++ run.told) ∧
      report.tests = ((pending before).filterMap Notice.case?).length +
        (result.runCount + result.ignoreCount + result.failureCount) ∧
      report.failures = numberOf "test-failure" (pending before) + result.failureCount ∧
      (HoldCases report.suites run.told ↔ (pending before).filterMap Notice.case? = []) := by
  obtain ⟨result, finished, accounts⟩ := run.closes closing closed
  have empty : HoldCases ({ path, reportName } : JunitReporter).suites [] := ⟨[], rfl, rfl⟩
  have holds := holdCases_receiveAll empty tree (before.flatMap events ++ run.untilClosing)
  rw [List.map_append, List.foldl_append, foldl_flatMap_events, ← told, foldl_told] at holds
  generalize (({ path, reportName } : JunitReporter).receiveAll tree
    (before.flatMap events ++ run.untilClosing)).1 = reporter at holds ⊢
  have written : reporter.report? closing = some (reporter.report result) := by
    rw [report?, finished]
  have all : HoldCases (reporter.report result).suites (pending before ++ run.told) := holds
  have tests := JunitReport.tests_of_holdCases all
  rw [List.filterMap_append, List.length_append, length_cases run.told] at tests
  have failures := JunitReport.failures_of_holdCases all
  rw [numberOf_append] at failures
  have finishedTests := run.numberOf_told (by decide : "test-finished" ≠ "run-started")
  have ignoredTests := run.numberOf_told (by decide : "test-ignored" ≠ "run-started")
  have failedTests := run.numberOf_told (by decide : "test-failure" ≠ "run-started")
  rw [← accounts.runCount] at finishedTests
  rw [← accounts.ignoreCount] at ignoredTests
  rw [← accounts.failureCount] at failedTests
  refine ⟨result, reporter.report result, finished, written, all, by omega, by omega, ?_⟩
  constructor
  · -- a case more would show in the number of tests
    intro alone
    have own := JunitReport.tests_of_holdCases alone
    rw [length_cases] at own
    exact List.length_eq_zero_iff.mp (by omega)
  · intro none_left
    obtain ⟨cases, suites, told⟩ := all
    rw [List.filterMap_append, none_left, List.nil_append] at told
    exact ⟨cases, suites, told⟩

end JunitReporter

namespace RunEvents

def firstClass : ClassName := ⟨"it.A", by decide⟩

def secondClass : ClassName := ⟨"it.B", by decide⟩

def eventOf (notice : Notice) : Event := ⟨default, .zero, notice⟩

def stoppedRun : RunEvents where
  opening := eventOf (.runStarted (.ofClass firstClass))
  tests := [eventOf (.testStarted (.ofMethod firstClass "a")),
    eventOf (.testFinished (.ofMethod firstClass "a"))]
  closing := none
  opens := ⟨_, rfl⟩
  ofTests := by simp [eventOf, Notice.ofTest]
  closes := nofun

def ignoringResult : RunResult := { RunResult.new default with ignoreCount := 1 }

def ignoringRun : RunEvents where
  opening := eventOf (.runStarted (.ofClass secondClass))
  tests := [eventOf (.testIgnored (.ofMethod secondClass "b"))]
  closing := some (eventOf (.runFinished ignoringResult))
  opens := ⟨_, rfl⟩
  ofTests := by simp [eventOf, Notice.ofTest]
  closes := by
    rintro _ ⟨⟩
    exact ⟨ignoringResult, rfl, rfl, rfl, rfl, rfl, rfl⟩

end RunEvents

namespace JunitReporter

open RunEvents

theorem report_of_run_ignoringRun :
    ignoringRun.closing = some (eventOf (.runFinished ignoringResult)) ∧
      ∃ result report,
        (eventOf (.runFinished ignoringResult)).notice = .runFinished result ∧
        (({ path := "junit.xml", reportName := "smoke" } : JunitReporter).receiveAll ⟨[], []⟩
          ([stoppedRun, ignoringRun].flatMap events ++ ignoringRun.untilClosing)).1.report?
            (eventOf (.runFinished ignoringResult)) = some report ∧
        HoldCases report.suites (pending [stoppedRun, ignoringRun] ++ ignoringRun.told) ∧
        report.tests = ((pending [stoppedRun, ignoringRun]).filterMap Notice.case?).length +
          (result.runCount + result.ignoreCount + result.failureCount) ∧
        report.failures = numberOf "test-failure" (pending [stoppedRun, ignoringRun]) +
          result.failureCount ∧
        (HoldCases report.suites ignoringRun.told ↔
          (pending [stoppedRun, ignoringRun]).filterMap Notice.case? = []) :=
  ⟨rfl, report_of_run "junit.xml" "smoke" ⟨[], []⟩ [stoppedRun, ignoringRun] ignoringRun rfl⟩

/-- The test of the stopped run stands in the report of the next one, which tells of one test. -/
theorem report_after_stoppedRun :
    ∃ report,
      (({ path := "junit.xml", reportName := "smoke" } : JunitReporter).receiveAll ⟨[], []⟩
        ([stoppedRun].flatMap events ++ ignoringRun.untilClosing)).1.report?
          (eventOf (.runFinished ignoringResult)) = some report ∧
      report.tests = 2 ∧
      ignoringResult.runCount + ignoringResult.ignoreCount + ignoringResult.failureCount = 1 ∧
      ¬HoldCases report.suites ignoringRun.told := by
  refine ⟨_, rfl, by decide, rfl, ?_⟩
  intro holds
  exact absurd (JunitReport.tests_of_holdCases holds) (by decide)

end JunitReporter

end TestDelegation
