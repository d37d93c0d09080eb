import TestDelegation.Proofs.Notification.Firing

/-!
What a result adds up. Main definition: `RunResult.Accounts`. Main statement: `Accounts.recordAll`.
-/

namespace TestDelegation

def numberOf (name : String) (notices : List Notice) : Nat :=
  notices.countP fun notice => notice.name == name

def Notice.failure? : Notice → Option Failure
  | .testFailure failure => some failure
  | .runStarted _ => none
  | .runFinished _ => none
  | .testStarted _ => none
  | .testFinished _ => none
  | .testIgnored _ => none

variable {first second notices : List Notice}

theorem numberOf_append (name : String) (first second : List Notice) :
    numberOf name (first ++ second) = numberOf name first + numberOf name second :=
  List.countP_append

theorem numberOf_failure (notices : List Notice) :
    numberOf "test-failure" notices = (notices.filterMap Notice.failure?).length := by
  induction notices with
  | nil => rfl
  | cons notice rest ih =>
      cases notice <;> simpa [numberOf, Notice.name, Notice.failure?, List.filterMap_cons] using ih

theorem mem_failures_iff {failure : Failure} :
    failure ∈ notices.filterMap Notice.failure? ↔ .testFailure failure ∈ notices := by
  rw [List.mem_filterMap]
  constructor
  · rintro ⟨notice, member, tells⟩
    cases notice with
    | testFailure other => rwa [← Option.some.inj tells]
    | _ => cases tells
  · intro member
    exact ⟨_, member, rfl⟩

namespace RunResult

/-- The result holds the numbers of these notices, and the failures among them in order. -/
structure Accounts (result : RunResult) (notices : List Notice) : Prop where
  startedCount : result.startedCount = numberOf "test-started" notices
  runCount : result.runCount = numberOf "test-finished" notices
  ignoreCount : result.ignoreCount = numberOf "test-ignored" notices
  failureCount : result.failureCount = numberOf "test-failure" notices
  failures : result.failures = notices.filterMap Notice.failure?

variable {result : RunResult}

theorem accounts_new (startTime : Timestamp) : (RunResult.new startTime).Accounts [] :=
  ⟨rfl, rfl, rfl, rfl, rfl⟩

theorem Accounts.with_runTime (accounts : result.Accounts notices) (runTime : Duration) :
    { result with runTime := runTime }.Accounts notices :=
  ⟨accounts.startedCount, accounts.runCount, accounts.ignoreCount, accounts.failureCount,
    accounts.failures⟩

theorem Accounts.record (accounts : result.Accounts notices) (notice : Notice) :
    (result.record notice).Accounts (notices ++ [notice]) := by
  obtain ⟨started, run, ignored, failed, failures⟩ := accounts
  cases notice <;>
    constructor <;>
    simpa [RunResult.record, numberOf, Notice.name, Notice.failure?, List.filterMap_cons]

theorem Accounts.recordAll (accounts : result.Accounts first) (second : List Notice) :
    (result.recordAll second).Accounts (first ++ second) := by
  induction second generalizing result first with
  | nil =>
      rw [List.append_nil]
      exact accounts
  | cons notice rest ih =>
      rw [List.append_cons]
      exact ih (accounts.record notice)

theorem Accounts.failureCount_eq (accounts : result.Accounts notices) :
    result.failureCount = result.failures.length := by
  rw [accounts.failureCount, accounts.failures, numberOf_failure]

theorem Accounts.wasSuccessful_iff (accounts : result.Accounts notices) :
    result.wasSuccessful = true ↔ ∀ failure, .testFailure failure ∉ notices := by
  rw [wasSuccessful, beq_iff_eq, accounts.failureCount_eq, List.length_eq_zero_iff,
    accounts.failures, List.eq_nil_iff_forall_not_mem]
  exact forall_congr' fun failure => not_congr mem_failures_iff

end RunResult

namespace Notifier

theorem accounts_startRun (notifier : Notifier) (description : Description) :
    (notifier.startRun description).result.Accounts [] :=
  RunResult.accounts_new _

theorem accounts_finishRun {notifier : Notifier} (accounts : notifier.result.Accounts notices) :
    notifier.finishRun.2.Accounts notices :=
  accounts.with_runTime _

theorem Fires.accounts {before after : Notifier} (fires : before.Fires notices after)
    (none_before : before.result.Accounts []) : after.result.Accounts notices := by
  rw [fires.result]
  exact none_before.recordAll notices

end Notifier

end TestDelegation
