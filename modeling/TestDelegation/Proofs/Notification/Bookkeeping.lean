import Mathlib.Data.List.DropRight
import TestDelegation.Proofs.Notification.Accounting
import TestDelegation.Proofs.Notification.History
import TestDelegation.Proofs.Notification.Stopping

/-!
The books a notifier keeps, whatever is called on it in whatever order. Main definitions:
`Notifier.Attends`, what a notifier owes to its listeners, and `History.Kept`. Main statement:
`History.bookkeeping`.
-/

namespace TestDelegation

/-- The notices since the last run was started. -/
def currentRun (notices : List Notice) : List Notice :=
  notices.rtakeWhile fun notice => notice.name != "run-started"

/--
Somebody has asked for a stop: through a handle, or from outside before one of so many looks, or as
a listener, on receiving one of the events since it was added.
-/
def Asked (called : Prop) (interrupts : Nat → Bool) (looks : Nat) (additions : List Addition)
    (log : List Event) : Prop :=
  called ∨ (∃ look < looks, interrupts look = true) ∨
    ∃ addition ∈ additions, ∃ seen, seen ≠ [] ∧ seen <+: log.drop addition.position ∧
      addition.listener.asksToStop (addition.listener.received ++ seen) = true

namespace Notifier

/-- These listeners were added and these events delivered, and the stop request is up if asked. -/
structure Attends (notifier : Notifier) (called : Prop) (interrupts : Nat → Bool)
    (additions : List Addition) (log : List Event) : Prop where
  schedule : notifier.interrupts = interrupts
  listeners : notifier.listeners = additions.map fun addition =>
    addition.listener.receiveAll (log.drop addition.position)
  positions : ∀ addition ∈ additions, addition.position ≤ log.length
  stopRequested : notifier.stopRequested = true ↔
    Asked called interrupts notifier.looks additions log

variable {notifier : Notifier} {called : Prop} {interrupts : Nat → Bool}
  {additions : List Addition} {log : List Event}

theorem Attends.pleaseStop (attends : notifier.Attends called interrupts additions log) :
    notifier.pleaseStop.Attends True interrupts additions log where
  schedule := attends.schedule
  listeners := attends.listeners
  positions := attends.positions
  stopRequested := ⟨fun _ => .inl trivial, fun _ => rfl⟩

theorem Attends.with_result (attends : notifier.Attends called interrupts additions log)
    (readings : Nat) (startedAt : Duration) (result : RunResult) :
    { notifier with readings := readings, startedAt := startedAt, result := result }.Attends called
      interrupts additions log :=
  ⟨attends.schedule, attends.listeners, attends.positions, attends.stopRequested⟩

theorem Attends.congr {other : Prop} (attends : notifier.Attends called interrupts additions log)
    (same : called ↔ other) : notifier.Attends other interrupts additions log := by
  rwa [← propext same]

theorem Attends.addListener (attends : notifier.Attends called interrupts additions log)
    (listener : Listener) :
    (notifier.addListener listener).Attends called interrupts
      (additions ++ [⟨listener, log.length⟩]) log where
  schedule := attends.schedule
  listeners := by
    rw [Notifier.addListener, attends.listeners, List.map_append]
    simp
  positions := by
    intro addition member
    rcases List.mem_append.mp member with before | last
    · exact attends.positions addition before
    · rw [List.mem_singleton.mp last]
  stopRequested := by
    have nothing : ∀ seen : List Event, seen ≠ [] → ¬seen <+: log.drop log.length := by
      intro seen some part
      rw [List.drop_length, List.prefix_nil] at part
      exact some part
    refine attends.stopRequested.trans ?_
    simp only [Asked, List.mem_append, List.mem_singleton]
    constructor
    · rintro (call | outside | ⟨addition, member, asks⟩)
      · exact .inl call
      · exact .inr (.inl outside)
      · exact .inr (.inr ⟨addition, .inl member, asks⟩)
    · rintro (call | outside | ⟨addition, member | rfl, seen, some, part, asks⟩)
      · exact .inl call
      · exact .inr (.inl outside)
      · exact .inr (.inr ⟨addition, member, seen, some, part, asks⟩)
      · exact absurd part (nothing seen some)

theorem Attends.look_iff (attends : notifier.Attends called interrupts additions log) :
    notifier.look.2 = true ↔ Asked called interrupts (notifier.looks + 1) additions log := by
  simp only [look, Bool.or_eq_true, attends.stopRequested, attends.schedule, Asked]
  constructor
  · rintro ((call | ⟨look, bound, outside⟩ | asks) | now)
    · exact .inl call
    · exact .inr (.inl ⟨look, by omega, outside⟩)
    · exact .inr (.inr asks)
    · exact .inr (.inl ⟨notifier.looks, by omega, now⟩)
  · rintro (call | ⟨look, bound, outside⟩ | asks)
    · exact .inl (.inl call)
    · by_cases last : look = notifier.looks
      · rw [last] at outside
        exact .inr outside
      · exact .inl (.inr (.inl ⟨look, by omega, outside⟩))
    · exact .inl (.inr (.inr asks))

theorem Attends.look (attends : notifier.Attends called interrupts additions log) :
    notifier.look.1.Attends called interrupts additions log where
  schedule := attends.schedule
  listeners := attends.listeners
  positions := attends.positions
  stopRequested := attends.look_iff

theorem Attends.fire (attends : notifier.Attends called interrupts additions log)
    (notice : Notice) :
    (notifier.fire notice).Attends called interrupts additions
      (log ++ [notifier.eventAt 0 notice]) where
  schedule := attends.schedule
  listeners := by
    rw [(fires_fire notifier notice).listeners, attends.listeners, List.map_map]
    apply List.map_congr_left
    intro addition member
    rw [Function.comp, Listener.receiveAll_receiveAll,
      List.drop_append_of_le_length (attends.positions addition member)]
    rfl
  positions := by
    intro addition member
    have bound := attends.positions addition member
    rw [List.length_append]
    omega
  stopRequested := by
    have longer : ∀ addition ∈ additions, ∀ seen,
        seen <+: (log ++ [notifier.eventAt 0 notice]).drop addition.position ↔
          seen = log.drop addition.position ++ [notifier.eventAt 0 notice] ∨
            seen <+: log.drop addition.position := by
      intro addition member seen
      rw [List.drop_append_of_le_length (attends.positions addition member),
        List.prefix_concat_iff]
    rw [stopRequested_fire_iff, attends.stopRequested, attends.listeners]
    constructor
    · rintro ((call | outside | ⟨addition, member, seen, some, part, asks⟩) |
        ⟨listener, among, asks⟩)
      · exact .inl call
      · exact .inr (.inl outside)
      · exact .inr (.inr ⟨addition, member, seen, some,
          (longer addition member seen).mpr (.inr part), asks⟩)
      · obtain ⟨addition, member, rfl⟩ := List.mem_map.mp among
        refine .inr (.inr ⟨addition, member, _, ?_, (longer addition member _).mpr (.inl rfl), ?_⟩)
        · simp
        · rw [← List.append_assoc]
          exact asks
    · rintro (call | outside | ⟨addition, member, seen, some, part, asks⟩)
      · exact .inl (.inl call)
      · exact .inl (.inr (.inl outside))
      · rcases (longer addition member seen).mp part with rfl | before
        · refine .inr ⟨_, List.mem_map.mpr ⟨addition, member, rfl⟩, ?_⟩
          rw [← List.append_assoc] at asks
          exact asks
        · exact .inl (.inr (.inr ⟨addition, member, seen, some, before, asks⟩))

end Notifier

theorem currentRun_start (log : List Event) {event : Event}
    (starts : event.notice.name = "run-started") :
    currentRun ((log ++ [event]).map Event.notice) = [] := by
  rw [List.map_append, List.map_singleton, currentRun, List.rtakeWhile_concat, starts]
  rfl

theorem currentRun_append (log : List Event) {event : Event}
    (within : event.notice.name ≠ "run-started") :
    currentRun ((log ++ [event]).map Event.notice) =
      currentRun (log.map Event.notice) ++ [event.notice] := by
  rw [List.map_append, List.map_singleton, currentRun, List.rtakeWhile_concat,
    if_pos (bne_iff_ne.mpr within)]
  rfl

theorem TestCall.name_notice_ne (call : TestCall) : call.notice.name ≠ "run-started" := by
  cases call with
  | started description => simp [notice, Notice.name]
  | finished description => simp [notice, Notice.name]
  | ignored description => simp [notice, Notice.name]
  | failed failure => simp [notice, Notice.name]

section

variable {notifier : Notifier} {called : Prop} {interrupts : Nat → Bool}
  {additions : List Addition} {log : List Event}

/-- The log goes on with these notices, and the notifier has kept its books on them. -/
def Notifier.Continues (after : Notifier) (called : Prop) (interrupts : Nat → Bool)
    (additions : List Addition) (log : List Event) (notices : List Notice) : Prop :=
  ∃ delivered, delivered.map Event.notice = notices ∧
    after.Attends called interrupts additions (log ++ delivered) ∧
    after.result.Accounts (currentRun ((log ++ delivered).map Event.notice))

theorem Notifier.continues_silent (attends : notifier.Attends called interrupts additions log)
    (accounts : notifier.result.Accounts (currentRun (log.map Event.notice))) :
    notifier.Continues called interrupts additions log [] := by
  rw [← List.append_nil log] at attends accounts
  exact ⟨[], rfl, attends, accounts⟩

theorem Notifier.continues_fire {notice : Notice}
    (attends : notifier.Attends called interrupts additions log)
    (accounts : notifier.result.Accounts (currentRun (log.map Event.notice)))
    (within : notice.name ≠ "run-started") :
    (notifier.fire notice).Continues called interrupts additions log [notice] := by
  refine ⟨[_], rfl, attends.fire notice, ?_⟩
  rw [currentRun_append log within]
  exact accounts.record notice

theorem Notifier.continues_startRun (attends : notifier.Attends called interrupts additions log)
    (description : Description) :
    (notifier.startRun description).Continues called interrupts additions log
      [.runStarted description] := by
  have reset := attends.with_result (notifier.readings + 1)
    (notifier.clock notifier.readings).uptime (.new (notifier.clock notifier.readings).timestamp)
  refine ⟨[_], rfl, reset.fire (.runStarted description), ?_⟩
  rw [currentRun_start log rfl]
  exact notifier.accounts_startRun description

theorem Notifier.continues_finishRun (attends : notifier.Attends called interrupts additions log)
    (accounts : notifier.result.Accounts (currentRun (log.map Event.notice))) :
    notifier.finishRun.1.Continues called interrupts additions log
      [.runFinished notifier.finishRun.2] := by
  have closed := attends.with_result (notifier.readings + 1) notifier.startedAt
    notifier.finishRun.2
  have told := Notifier.accounts_finishRun accounts
  have within : (Notice.runFinished notifier.finishRun.2).name ≠ "run-started" := by
    simp [Notice.name]
  exact Notifier.continues_fire closed told within

theorem TestCall.continues_attempt (attends : notifier.Attends called interrupts additions log)
    (accounts : notifier.result.Accounts (currentRun (log.map Event.notice))) (call : TestCall) :
    (notifier.attempt call.notice).1.Continues called interrupts additions log
      (call.accepted (notifier.attempt call.notice).2) := by
  rcases notifier.attempt_cases call.notice with
    ⟨_, attempted⟩ | ⟨_, _, attempted⟩ | ⟨_, _, attempted⟩
  · rw [attempted]
    exact Notifier.continues_fire attends accounts call.name_notice_ne
  · rw [attempted]
    have looked : notifier.look.1.result.Accounts (currentRun (log.map Event.notice)) := accounts
    exact Notifier.continues_fire attends.look looked call.name_notice_ne
  · rw [attempted]
    exact Notifier.continues_silent attends.look accounts

theorem Notifier.Continues.of_other {notices : List Notice}
    (continues : notifier.Continues called interrupts additions log notices)
    {operation : Operation} {position : Nat} (other : .pleaseStop ≠ operation)
    (none_added : operation.additions position = []) :
    notifier.Continues (called ∨ .pleaseStop = operation) interrupts
      (additions ++ operation.additions position) log notices := by
  rw [none_added, List.append_nil, propext (or_iff_left other)]
  exact continues

theorem Operation.continues_perform (attends : notifier.Attends called interrupts additions log)
    (accounts : notifier.result.Accounts (currentRun (log.map Event.notice)))
    (operation : Operation) :
    (operation.perform notifier).1.Continues (called ∨ .pleaseStop = operation) interrupts
      (additions ++ operation.additions log.length) log
      (Step.mk operation (operation.perform notifier).2).notices := by
  cases operation with
  | addListener listener =>
      have unasked : Operation.pleaseStop ≠ .addListener listener := nofun
      have added := (attends.addListener listener).congr (or_iff_left unasked).symm
      exact Notifier.continues_silent added accounts
  | pleaseStop =>
      have asked : True ↔ called ∨ Operation.pleaseStop = .pleaseStop := by simp
      have stopped := attends.pleaseStop.congr asked
      rw [← List.append_nil additions] at stopped
      exact Notifier.continues_silent stopped accounts
  | isStopRequested =>
      have looked := Notifier.continues_silent attends.look accounts
      exact looked.of_other nofun rfl
  | startRun description =>
      exact (Notifier.continues_startRun attends description).of_other nofun rfl
  | finishRun => exact (Notifier.continues_finishRun attends accounts).of_other nofun rfl
  | tell call =>
      have attempted := call.continues_attempt attends accounts
      rw [← call.onNotifier_eq_attempt] at attempted
      exact attempted.of_other nofun rfl
  | tellBound call =>
      have attempted := call.continues_attempt attends accounts
      rw [← call.onTestNotifier_eq_attempt] at attempted
      exact attempted.of_other nofun rfl

theorem Notifier.attempt_of_stopped {notice : Notice} (stopped : notifier.look.2 = true)
    (begins : notice.BeginsReport) :
    notifier.attempt notice = (notifier.look.1, .error .stopped) := by
  have refusable := Notice.canBeRefused_iff.mpr begins
  rcases notifier.attempt_cases notice with ⟨unchecked, _⟩ | ⟨_, clear, _⟩ | ⟨_, _, attempted⟩
  · rw [unchecked] at refusable
    cases refusable
  · rw [stopped] at clear
    cases clear
  · exact attempted

theorem Notifier.attempt_eq_error_iff {notice : Notice} :
    (notifier.attempt notice).2 = .error .stopped ↔
      notice.BeginsReport ∧ notifier.look.2 = true := by
  constructor
  · intro refused
    rcases notifier.attempt_cases notice with
      ⟨_, attempted⟩ | ⟨_, _, attempted⟩ | ⟨refusable, stopped, _⟩
    · rw [attempted] at refused
      cases refused
    · rw [attempted] at refused
      cases refused
    · exact ⟨Notice.canBeRefused_iff.mp refusable, stopped⟩
  · rintro ⟨begins, stopped⟩
    rw [attempt_of_stopped stopped begins]

theorem Notifier.look_fire (notifier : Notifier) (notice : Notice)
    (stopped : notifier.look.2 = true) : (notifier.fire notice).look.2 = true := by
  rw [look, Bool.or_eq_true] at stopped ⊢
  exact stopped.imp_left fun before => stopRequested_fire_iff.mpr (.inl before)

theorem TestCall.attempt_stopped (stopped : notifier.look.2 = true) (call : TestCall) :
    (notifier.attempt call.notice).1.look.2 = true ∧
      ∀ notice ∈ call.accepted (notifier.attempt call.notice).2, ¬notice.BeginsReport := by
  rcases notifier.attempt_cases call.notice with
    ⟨unchecked, attempted⟩ | ⟨_, clear, _⟩ | ⟨_, _, attempted⟩
  · rw [attempted]
    refine ⟨notifier.look_fire _ stopped, ?_⟩
    intro notice member begins
    rw [List.mem_singleton.mp member, ← Notice.canBeRefused_iff, unchecked] at begins
    cases begins
  · rw [stopped] at clear
    cases clear
  · rw [attempted]
    refine ⟨?_, by simp [accepted]⟩
    exact Bool.or_eq_true_iff.mpr (.inl stopped)

theorem Operation.perform_stopped (stopped : notifier.look.2 = true) (operation : Operation) :
    (operation.perform notifier).1.look.2 = true ∧
      ∀ notice ∈ (Step.mk operation (operation.perform notifier).2).notices,
        ¬notice.BeginsReport := by
  cases operation with
  | addListener listener => exact ⟨stopped, by simp [Step.notices]⟩
  | pleaseStop => exact ⟨rfl, by simp [Step.notices]⟩
  | isStopRequested =>
      refine ⟨?_, by simp [Step.notices]⟩
      exact Bool.or_eq_true_iff.mpr (.inl stopped)
  | startRun description =>
      refine ⟨Notifier.look_fire _ (.runStarted description) stopped, ?_⟩
      intro notice member begins
      rw [List.mem_singleton.mp member] at begins
      cases begins
  | finishRun =>
      refine ⟨Notifier.look_fire _ (.runFinished notifier.finishRun.2) stopped, ?_⟩
      intro notice member begins
      rw [List.mem_singleton.mp member] at begins
      cases begins
  | tell call =>
      have attempted := call.attempt_stopped stopped
      rw [← call.onNotifier_eq_attempt] at attempted
      exact attempted
  | tellBound call =>
      have attempted := call.attempt_stopped stopped
      rw [← call.onTestNotifier_eq_attempt] at attempted
      exact attempted

end

namespace History

/-- The books are right: what was called and what was fired explains the state of the notifier. -/
structure Kept (history : History) (called : Prop) (interrupts : Nat → Bool) (log : List Event) :
    Prop where
  notices : log.map Event.notice = history.fired
  attends : history.notifier.Attends called interrupts history.additions log
  accounts : history.notifier.result.Accounts (currentRun history.fired)

variable {history : History} {called : Prop} {interrupts : Nat → Bool} {log : List Event}

theorem kept_new (clock : Clock) (interrupts : Nat → Bool) :
    (new clock interrupts).Kept False interrupts [] where
  notices := rfl
  attends := {
    schedule := rfl
    listeners := rfl
    positions := by
      intro addition member
      cases member
    stopRequested := by
      constructor
      · nofun
      · rintro (call | ⟨look, bound, _⟩ | ⟨addition, member, _⟩)
        · exact call.elim
        · exact absurd bound (Nat.not_lt_zero look)
        · cases member }
  accounts := RunResult.accounts_new _

theorem Kept.perform (kept : history.Kept called interrupts log) (operation : Operation) :
    ∃ longer, (history.perform operation).Kept (called ∨ .pleaseStop = operation) interrupts
      longer := by
  have accounts := kept.accounts
  rw [← kept.notices] at accounts
  obtain ⟨delivered, tells, attends, accounts⟩ := operation.continues_perform kept.attends accounts
  have position : log.length = history.fired.length := by
    rw [← kept.notices, List.length_map]
  have notices : (log ++ delivered).map Event.notice = (history.perform operation).fired := by
    rw [List.map_append, kept.notices, tells, fired_perform]
  refine ⟨log ++ delivered, notices, ?_, ?_⟩
  · rw [additions_perform, ← position]
    exact attends
  · rw [← notices]
    exact accounts

theorem kept_performAll (clock : Clock) (interrupts : Nat → Bool) (operations : List Operation) :
    ∃ log, ((new clock interrupts).performAll operations).Kept (.pleaseStop ∈ operations)
      interrupts log := by
  -- From the last call back: the books are on everything since the notifier was new.
  induction operations using List.reverseRecOn with
  | nil =>
      refine ⟨[], ?_⟩
      have none_called : (.pleaseStop ∈ ([] : List Operation)) = False := by simp
      rw [none_called]
      exact kept_new clock interrupts
  | append_singleton operations operation ih =>
      obtain ⟨log, kept⟩ := ih
      obtain ⟨longer, next⟩ := kept.perform operation
      rw [← List.mem_singleton, ← List.mem_append] at next
      rw [performAll_append]
      exact ⟨longer, next⟩

theorem performAll_stopped (stopped : history.notifier.look.2 = true)
    (operations : List Operation) :
    (history.performAll operations).notifier.look.2 = true ∧
      ∃ later, (history.performAll operations).fired = history.fired ++ later ∧
        ∀ notice ∈ later, ¬notice.BeginsReport := by
  induction operations generalizing history with
  | nil => exact ⟨stopped, [], (List.append_nil _).symm, by simp⟩
  | cons operation rest ih =>
      obtain ⟨next, none_begins⟩ := operation.perform_stopped stopped
      have stillStopped : (history.perform operation).notifier.look.2 = true := next
      obtain ⟨atEnd, later, fired, noneLater⟩ := ih stillStopped
      rw [fired_perform, List.append_assoc] at fired
      refine ⟨atEnd, _, fired, ?_⟩
      intro notice member
      exact (List.mem_append.mp member).elim (none_begins notice) (noneLater notice)

theorem perform_of_call {call : TestCall} {operation : Operation} {notifier : Notifier}
    (called : operation = .tell call ∨ operation = .tellBound call) :
    operation.perform notifier = ((notifier.attempt call.notice).1,
      .told (notifier.attempt call.notice).2) := by
  rcases called with rfl | rfl
  · rw [Operation.perform, call.onNotifier_eq_attempt]
  · rw [Operation.perform, call.onTestNotifier_eq_attempt]

/--
After any calls on a new notifier, by however many listeners and from wherever a stop is asked for:
the result accounts for the notices since the last start of a run; each listener has received the
events since it was added, in order; finishing a run answers the result that it fires; a call is
refused if it begins the report of a test and anybody has asked for a stop; and from then on every
such call is refused and leaves no trace.
-/
theorem bookkeeping (clock : Clock) (interrupts : Nat → Bool) (operations : List Operation) :
    let history := (new clock interrupts).performAll operations
    let result := history.notifier.result
    ∃ log : List Event, log.map Event.notice = history.fired ∧
      result.Accounts (currentRun history.fired) ∧
      result.failureCount = result.failures.length ∧
      (result.wasSuccessful = true ↔
        ∀ failure, .testFailure failure ∉ currentRun history.fired) ∧
      (history.notifier.listeners = history.additions.map fun addition =>
        addition.listener.receiveAll (log.drop addition.position)) ∧
      (∃ after finished,
        Operation.finishRun.perform history.notifier = (after, .finished finished) ∧
        finished.Accounts (currentRun history.fired) ∧
        (history.perform .finishRun).fired = history.fired ++ [.runFinished finished]) ∧
      (∀ (call : TestCall) (operation : Operation),
        operation = .tell call ∨ operation = .tellBound call →
        ∃ after outcome, operation.perform history.notifier = (after, .told outcome) ∧
          (outcome = .error .stopped ↔ call.notice.BeginsReport ∧
            Asked (.pleaseStop ∈ operations) interrupts (history.notifier.looks + 1)
              history.additions log)) ∧
      (Asked (.pleaseStop ∈ operations) interrupts (history.notifier.looks + 1) history.additions
          log →
        ∀ more, let later := history.performAll more
          (∃ fired, later.fired = history.fired ++ fired ∧
            ∀ notice ∈ fired, ¬notice.BeginsReport) ∧
          ∀ (call : TestCall) (operation : Operation), call.notice.BeginsReport →
            operation = .tell call ∨ operation = .tellBound call →
            ∃ refused, operation.perform later.notifier = (refused, .told (.error .stopped)) ∧
              refused.result = later.notifier.result ∧
              refused.listeners = later.notifier.listeners) := by
  intro history result
  obtain ⟨log, kept⟩ := kept_performAll clock interrupts operations
  have accounts : result.Accounts (currentRun history.fired) := kept.accounts
  refine ⟨log, kept.notices, accounts, accounts.failureCount_eq, accounts.wasSuccessful_iff,
    kept.attends.listeners, ?_, ?_, ?_⟩
  · exact ⟨_, _, rfl, Notifier.accounts_finishRun accounts, history.fired_perform .finishRun⟩
  · intro call operation called
    refine ⟨(history.notifier.attempt call.notice).1, (history.notifier.attempt call.notice).2,
      perform_of_call called, ?_⟩
    rw [Notifier.attempt_eq_error_iff, kept.attends.look_iff]
  · intro asked more later
    have stopped : history.notifier.look.2 = true := kept.attends.look_iff.mpr asked
    obtain ⟨stillStopped, fired⟩ := performAll_stopped stopped more
    refine ⟨fired, ?_⟩
    intro call operation begins called
    have refused := Notifier.attempt_of_stopped stillStopped begins
    refine ⟨later.notifier.look.1, ?_, rfl, rfl⟩
    rw [perform_of_call called, refused]

example (description : Description) :
    ((new (fun _ => ⟨default, .zero⟩) fun _ => false).performAll
      [.startRun description, .tell (.started description), .pleaseStop,
        .tellBound (.ignored description), .tell (.finished description)]).fired =
      [.runStarted description, .testStarted description, .testFinished description] := rfl

end History

end TestDelegation
