import TestDelegation.Proofs.Runner.Telling
import TestDelegation.Proofs.Text.Lines
import TestDelegation.Report.Lines

/-!
What people are shown of a run. Main definition: `Report.Shows`, which notices are shown by which
lines. Main statement: `Runner.execute_prints`. Names of methods come from the remote side as they
are, and one with a line feed in it is shown as several lines.
-/

namespace TestDelegation

open Text (HoldsLineFeed cutLines)

/-- The notices that are shown have one line each, in their order. -/
inductive Report.Shows : List Notice → List String → Prop
  | nothing : Shows [] []
  | runStarted {description : Description} {rest : List Notice} {lines : List String} :
      Shows rest lines → Shows (.runStarted description :: rest) (description.displayName :: lines)
  | succeeded {result : RunResult} {rest : List Notice} {lines : List String} :
      result.failureCount = 0 → Shows rest lines →
      Shows (.runFinished result :: rest) ("finished with success:true" :: lines)
  | failed {result : RunResult} {rest : List Notice} {lines : List String} :
      result.failureCount ≠ 0 → Shows rest lines →
      Shows (.runFinished result :: rest) ("finished with success:false" :: lines)
  | testFailure {failure : Failure} {rest : List Notice} {lines : List String} :
      Shows rest lines →
      Shows (.testFailure failure :: rest) (failure.description.displayName :: lines)
  | testIgnored {description : Description} {rest : List Notice} {lines : List String} :
      Shows rest lines → Shows (.testIgnored description :: rest) (description.displayName :: lines)
  | testStarted {description : Description} {rest : List Notice} {lines : List String} :
      Shows rest lines → Shows (.testStarted description :: rest) lines
  | testFinished {description : Description} {rest : List Notice} {lines : List String} :
      Shows rest lines → Shows (.testFinished description :: rest) lines

def Notice.shownMethod? : Notice → Option String
  | .testIgnored description => description.method?
  | .testFailure failure => failure.description.method?
  | .runStarted _ => none
  | .runFinished _ => none
  | .testStarted _ => none
  | .testFinished _ => none

namespace Report

theorem lines_eq_filterMap (events : List Event) :
    lines events = (events.map Event.notice).filterMap line? := by
  rw [List.filterMap_map]
  rfl

theorem shows_iff {notices : List Notice} {shown : List String} :
    Shows notices shown ↔ shown = notices.filterMap line? := by
  constructor
  · intro shows
    induction shows with
    | nothing => rfl
    | runStarted _ ih => rw [ih]; rfl
    | succeeded green _ ih => rw [ih]; simp [line?, RunResult.wasSuccessful, green]
    | failed red _ ih => rw [ih]; simp [line?, RunResult.wasSuccessful, red]
    | testFailure _ ih => rw [ih]; rfl
    | testIgnored _ ih => rw [ih]; rfl
    | testStarted _ ih => exact ih
    | testFinished _ ih => exact ih
  · rintro rfl
    induction notices with
    | nil => exact .nothing
    | cons notice rest ih =>
        cases notice with
        | runStarted _ => exact .runStarted ih
        | runFinished result =>
            by_cases green : result.failureCount = 0
            · simpa [line?, RunResult.wasSuccessful, green] using Shows.succeeded green ih
            · simpa [line?, RunResult.wasSuccessful, green] using Shows.failed green ih
        | testStarted _ => exact .testStarted ih
        | testFinished _ => exact .testFinished ih
        | testIgnored _ => exact .testIgnored ih
        | testFailure _ => exact .testFailure ih

theorem shows_lines (events : List Event) : Shows (events.map Event.notice) (lines events) :=
  shows_iff.mpr (lines_eq_filterMap events)

end Report

theorem Notice.exists_line_of_shownMethod {notice : Notice} {method : String}
    (named : notice.shownMethod? = some method) : ∃ line, Report.line? notice = some line := by
  cases notice with
  | testIgnored description => exact ⟨_, rfl⟩
  | testFailure failure => exact ⟨_, rfl⟩
  | runStarted _ => cases named
  | runFinished _ => cases named
  | testStarted _ => cases named
  | testFinished _ => cases named

theorem ClassName.not_holdsLineFeed (name : ClassName) : ¬HoldsLineFeed name.text := by
  intro feed
  have sound := name.sound
  rw [classNameFault?] at sound
  have blank : name.text.toList.any Text.isBlank = true :=
    List.any_eq_true.mpr ⟨'\n', feed, by decide⟩
  by_cases empty : name.text.toList.isEmpty = true
  · simp [empty] at sound
  · simp [empty, blank] at sound

theorem holdsLineFeed_ofMethod_iff (name : ClassName) (method : String) :
    HoldsLineFeed (Description.ofMethod name method).displayName ↔ HoldsLineFeed method := by
  have clear := name.not_holdsLineFeed
  rw [HoldsLineFeed] at clear ⊢
  simp [Description.displayName, HoldsLineFeed, clear]

namespace Runner

variable {runner : Runner} {notice : Notice}

theorem not_holdsLineFeed_noTestsMessage (name : ClassName) :
    ¬HoldsLineFeed (noTestsMessage name) := by
  have front : '\n' ∉ "No tests found in class [".toList := by decide
  have back : '\n' ∉ "]".toList := by decide
  unfold HoldsLineFeed noTestsMessage
  rw [String.toList_append, String.toList_append, List.mem_append, List.mem_append, not_or, not_or]
  exact ⟨⟨front, name.not_holdsLineFeed⟩, back⟩

theorem planned_cases (listed : notice ∈ runner.planned) :
    notice = .testIgnored (.ofClass runner.className) ∨
    (∃ cause, notice = .testFailure ⟨.ofClass runner.className, cause⟩) ∨
    (∃ cause, notice = .testFailure ⟨.suite (noTestsMessage runner.className), cause⟩) ∨
    ∃ set outcome, runner.delegate.result = .ok set ∧ outcome ∈ set.outcomes ∧
      notice ∈ methodNotices runner.className outcome := by
  have report : runner.Report runner.planned := report_iff.mpr rfl
  generalize runner.planned = notices at listed report
  cases report with
  | misplaced _ =>
      obtain rfl := List.mem_singleton.mp listed
      exact .inr (.inl ⟨_, rfl⟩)
  | skipped _ _ => exact .inl (List.mem_singleton.mp listed)
  | failed _ _ =>
      obtain rfl := List.mem_singleton.mp listed
      exact .inr (.inl ⟨_, rfl⟩)
  | empty _ _ _ =>
      obtain rfl := List.mem_singleton.mp listed
      exact .inr (.inr (.inl ⟨_, rfl⟩))
  | replayed _ decoded _ each =>
      rw [forall₂_reportsMethod_iff.mp each, ← List.flatMap_def, List.mem_flatMap] at listed
      obtain ⟨outcome, member, told⟩ := listed
      exact .inr (.inr (.inr ⟨_, outcome, decoded, member, told⟩))

theorem shownMethod_of_planned (listed : notice ∈ runner.planned) {method : String}
    (shown : notice.shownMethod? = some method) :
    ∃ set outcome, runner.delegate.result = .ok set ∧ outcome ∈ set.outcomes ∧
      outcome.method = method ∧ outcome.kind ≠ .passed := by
  rcases planned_cases listed with rfl | ⟨cause, rfl⟩ | ⟨cause, rfl⟩ | decoded
  · cases shown
  · cases shown
  · cases shown
  · obtain ⟨set, ⟨name, outcome⟩, decoded, member, told⟩ := decoded
    refine ⟨set, _, decoded, member, ?_⟩
    cases outcome with
    | passed =>
        rcases List.mem_pair.mp told with rfl | rfl
        · cases shown
        · cases shown
    | ignored =>
        obtain rfl := List.mem_singleton.mp told
        exact ⟨Option.some.inj shown, nofun⟩
    | failed cause =>
        obtain rfl := List.mem_singleton.mp told
        exact ⟨Option.some.inj shown, nofun⟩

theorem holdsLineFeed_of_planned (listed : notice ∈ runner.planned) {line : String}
    (shown : Report.line? notice = some line) :
    HoldsLineFeed line ↔ ∃ method, notice.shownMethod? = some method ∧ HoldsLineFeed method := by
  rcases planned_cases listed with rfl | ⟨cause, rfl⟩ | ⟨cause, rfl⟩ | decoded
  · obtain rfl := Option.some.inj shown
    exact iff_of_false runner.className.not_holdsLineFeed nofun
  · obtain rfl := Option.some.inj shown
    exact iff_of_false runner.className.not_holdsLineFeed nofun
  · obtain rfl := Option.some.inj shown
    exact iff_of_false (not_holdsLineFeed_noTestsMessage runner.className) nofun
  · obtain ⟨set, ⟨name, outcome⟩, decoded, member, told⟩ := decoded
    have named := holdsLineFeed_ofMethod_iff runner.className name
    cases outcome with
    | passed =>
        rcases List.mem_pair.mp told with rfl | rfl
        · cases shown
        · cases shown
    | ignored =>
        obtain rfl := List.mem_singleton.mp told
        obtain rfl := Option.some.inj shown
        rw [named]
        simp [Notice.shownMethod?, Description.method?]
    | failed cause =>
        obtain rfl := List.mem_singleton.mp told
        obtain rfl := Option.some.inj shown
        rw [named]
        simp [Notice.shownMethod?, Description.method?]

theorem not_holdsLineFeed_finished {result : RunResult} {line : String}
    (shown : Report.line? (.runFinished result) = some line) : ¬HoldsLineFeed line := by
  obtain rfl := Option.some.inj shown
  cases result.wasSuccessful with
  | true => decide
  | false => decide

theorem exists_events (runner : Runner) (notifier : Notifier) :
    ∃ events, ((runner.execute notifier).notifier.listeners =
        notifier.listeners.map fun listener => listener.receiveAll events) ∧
      ∀ event ∈ events, event.notice = .runStarted runner.description ∨
        event.notice ∈ runner.planned ∨ ∃ result, event.notice = .runFinished result := by
  obtain ⟨opening, tests, starts, complete | stopped⟩ := runner.exists_delivered notifier
  · obtain ⟨closing, result, told, ends, _, _, delivered⟩ := complete
    refine ⟨_, delivered, ?_⟩
    intro event listed
    rcases List.mem_append.mp listed with before | last
    · rcases List.mem_cons.mp before with rfl | test
      · exact .inl starts
      · rw [← told]
        exact .inr (.inl (List.mem_map_of_mem test))
    · obtain rfl := List.mem_singleton.mp last
      exact .inr (.inr ⟨result, ends⟩)
  · obtain ⟨stop, rest, split, _, delivered⟩ := stopped
    refine ⟨_, delivered, List.forall_mem_cons.mpr ⟨.inl starts, ?_⟩⟩
    intro event listed
    rw [split]
    exact .inr (.inl (List.mem_append_left rest (List.mem_map_of_mem listed)))

/--
A listener for people that hears a run shows its notices in their order, one line each, unless the
name of a method that was decoded as ignored or failed holds a line feed.
-/
theorem execute_prints (runner : Runner) (notifier : Notifier) :
    ∃ events shown,
      ((runner.execute notifier).notifier.listeners =
        notifier.listeners.map fun listener => listener.receiveAll events) ∧
      Report.Shows (events.map Event.notice) shown ∧
      cutLines (Report.linesText events) = shown.flatMap cutLines ++ [""] ∧
      (cutLines (Report.linesText events) = shown ++ [""] ↔
        ∀ event ∈ events, ∀ method, event.notice.shownMethod? = some method →
          ¬HoldsLineFeed method) ∧
      ∀ event ∈ events, ∀ method, event.notice.shownMethod? = some method →
        ∃ set outcome, runner.delegate.result = .ok set ∧ outcome ∈ set.outcomes ∧
          outcome.method = method ∧ outcome.kind ≠ .passed := by
  obtain ⟨events, delivered, sources⟩ := runner.exists_events notifier
  have feeds : ∀ event ∈ events, ∀ line, Report.line? event.notice = some line →
      (HoldsLineFeed line ↔
        ∃ method, event.notice.shownMethod? = some method ∧ HoldsLineFeed method) := by
    intro event listed line shown
    rcases sources event listed with starts | planned | ⟨result, ends⟩
    · rw [starts] at shown ⊢
      obtain rfl := Option.some.inj shown
      exact iff_of_false runner.className.not_holdsLineFeed nofun
    · exact holdsLineFeed_of_planned planned shown
    · rw [ends] at shown ⊢
      exact iff_of_false (not_holdsLineFeed_finished shown) nofun
  refine ⟨events, Report.lines events, delivered, Report.shows_lines events,
    Text.cutLines_joinEnded _, (Text.cutLines_joinEnded_eq_iff _).trans ?_, ?_⟩
  · constructor
    · intro clear event listed method named feed
      obtain ⟨line, shown⟩ := Notice.exists_line_of_shownMethod named
      have member : line ∈ Report.lines events := List.mem_filterMap.mpr ⟨event, listed, shown⟩
      exact clear line member ((feeds event listed line shown).mpr ⟨method, named, feed⟩)
    · intro clear line member feed
      obtain ⟨event, listed, shown⟩ := List.mem_filterMap.mp member
      obtain ⟨method, named, held⟩ := (feeds event listed line shown).mp feed
      exact clear event listed method named held
  · intro event listed method named
    rcases sources event listed with starts | planned | ⟨result, ends⟩
    · rw [starts] at named
      cases named
    · exact shownMethod_of_planned planned named
    · rw [ends] at named
      cases named

def twoLineSet : OutcomeSet := ⟨[⟨"a(it.Jobs)\nb", .ignored⟩], by decide⟩

def twoLineRunner : Runner :=
  { mixedRunner with transport := fun _ => .ok ⟨200, twoLineSet.render none⟩ }

theorem planned_twoLineRunner :
    twoLineRunner.planned = [.testIgnored (.ofMethod jobsClass "a(it.Jobs)\nb")] := by
  have url : twoLineRunner.request =
      .ok ⟨"http://host/rest/atlassiantestrunner/1.0/runtest/it.Jobs", .ofSeconds 1800⟩ := by
    decide
  have ready : twoLineRunner.Ready := by decide
  have regrouped : twoLineSet.regrouped = twoLineSet := by decide
  have decoded := delegate_of_answer ready.1 url rfl rfl (by decide : _ ≤ levelLimit)
  rw [regrouped] at decoded
  exact (report_iff.mp (.replayed ready decoded (by decide) (.cons .ignored .nil))).symm

/-- One ignored test is shown as two, the second of which nobody was told of. -/
theorem execute_prints_twoLineRunner :
    ∃ events, ((twoLineRunner.execute watched).notifier.listeners =
        watched.listeners.map fun listener => listener.receiveAll events) ∧
      Report.Shows (events.map Event.notice)
        ["it.Jobs", "a(it.Jobs)\nb(it.Jobs)", "finished with success:true"] ∧
      cutLines (Report.linesText events) =
        ["it.Jobs", "a(it.Jobs)", "b(it.Jobs)", "finished with success:true", ""] ∧
      ∀ event ∈ events, Report.line? event.notice ≠ some "b(it.Jobs)" := by
  obtain ⟨opening, tests, starts, complete | stopped⟩ := twoLineRunner.exists_delivered watched
  · obtain ⟨closing, result, told, ends, accounts, _, delivered⟩ := complete
    rw [planned_twoLineRunner] at told
    have green : result.wasSuccessful = true := by
      rw [told] at accounts
      rw [RunResult.wasSuccessful, accounts.failureCount]
      decide
    have shown : Report.lines (opening :: tests ++ [closing]) =
        ["it.Jobs", "a(it.Jobs)\nb(it.Jobs)", "finished with success:true"] := by
      have notices : (opening :: tests ++ [closing]).map Event.notice =
          [.runStarted (.ofClass jobsClass), .testIgnored (.ofMethod jobsClass "a(it.Jobs)\nb"),
            .runFinished result] := by
        rw [List.map_append, List.map_cons, starts, told, List.map_singleton, ends]
        rfl
      rw [Report.lines_eq_filterMap, notices]
      simp [Report.line?, green, Description.displayName, jobsClass]
    refine ⟨_, delivered, ?_, ?_, ?_⟩
    · rw [← shown]
      exact Report.shows_lines _
    · rw [Report.linesText, shown]
      decide
    · intro event listed forged
      have member : "b(it.Jobs)" ∈ Report.lines (opening :: tests ++ [closing]) :=
        List.mem_filterMap.mpr ⟨event, listed, forged⟩
      rw [shown] at member
      exact absurd member (by decide)
  · obtain ⟨stop, _, _, failed, _⟩ := stopped
    exact absurd ⟨stop, failed⟩ (not_stopped_of_calm calm_watched twoLineRunner)

end Runner

end TestDelegation
