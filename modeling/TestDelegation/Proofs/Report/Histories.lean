import TestDelegation.Proofs.Report.Elements
import TestDelegation.Proofs.Report.Writing

/-!
What a reporter makes of any history of events. Main definitions: `Pending`, the start of a test
that is under way, and `Tells`, the cases of the events since the last report. Main statement:
`JunitReporter.report_of_history`, what the next report holds and how the reporter finishes.
-/

namespace TestDelegation

/-- Some item is hit, and all later ones are passed over. -/
def Latest {α : Type} (hit passed : α → Prop) (items : List α) : Prop :=
  ∃ before item after, items = before ++ item :: after ∧ hit item ∧ ∀ later ∈ after, passed later

section Latest

variable {α : Type} {hit passed : α → Prop} {items : List α} {last : α}

theorem not_latest_nil : ¬Latest hit passed [] := by
  rintro ⟨before, item, after, split, _⟩
  simp at split

theorem latest_append_singleton : Latest hit passed (items ++ [last]) ↔
    hit last ∨ (passed last ∧ Latest hit passed items) := by
  constructor
  · rintro ⟨before, item, after, split, here, later⟩
    rcases List.eq_nil_or_concat after with rfl | ⟨between, final, rfl⟩
    · obtain ⟨_, same⟩ := List.append_inj' split rfl
      obtain rfl := List.singleton_inj.mp same
      exact .inl here
    · have split : items ++ [last] = (before ++ item :: between) ++ [final] := by
        simpa using split
      obtain ⟨earlier, same⟩ := List.append_inj' split rfl
      obtain rfl := List.singleton_inj.mp same
      rw [List.concat_eq_append, List.forall_mem_append, List.forall_mem_singleton] at later
      exact .inr ⟨later.2, before, item, between, earlier, here, later.1⟩
  · rintro (here | ⟨skipped, before, item, after, rfl, here, later⟩)
    · exact ⟨items, last, [], rfl, here, nofun⟩
    · refine ⟨before, item, after ++ [last], by simp, here, ?_⟩
      exact List.forall_mem_append.mpr ⟨later, List.forall_mem_singleton.mpr skipped⟩

end Latest

def Notice.starts? : Notice → Option String
  | .testStarted description => some description.displayName
  | .runStarted _ => none
  | .runFinished _ => none
  | .testFinished _ => none
  | .testIgnored _ => none
  | .testFailure _ => none

def Notice.ends? : Notice → Option String
  | .testFinished description => some description.displayName
  | .testFailure failure => some failure.description.displayName
  | .runStarted _ => none
  | .runFinished _ => none
  | .testStarted _ => none
  | .testIgnored _ => none

/-- Of the events that start or end a test of this name, the latest is its start. -/
def Pending (name : String) (start : Duration) : List Event → Prop :=
  Latest (fun event => event.notice.starts? = some name ∧ event.elapsed = start)
    fun event => event.notice.starts? ≠ some name ∧ event.notice.ends? ≠ some name

/-- What a test took that ends now: the time since its start, if that is known. -/
inductive TimeOf (events : List Event) (name : String) (now : Duration) : Option Duration → Prop
  | measured {start time : Duration} : Pending name start events →
      time.nanoseconds = now.nanoseconds - start.nanoseconds → TimeOf events name now (some time)
  | unknown : (∀ start, ¬Pending name start events) → TimeOf events name now none

inductive CaseOf (events : List Event) (event : Event) : TestCase → Prop
  | success {description : Description} {time : Option Duration} :
      event.notice = .testFinished description →
      TimeOf events description.displayName event.elapsed time →
      CaseOf events event
        { name := description.method?.getD description.displayName
          className := (description.className?.map ClassName.text).getD description.displayName
          status := .success
          time := time }
  | skipped {description : Description} : event.notice = .testIgnored description →
      CaseOf events event
        { name := description.method?.getD description.displayName
          className := (description.className?.map ClassName.text).getD description.displayName
          status := .skipped
          time := none }
  | failure {description : Description} {cause : FailureCause} {time : Option Duration} :
      event.notice = .testFailure ⟨description, cause⟩ →
      TimeOf events description.displayName event.elapsed time →
      CaseOf events event
        { name := description.method?.getD description.displayName
          className := (description.className?.map ClassName.text).getD description.displayName
          status := .failure cause
          time := time }

/-- The cases of events that are told after earlier ones: one for each that ends or skips a test. -/
inductive Tells (earlier : List Event) : List Event → List TestCase → Prop
  | nothing : Tells earlier [] []
  | case {recent : List Event} {cases : List TestCase} {event : Event} {testCase : TestCase} :
      Tells earlier recent cases → CaseOf (earlier ++ recent) event testCase →
      Tells earlier (recent ++ [event]) (cases ++ [testCase])
  | caseless {recent : List Event} {cases : List TestCase} {event : Event} :
      Tells earlier recent cases → event.notice.case? = none →
      Tells earlier (recent ++ [event]) cases

/-- The recent events are those since a run was last finished. -/
structure SinceReport (events earlier recent : List Event) : Prop where
  whole : events = earlier ++ recent
  closed : earlier = [] ∨ ∃ before closing result,
    earlier = before ++ [closing] ∧ closing.notice = .runFinished result
  unfinished : ∀ event ∈ recent, ∀ result, event.notice ≠ .runFinished result

section Histories

variable {events : List Event} {event : Event} {name : String} {start : Duration}

theorem pending_append_singleton : Pending name start (events ++ [event]) ↔
    (event.notice.starts? = some name ∧ event.elapsed = start) ∨
    ((event.notice.starts? ≠ some name ∧ event.notice.ends? ≠ some name) ∧
      Pending name start events) :=
  latest_append_singleton

theorem SinceReport.append {earlier recent : List Event} (since : SinceReport events earlier recent)
    (unfinished : ∀ result, event.notice ≠ .runFinished result) :
    SinceReport (events ++ [event]) earlier (recent ++ [event]) where
  whole := by rw [since.whole, List.append_assoc]
  closed := since.closed
  unfinished := by
    refine List.forall_mem_append.mpr ⟨since.unfinished, ?_⟩
    exact List.forall_mem_singleton.mpr unfinished

theorem SinceReport.of_finished {result : RunResult}
    (finished : event.notice = .runFinished result) :
    SinceReport (events ++ [event]) (events ++ [event]) [] where
  whole := (List.append_nil _).symm
  closed := .inr ⟨events, event, result, rfl, finished⟩
  unfinished := nofun

end Histories

namespace JunitReporter

variable {reporter : JunitReporter} {events : List Event} {event : Event}

def HoldRecent (suites : List TestSuite) (events : List Event) : Prop :=
  ∃ earlier recent cases, SinceReport events earlier recent ∧ Tells earlier recent cases ∧
    suites = suitesOf cases

/-- The starts that may still be used, and the cases since the last report. -/
structure Remembers (reporter : JunitReporter) (events : List Event) : Prop where
  started : ∀ name start, reporter.started.lookup name = some start ↔ Pending name start events
  suites : HoldRecent reporter.suites events

theorem HoldRecent.addCase {suites : List TestSuite} {testCase : TestCase}
    (holds : HoldRecent suites events) (unfinished : ∀ result, event.notice ≠ .runFinished result)
    (told : CaseOf events event testCase) :
    HoldRecent (addCase testCase suites) (events ++ [event]) := by
  obtain ⟨earlier, recent, cases, since, tells, rfl⟩ := holds
  rw [since.whole] at told
  exact ⟨earlier, recent ++ [event], cases ++ [testCase], since.append unfinished,
    tells.case told, addCase_suitesOf testCase cases⟩

theorem HoldRecent.caseless {suites : List TestSuite} (holds : HoldRecent suites events)
    (unfinished : ∀ result, event.notice ≠ .runFinished result)
    (caseless : event.notice.case? = none) : HoldRecent suites (events ++ [event]) := by
  obtain ⟨earlier, recent, cases, since, tells, same⟩ := holds
  exact ⟨earlier, recent ++ [event], cases, since.append unfinished, tells.caseless caseless, same⟩

theorem holdRecent_of_finished {result : RunResult}
    (finished : event.notice = .runFinished result) : HoldRecent [] (events ++ [event]) :=
  ⟨events ++ [event], [], [], .of_finished finished, .nothing, rfl⟩

theorem suiteName_eq (description : Description) : suiteName description =
    (description.className?.map ClassName.text).getD description.displayName := by
  cases description with
  | suite _ => rfl
  | ofClass _ => rfl
  | ofMethod _ _ => rfl

theorem testCase_eq (description : Description) (status : CaseStatus) (time : Option Duration) :
    testCase description status time =
      { name := description.method?.getD description.displayName
        className := (description.className?.map ClassName.text).getD description.displayName
        status := status
        time := time } := by
  rw [testCase, suiteName_eq]

theorem Remembers.timeOf (remembers : reporter.Remembers events) (description : Description)
    (now : Duration) : TimeOf events description.displayName now
      (reporter.takeTime description now).2 := by
  rw [takeTime]
  cases found : reporter.started.lookup description.displayName with
  | none =>
      refine .unknown fun start pending => ?_
      rw [(remembers.started _ start).mpr pending] at found
      cases found
  | some start => exact .measured ((remembers.started _ start).mp found) rfl

theorem Remembers.started_collect (remembers : reporter.Remembers events) (event : Event)
    (name : String) (start : Duration) :
    (reporter.collect event).started.lookup name = some start ↔
      Pending name start (events ++ [event]) := by
  have before := remembers.started name start
  have used : ∀ (ended : String), event.notice.starts? = none → event.notice.ends? = some ended →
      ((reporter.started.filter fun entry => entry.1 != ended).lookup name = some start ↔
        Pending name start (events ++ [event])) := by
    intro ended notStarted ends
    rw [pending_append_singleton, notStarted, ends]
    by_cases own : name = ended
    · rw [own, lookup_filter_self]
      simp
    · rw [lookup_filter_ne own, before]
      simp [Ne.symm own]
  have kept : event.notice.starts? = none → event.notice.ends? = none →
      (reporter.started.lookup name = some start ↔ Pending name start (events ++ [event])) := by
    intro notStarted notEnded
    rw [pending_append_singleton, notStarted, notEnded, before]
    simp
  unfold collect
  cases told : event.notice with
  | runStarted description => exact kept (by rw [told]; rfl) (by rw [told]; rfl)
  | runFinished result => exact kept (by rw [told]; rfl) (by rw [told]; rfl)
  | testIgnored description => exact kept (by rw [told]; rfl) (by rw [told]; rfl)
  | testFinished description => exact used _ (by rw [told]; rfl) (by rw [told]; rfl)
  | testFailure failure => exact used _ (by rw [told]; rfl) (by rw [told]; rfl)
  | testStarted description =>
      rw [pending_append_singleton, told]
      by_cases own : name = description.displayName
      · rw [own]
        simp [Notice.starts?]
      · rw [List.lookup_cons, beq_false_of_ne own, before]
        simp [Notice.starts?, Notice.ends?, Ne.symm own]

theorem Remembers.suites_collect (remembers : reporter.Remembers events) (event : Event) :
    HoldRecent (reporter.collect event).suites (events ++ [event]) := by
  unfold collect
  cases notice : event.notice with
  | runStarted description =>
      exact remembers.suites.caseless (by simp [notice]) (by rw [notice]; rfl)
  | runFinished result => exact holdRecent_of_finished notice
  | testStarted description =>
      exact remembers.suites.caseless (by simp [notice]) (by rw [notice]; rfl)
  | testFinished description =>
      have told := CaseOf.success notice (remembers.timeOf description event.elapsed)
      rw [← testCase_eq] at told
      exact remembers.suites.addCase (by simp [notice]) told
  | testIgnored description =>
      have told : CaseOf events event _ := .skipped notice
      rw [← testCase_eq] at told
      exact remembers.suites.addCase (by simp [notice]) told
  | testFailure failure =>
      have told := CaseOf.failure notice (remembers.timeOf failure.description event.elapsed)
      rw [← testCase_eq] at told
      exact remembers.suites.addCase (by simp [notice]) told

theorem Remembers.collect (remembers : reporter.Remembers events) (event : Event) :
    (reporter.collect event).Remembers (events ++ [event]) :=
  ⟨remembers.started_collect event, remembers.suites_collect event⟩

theorem remembers_nil (path reportName : String) :
    ({ path, reportName } : JunitReporter).Remembers [] where
  started _ _ := iff_of_false nofun not_latest_nil
  suites := ⟨[], [], [], ⟨rfl, .inl rfl, nofun⟩, .nothing, rfl⟩

theorem receive_eq_collect (reporter : JunitReporter) (tree : FileTree) (event : Event) :
    ∃ fault, (reporter.receive tree event).1 = { reporter.collect event with fault } := by
  unfold receive
  split
  · exact ⟨_, rfl⟩
  · rename_i report _
    obtain ⟨saved, _ | _⟩ := saveReport tree reporter.path report.render
    · exact ⟨_, rfl⟩
    · exact ⟨_, rfl⟩

theorem collect_reportName (reporter : JunitReporter) (event : Event) :
    (reporter.collect event).reportName = reporter.reportName := by
  unfold JunitReporter.collect
  split <;> rfl

theorem remembers_receiveAll (path reportName : String) (tree : FileTree) (events : List Event) :
    let after := (({ path, reportName } : JunitReporter).receiveAll tree events).1
    after.Remembers events ∧ after.path = path ∧ after.reportName = reportName := by
  induction events using List.reverseRecOn with
  | nil => exact ⟨remembers_nil path reportName, rfl, rfl⟩
  | append_singleton events event ih =>
      dsimp only at ih ⊢
      rw [receiveAll_append_singleton]
      generalize ({ path, reportName } : JunitReporter).receiveAll tree events = before at ih ⊢
      obtain ⟨remembers, own, named⟩ := ih
      obtain ⟨fault, received⟩ := before.1.receive_eq_collect before.2 event
      rw [received]
      obtain ⟨started, suites⟩ := remembers.collect event
      exact ⟨⟨started, suites⟩, (before.1.collect_keeps event).1.trans own,
        (before.1.collect_reportName event).trans named⟩

/-- How each report was written, in their order. -/
def writes (reporter : JunitReporter) (tree : FileTree) :
    List Event → List (Except ReportError Unit)
  | [] => []
  | event :: rest =>
    let (next, after) := reporter.receive tree event
    match reporter.report? event with
    | none => next.writes after rest
    | some report => (saveReport tree reporter.path report.render).2 :: next.writes after rest

def faultAfter (fault : Option ReportError) : Except ReportError Unit → Option ReportError
  | .ok () => fault
  | .error error => some error

theorem fault_written (reporter : JunitReporter) (outcome : Except ReportError Unit) :
    (reporter.written outcome).fault = faultAfter reporter.fault outcome := by
  cases outcome with
  | ok _ => rfl
  | error _ => rfl

theorem fault_receiveAll (reporter : JunitReporter) (tree : FileTree) (events : List Event) :
    (reporter.receiveAll tree events).1.fault =
      (reporter.writes tree events).foldl faultAfter reporter.fault := by
  induction events generalizing reporter tree with
  | nil => rfl
  | cons event rest ih =>
      rw [receiveAll_cons, ih, writes]
      cases reported : reporter.report? event with
      | none =>
          have same : (reporter.receive tree event).1.fault = reporter.fault := by
            rw [receive, reported]
            exact (reporter.collect_keeps event).2
          rw [same]
      | some report =>
          have same : (reporter.receive tree event).1.fault =
              faultAfter reporter.fault (saveReport tree reporter.path report.render).2 := by
            rw [receive, reported]
            dsimp only
            rw [fault_written, (reporter.collect_keeps event).2]
          rw [same]
          rfl

theorem finish_eq_ok_iff : reporter.finish = .ok () ↔ reporter.fault = none := by
  rw [finish]
  cases reporter.fault with
  | none => simp
  | some _ => simp

theorem finish_eq_error_iff {error : ReportError} :
    reporter.finish = .error error ↔ reporter.fault = some error := by
  rw [finish]
  cases reporter.fault with
  | none => simp
  | some _ => simp

variable {outcomes : List (Except ReportError Unit)} {error : ReportError}

theorem foldl_faultAfter_eq_none_iff :
    outcomes.foldl faultAfter none = none ↔ ∀ outcome ∈ outcomes, outcome = .ok () := by
  induction outcomes using List.reverseRecOn with
  | nil => simp
  | append_singleton earlier last ih =>
      rw [List.foldl_append, List.forall_mem_append, ← ih]
      cases last with
      | ok _ => simp [faultAfter]
      | error _ => simp [faultAfter]

theorem foldl_faultAfter_eq_some_iff : outcomes.foldl faultAfter none = some error ↔
    Latest (· = .error error) (· = .ok ()) outcomes := by
  induction outcomes using List.reverseRecOn with
  | nil => exact iff_of_false nofun not_latest_nil
  | append_singleton earlier last ih =>
      rw [List.foldl_append, latest_append_singleton, ← ih]
      cases last with
      | ok _ => simp [faultAfter]
      | error _ => simp [faultAfter]

/--
A report has one case for each event since the last report that ends or skips a test, whether that
report could be written or not. At the end the last fault of writing is told, if there was one.
-/
theorem report_of_history (path reportName : String) (tree : FileTree) (events : List Event) :
    let reporter : JunitReporter := { path, reportName }
    let told := reporter.receiveAll tree events
    (∀ closing result, closing.notice = .runFinished result →
      ∃ earlier recent cases report,
        SinceReport events earlier recent ∧ Tells earlier recent cases ∧
        told.1.report? closing = some report ∧ report.name = reportName ∧
        report.timestamp = result.startTime ∧ report.time = result.runTime ∧
        Groups cases report.suites ∧ report.tests = cases.length ∧
        report.failures = cases.countP TestCase.failed ∧ report.ShownBy report.element ∧
        ((told.2.Saves path ∧
            (reporter.receiveAll tree (events ++ [closing])).2.Stands path
              report.element.document) ∨
          (¬told.2.Saves path ∧ ∃ error,
            (reporter.receiveAll tree (events ++ [closing])).1.finish = .error error))) ∧
    (told.1.finish = .ok () ↔ ∀ outcome ∈ reporter.writes tree events, outcome = .ok ()) ∧
    ∀ error, told.1.finish = .error error ↔
      Latest (· = .error error) (· = .ok ()) (reporter.writes tree events) := by
  intro reporter told
  obtain ⟨remembers, own, named⟩ := remembers_receiveAll path reportName tree events
  refine ⟨?_, ?_, ?_⟩
  · intro closing result finished
    obtain ⟨earlier, recent, cases, since, tells, suites⟩ := remembers.suites
    have groups : Groups cases (told.1.report result).suites := by
      change Groups cases told.1.suites
      rw [suites]
      exact groups_suitesOf cases
    have reported : told.1.report? closing = some (told.1.report result) := by
      rw [report?, finished]
    refine ⟨earlier, recent, cases, told.1.report result, since, tells, reported, named, rfl, rfl,
      groups, JunitReport.tests_of_suitesOf suites, JunitReport.failures_of_suitesOf suites,
      JunitReport.element_shows _, ?_⟩
    rw [receiveAll_append_singleton, told.1.receive_of_finished told.2 finished, own]
    rcases saveReport_cases told.2 path (told.1.report result).render with
      ⟨saves, after, saved, stands⟩ | ⟨blocked, after, error, refused⟩
    · rw [saved]
      exact .inl ⟨saves, stands⟩
    · rw [refused]
      exact .inr ⟨blocked, error, rfl⟩
  · rw [finish_eq_ok_iff, reporter.fault_receiveAll]
    exact foldl_faultAfter_eq_none_iff
  · intro error
    rw [finish_eq_error_iff, reporter.fault_receiveAll]
    exact foldl_faultAfter_eq_some_iff

end JunitReporter

end TestDelegation
