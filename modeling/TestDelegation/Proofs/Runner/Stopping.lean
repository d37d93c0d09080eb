import TestDelegation.Proofs.Runner.Reports

/-!
Runs that are stopped. Main statement: `run_stopped`, whoever asks for a stop and whenever, a run
fires its report up to the first notice that meets the request.
-/

namespace TestDelegation

/-- The start of a test is followed at once by its end. -/
def Paired (notices : List Notice) : Prop :=
  ∀ before description after, notices = before ++ .testStarted description :: after →
    ∃ rest, after = .testFinished description :: rest

theorem paired_of_no_start {notices : List Notice}
    (noStart : ∀ description, .testStarted description ∉ notices) : Paired notices := by
  intro before description after split
  refine absurd ?_ (noStart description)
  simp [split]

theorem paired_start_end (description : Description) :
    Paired [.testStarted description, .testFinished description] := by
  intro before other after split
  cases before with
  | nil =>
      obtain ⟨same, rfl⟩ := List.cons.inj split
      rw [Notice.testStarted.inj same]
      exact ⟨[], rfl⟩
  | cons head before =>
      have member : .testStarted other ∈ [Notice.testFinished description] := by
        rw [(List.cons.inj split).2]
        simp
      simp at member

theorem Paired.append {first second : List Notice} (firstPaired : Paired first)
    (secondPaired : Paired second) : Paired (first ++ second) := by
  intro before description after split
  rcases List.append_eq_append_iff.mp split with ⟨middle, _, same⟩ | ⟨middle, inFirst, same⟩
  · exact secondPaired middle description after same
  · cases middle with
    | nil => exact secondPaired [] description after same.symm
    | cons head middle =>
        obtain ⟨rfl, rfl⟩ := List.cons.inj same
        obtain ⟨rest, rfl⟩ := firstPaired before description middle inFirst
        exact ⟨rest ++ second, rfl⟩

theorem Notifier.Cuts.paired {notifier : Notifier} {checks : Nat} {fired notices : List Notice}
    (cuts : notifier.Cuts checks fired notices) (paired : Paired notices) : Paired fired := by
  rcases cuts.rest with rfl | ⟨notice, later, split, begins, _⟩
  · exact paired
  · intro before description after inFired
    have whole : notices = before ++ .testStarted description :: (after ++ notice :: later) := by
      rw [split, inFired, List.append_assoc, List.cons_append]
    obtain ⟨rest, follows⟩ := paired before description _ whole
    cases after with
    | nil =>
        obtain ⟨rfl, _⟩ := List.cons.inj follows
        cases begins
    | cons head after =>
        obtain ⟨rfl, _⟩ := List.cons.inj follows
        exact ⟨after, rfl⟩

theorem Notifier.Cuts.exists_rest {notifier : Notifier} {checks : Nat} {fired notices : List Notice}
    (cuts : notifier.Cuts checks fired notices) : ∃ rest, notices = fired ++ rest := by
  rcases cuts.rest with rfl | ⟨notice, later, split, _⟩
  · exact ⟨[], (List.append_nil fired).symm⟩
  · exact ⟨notice :: later, split⟩

namespace Runner

variable {runner : Runner} {notifier : Notifier} {notices : List Notice}

theorem ReportsMethod.paired {className : ClassName} {outcome : MethodOutcome}
    (reports : ReportsMethod className outcome notices) : Paired notices := by
  cases reports with
  | passed => exact paired_start_end _
  | ignored => exact paired_of_no_start (by simp)
  | failed => exact paired_of_no_start (by simp)

theorem paired_of_reportsMethod {className : ClassName} {outcomes : List MethodOutcome}
    {parts : List (List Notice)}
    (each : List.Forall₂ (ReportsMethod className) outcomes parts) : Paired parts.flatten := by
  induction each with
  | nil => exact paired_of_no_start (by simp)
  | cons first _ ih => exact first.paired.append ih

theorem Report.paired (report : runner.Report notices) : Paired notices := by
  cases report with
  | misplaced _ => exact paired_of_no_start (by simp [failureOf])
  | skipped _ _ => exact paired_of_no_start (by simp)
  | failed _ _ => exact paired_of_no_start (by simp [failureOf])
  | empty _ _ _ => exact paired_of_no_start (by simp)
  | replayed _ _ _ each => exact paired_of_reportsMethod each

/-- Notices about one test. -/
inductive TellsOf (description : Description) : Notice → Prop
  | started : TellsOf description (.testStarted description)
  | finished : TellsOf description (.testFinished description)
  | ignored : TellsOf description (.testIgnored description)
  | failed (cause : FailureCause) : TellsOf description (.testFailure ⟨description, cause⟩)

theorem tellsOf_of_reportsMethod {className : ClassName} {outcomes : List MethodOutcome}
    {parts : List (List Notice)} {notice : Notice}
    (each : List.Forall₂ (ReportsMethod className) outcomes parts)
    (member : notice ∈ parts.flatten) : ∃ method, TellsOf (.ofMethod className method) notice := by
  induction each with
  | nil => simp at member
  | cons first _ ih =>
      rcases List.mem_append.mp member with inFirst | later
      · cases first with
        | passed =>
            simp only [List.mem_cons, List.not_mem_nil, or_false] at inFirst
            rcases inFirst with rfl | rfl
            · exact ⟨_, .started⟩
            · exact ⟨_, .finished⟩
        | ignored =>
            obtain rfl := List.mem_singleton.mp inFirst
            exact ⟨_, .ignored⟩
        | failed =>
            obtain rfl := List.mem_singleton.mp inFirst
            exact ⟨_, .failed _⟩
      · exact ih later

theorem failureOf_ne_stopped {error : DelegationError} {stop : StoppedByUser}
    (className : ClassName)
    (counts : (∃ fault, error = .configuration fault) ∨ (∃ fault, error = .transport fault) ∨
      ∃ fault, error = .decode fault) :
    failureOf className error ≠
      .testFailure ⟨.ofClass className, (DelegationError.stopped stop).cause⟩ := by
  intro same
  have category : error.category = "stopped by user" := by
    have outer := congrArg (fun failure => failure.cause.outer.exceptionType)
      (Notice.testFailure.inj same)
    exact Option.some.inj outer
  rcases counts with ⟨_, rfl⟩ | ⟨_, rfl⟩ | ⟨_, rfl⟩
  · simp [DelegationError.category] at category
  · simp [DelegationError.category] at category
  · simp [DelegationError.category] at category

theorem Report.not_stopped (report : runner.Report notices) :
    (∀ stop, .testFailure ⟨runner.description, (DelegationError.stopped stop).cause⟩ ∉ notices) ∧
      (.testIgnored runner.description ∈ notices → ¬runner.Assumed) := by
  cases report with
  | misplaced _ =>
      constructor
      · intro stop member
        exact failureOf_ne_stopped runner.className (.inl ⟨_, rfl⟩)
          (List.mem_singleton.mp member).symm
      · simp [failureOf]
  | skipped _ violated => exact ⟨by simp, fun _ => violated⟩
  | failed ready failed =>
      rw [delegate_of_admits ready.1] at failed
      constructor
      · intro stop member
        exact failureOf_ne_stopped runner.className (fetch_error_cases failed)
          (List.mem_singleton.mp member).symm
      · simp [failureOf]
  | empty _ _ _ => exact ⟨by simp [description], by simp⟩
  | replayed _ _ _ each =>
      constructor
      · intro stop member
        obtain ⟨method, tells⟩ := tellsOf_of_reportsMethod each member
        cases tells
      · intro member
        obtain ⟨method, tells⟩ := tellsOf_of_reportsMethod each member
        cases tells

theorem run_of_stopRaised (raised : notifier.StopRaised 0 []) (runner : Runner) :
    (runner.run notifier).result = .error .stopped ∧
      (runner.run notifier).course.requests = [] ∧
      ∀ fired, notifier.Cuts runner.checks fired runner.planned → fired = [] := by
  obtain ⟨notice, rest, planned, begins⟩ := runner.exists_planned_eq_cons
  have nothing : ∀ fired, notifier.Cuts runner.checks fired runner.planned → fired = [] := by
    intro fired cuts
    cases fired with
    | nil => rfl
    | cons head fired =>
        obtain ⟨_, split⟩ := cuts.exists_rest
        rw [planned] at split
        obtain ⟨rfl, _⟩ := List.cons.inj split
        refine absurd ⟨begins, ?_⟩ (cuts.accepted [] notice fired rfl)
        exact raised.mono (Nat.zero_le _) (List.prefix_refl [])
  refine ⟨?_, ?_, nothing⟩
  · obtain ⟨fired, _, cuts, ⟨whole, _⟩ | ⟨_, failed, _⟩⟩ := runner.run_cuts notifier
    · rw [nothing fired cuts, planned] at whole
      cases whole
    · exact failed
  · rcases runner.run_requests notifier with ⟨none, _⟩ | ⟨_, _, _, _, _, clear, _⟩
    · exact none
    · rw [Notifier.stopRaised_now_iff, clear] at raised
      cases raised

/--
A run under any schedule of stop requests, beside the same run when nobody asks: it fires what that
one fires before the first notice that meets a request, and fails if there is such a notice.
-/
theorem run_stopped (runner : Runner) (notifier : Notifier) :
    ∃ planned fired,
      (∀ other, runner.Report other ↔ other = planned) ∧
      (runner.run notifier.undisturbed).result = .ok () ∧
      notifier.undisturbed.Fires planned (runner.run notifier.undisturbed).notifier ∧
      notifier.Fires fired (runner.run notifier).notifier ∧
      notifier.events fired <+: notifier.undisturbed.events planned ∧
      notifier.Cuts runner.checks fired planned ∧
      ((runner.run notifier).result = .error .stopped ↔
        (runner.Ready ∧ notifier.StopRaised 0 []) ∨ ∃ notice after,
          planned = fired ++ notice :: after ∧ notifier.Refuses runner.checks fired notice) ∧
      (∀ before description after, fired = before ++ .testStarted description :: after →
        ∃ rest, after = .testFinished description :: rest) ∧
      (∀ stop,
        .testFailure ⟨runner.description, (DelegationError.stopped stop).cause⟩ ∉ fired) ∧
      (.testIgnored runner.description ∈ fired → ¬runner.Assumed) ∧
      (notifier.stopRequested = true ∨ notifier.interrupts notifier.looks = true →
        (runner.run notifier).result = .error .stopped ∧ fired = [] ∧
          (runner.run notifier).course.requests = []) := by
  have report : runner.Report runner.planned := report_iff.mpr rfl
  obtain ⟨whole, calmFires, calmCuts, calmOutcome⟩ := runner.run_cuts notifier.undisturbed
  obtain rfl := calmCuts.eq_of_calm notifier.calm_undisturbed
  obtain ⟨fired, fires, cuts, outcome⟩ := runner.run_cuts notifier
  obtain ⟨rest, split⟩ := cuts.exists_rest
  have within : ∀ notice ∈ fired, notice ∈ runner.planned := by
    intro notice member
    rw [split]
    exact List.mem_append_left rest member
  refine ⟨runner.planned, fired, fun other => report_iff, ?_, calmFires, fires, ?_, cuts, ?_,
    cuts.paired report.paired, ?_, ?_, ?_⟩
  · rcases calmOutcome with ⟨_, result⟩ | ⟨different, _⟩
    · exact result
    · exact absurd rfl different
  · have same : notifier.undisturbed.events = notifier.events :=
      funext (Notifier.events_congr rfl rfl rfl)
    rw [same, split, fires.events_append]
    exact List.prefix_append _ _
  · constructor
    · intro failed
      rcases outcome with ⟨_, result⟩ | ⟨different, _⟩
      · rw [result] at failed
        cases failed
      · exact .inr (cuts.rest.resolve_left different)
    · rintro (⟨_, raised⟩ | ⟨notice, after, split, _⟩)
      · exact (run_of_stopRaised raised runner).1
      · rcases outcome with ⟨same, _⟩ | ⟨_, result, _⟩
        · rw [same] at split
          simp at split
        · exact result
  · exact fun stop member => report.not_stopped.1 stop (within _ member)
  · exact fun member => report.not_stopped.2 (within _ member)
  · intro asked
    have raised : notifier.StopRaised 0 [] := by
      rcases asked with before | outside
      · exact .inl before
      · exact .inr (.inl ⟨0, Nat.le_refl 0, outside⟩)
    obtain ⟨result, requests, nothing⟩ := run_of_stopRaised raised runner
    exact ⟨result, nothing fired cuts, requests⟩

end Runner

end TestDelegation
