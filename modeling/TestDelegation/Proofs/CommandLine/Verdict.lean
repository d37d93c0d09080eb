import TestDelegation.CommandLine.Program
import TestDelegation.Proofs.CommandLine.Preparation
import TestDelegation.Proofs.Layers
import TestDelegation.Proofs.Runner.Telling

/-!
What the exit code of the command says of its run. Main statement: `run_exit_code`. The causes are
told in a fixed order: set up, stopped, report not written, test failed.
-/

namespace TestDelegation

def RunCommand.LosesReport (command : RunCommand) (tree : FileTree) : Prop :=
  ∃ path, command.junit = some path ∧ ¬tree.Saves path

namespace Job

variable (job : Job) (transport : Transport) (clock : Clock) (interrupts : Nat → Bool)

theorem told_perform :
    (job.runner transport).Told (job.perform transport clock interrupts).result
      (events (job.perform transport clock interrupts)) := by
  obtain ⟨told, tells, heard⟩ :=
    (job.runner transport).exists_told (notifier clock interrupts)
  have listener : (notifier clock interrupts).listeners = [{}] := rfl
  rw [listener, List.map_singleton] at heard
  have received : events (job.perform transport clock interrupts) = told := by
    rw [events, perform, heard]
    rfl
  rwa [received]

theorem not_stopped_of_uninterrupted (quiet : ∀ look, interrupts look = false) :
    ¬(job.perform transport clock interrupts).Stopped := by
  refine Runner.not_stopped_of_calm ?_ (job.runner transport)
  intro looks events
  simp [Notifier.StopRaised, notifier, Notifier.new, Notifier.addListener, quiet]

theorem writeReports?_eq (tree : FileTree) (events : List Event) :
    job.writeReports? tree events =
      match job.command.junit with
      | none => (none, tree)
      | some path =>
        let after := ({ path } : JunitReporter).receiveAll tree events
        (some ⟨after.1.path, after.1.finish⟩, after.2) := by
  rw [writeReports?, reporter?]
  cases job.command.junit with
  | none => rfl
  | some path => rfl

/-- The report that is asked for stands under its path and has a case for each test. -/
def Keeps (job : Job) (tree : FileTree) (events : List Event) : Prop :=
  ∀ path, job.command.junit = some path → ∃ report : JunitReport,
    tree.Stands path report.render ∧ HoldCases report.suites (events.map Event.notice)

def Unspoiled (written : Option WrittenReport) : Prop :=
  ∀ report, written = some report → report.outcome = .ok ()

theorem writeReports?_cases {runner : Runner} {result : RunResult} {told : List Event}
    (tells : runner.Told (.ok result) told) (tree : FileTree) :
    let reported := job.writeReports? tree told
    (¬job.command.LosesReport tree ∧ Unspoiled reported.1 ∧ job.Keeps reported.2 told) ∨
    (job.command.LosesReport tree ∧
      ∃ path error, reported.1 = some ⟨path, .error error⟩) := by
  rw [writeReports?_eq]
  cases asked : job.command.junit with
  | none =>
      refine .inl ⟨?_, nofun, ?_⟩
      · rintro ⟨path, given, _⟩
        exact absurd (asked.symm.trans given) nofun
      · intro path given
        exact absurd (asked.symm.trans given) nofun
  | some path =>
      obtain ⟨own, ⟨saves, finish, written⟩ | ⟨blocked, error, finish⟩⟩ := tells.reported path tree
      · refine .inl ⟨?_, ?_, ?_⟩
        · rintro ⟨other, given, blocked⟩
          cases asked.symm.trans given
          exact blocked saves
        · rintro _ ⟨⟩
          exact finish
        · intro other given
          cases asked.symm.trans given
          exact written
      · refine .inr ⟨⟨path, asked, blocked⟩, path, error, ?_⟩
        dsimp only
        rw [own, finish]

theorem conclude_of_unspoiled (result : RunResult) {written : Option WrittenReport}
    (unspoiled : Unspoiled written) :
    (job.conclude (.ok result) written).code =
      if result.wasSuccessful then .ok else .testRunFailed := by
  have verdict : ∀ log : List LogEntry,
      (if result.wasSuccessful then (⟨.ok, log⟩ : Ending)
        else ⟨.testRunFailed, log ++ [RunCommand.errorEntry
          (job.failureText result.failureCount)]⟩).code =
        if result.wasSuccessful then .ok else .testRunFailed := by
    intro log
    split
    · rfl
    · rfl
  cases written with
  | none => exact verdict _
  | some report =>
      obtain ⟨path, outcome⟩ := report
      obtain rfl : outcome = .ok () := unspoiled _ rfl
      exact verdict _

/-- The causes of an exit code, each of which counts only if those before it do not hold. -/
theorem complete_cases (tree : FileTree) :
    let execution := job.perform transport clock interrupts
    let told := events execution
    let reported := job.writeReports? tree told
    let code := (job.complete execution reported.1).ending.code
    (execution.Stopped ∧ code = .stoppedByUser) ∨
    (¬execution.Stopped ∧ job.command.LosesReport tree ∧ code = .writeOutputError) ∨
    (¬execution.Stopped ∧ ¬job.command.LosesReport tree ∧
      (∃ event ∈ told, event.notice.IsFailure) ∧ code = .testRunFailed) ∨
    (¬execution.Stopped ∧ ¬job.command.LosesReport tree ∧
      (¬∃ event ∈ told, event.notice.IsFailure) ∧ (∃ event ∈ told, event.notice.IsSuccess) ∧
      job.Keeps reported.2 told ∧ code = .ok) := by
  intro execution told reported code
  have tells : (job.runner transport).Told execution.result told :=
    job.told_perform transport clock interrupts
  have concluded : code = (job.conclude execution.result reported.1).code := rfl
  -- An ending looks for a stop first, then at the report, and at the tests last.
  cases ended : execution.result with
  | error stop =>
      refine .inl ⟨⟨stop, ended⟩, ?_⟩
      rw [concluded, ended]
      rfl
  | ok result =>
      rw [ended] at tells
      have unstopped : ¬execution.Stopped := by
        rintro ⟨stop, stopped⟩
        exact absurd (ended.symm.trans stopped) nofun
      refine .inr ?_
      rcases job.writeReports?_cases tells tree with
        ⟨kept, unspoiled, keeps⟩ | ⟨lost, path, error, written⟩
      · obtain ⟨spared, passes⟩ := tells.green
        have code := job.conclude_of_unspoiled result unspoiled
        refine .inr ?_
        by_cases green : result.wasSuccessful = true
        · rw [if_pos green] at code
          refine .inr ⟨unstopped, kept, spared.mp green, passes green, keeps, ?_⟩
          rw [concluded, ended]
          exact code
        · rw [if_neg green] at code
          have failed := not_not.mp fun none_failed => green (spared.mpr none_failed)
          refine .inl ⟨unstopped, kept, failed, ?_⟩
          rw [concluded, ended]
          exact code
      · refine .inl ⟨unstopped, lost, ?_⟩
        rw [concluded, ended, written]
        rfl

end Job

namespace Program

/-- Nothing was sent, told or written. -/
structure Outcome.Silent (outcome : Outcome) (tree : FileTree) : Prop where
  requests : outcome.requests = []
  output : outcome.output = ""
  tree : outcome.tree = tree

variable {words : List String} {surroundings : Surroundings} {command : RunCommand}
  (transport : Transport) (clock : Clock) (interrupts : Nat → Bool)

theorem run_of_usage {error : UsageError}
    (refused : Invocation.parse words surroundings.environment = .error (.usage error)) :
    let outcome := run words surroundings transport clock interrupts
    outcome.code = .usageError ∧ outcome.Silent surroundings.tree := by
  rw [run, refused]
  exact ⟨rfl, rfl, rfl, rfl⟩

theorem run_of_error {ending : Ending}
    (accepted : Invocation.parse words surroundings.environment = .ok command)
    (failed : command.prepare surroundings = .error ending) :
    let outcome := run words surroundings transport clock interrupts
    outcome.code = ending.code ∧ outcome.Silent surroundings.tree ∧
      outcome.errors = logText (logSettings surroundings.environment command.verbose)
        command.color.isColored ending.log := by
  rw [run, accepted]
  dsimp only
  rw [runCommand, failed]
  exact ⟨rfl, ⟨rfl, rfl, rfl⟩, rfl⟩

theorem run_of_misnamed {error : ClassNameError}
    (accepted : Invocation.parse words surroundings.environment = .ok command)
    (invalid : ClassName.parse command.className = .error error) :
    let outcome := run words surroundings transport clock interrupts
    outcome.code = .setupError ∧ outcome.Silent surroundings.tree ∧
      outcome.errors = logText (logSettings surroundings.environment command.verbose)
        command.color.isColored [RunCommand.errorEntry error.message] := by
  rcases command.prepare_cases surroundings with
    ⟨found, named, failed⟩ | ⟨_, named, _⟩ | ⟨_, _, _, named, _⟩ | ⟨_, _, _, _, named, _⟩
  · cases named.symm.trans invalid
    exact run_of_error transport clock interrupts accepted failed
  · exact absurd (named.symm.trans invalid) nofun
  · exact absurd (named.symm.trans invalid) nofun
  · exact absurd (named.symm.trans invalid) nofun

theorem run_of_unready (accepted : Invocation.parse words surroundings.environment = .ok command)
    (unready : command.Unready surroundings) :
    (run words surroundings transport clock interrupts).code = .setupError ∧
      ∀ job, command.prepare surroundings ≠ .ok job := by
  rcases command.prepare_cases surroundings with
    ⟨error, _, failed⟩ | ⟨_, named, undecoded, _⟩ | ⟨_, _, _, _, _, _, failed⟩ |
      ⟨_, texts, _, _, named, decoded, read, _⟩
  · exact ⟨(run_of_error transport clock interrupts accepted failed).1, by simp [failed]⟩
  · rcases unready with ⟨error, invalid⟩ | ⟨_, _, decoded, _⟩
    · exact absurd (named.symm.trans invalid) nofun
    · exact absurd (undecoded.symm.trans decoded) nofun
  · exact ⟨(run_of_error transport clock interrupts accepted failed).1, by simp [failed]⟩
  · rcases unready with ⟨error, invalid⟩ | ⟨_, error, found, broken⟩
    · exact absurd (named.symm.trans invalid) nofun
    · cases decoded.symm.trans found
      exact absurd (read.symm.trans broken) nofun

theorem run_of_undecoded {className : ClassName}
    (accepted : Invocation.parse words surroundings.environment = .ok command)
    (named : ClassName.parse command.className = .ok className)
    (undecoded : surroundings.environment.texts? = none) :
    (run words surroundings transport clock interrupts).code = .crashed := by
  rcases command.prepare_cases surroundings with
    ⟨_, invalid, _⟩ | ⟨_, _, _, failed⟩ | ⟨_, _, _, _, decoded, _⟩ | ⟨_, _, _, _, _, decoded, _⟩
  · exact absurd (named.symm.trans invalid) nofun
  · exact (run_of_error transport clock interrupts accepted failed).1
  · exact absurd (undecoded.symm.trans decoded) nofun
  · exact absurd (undecoded.symm.trans decoded) nofun

theorem run_of_prepared {job : Job}
    (accepted : Invocation.parse words surroundings.environment = .ok command)
    (prepared : command.prepare surroundings = .ok job) :
    let execution := job.perform transport clock interrupts
    let reported := job.writeReports? surroundings.tree (Job.events execution)
    let outcome := run words surroundings transport clock interrupts
    outcome.code = (job.complete execution reported.1).ending.code ∧
      outcome.output = job.output (Job.events execution) ∧ outcome.tree = reported.2 ∧
      outcome.requests = execution.course.requests := by
  rw [run, accepted]
  dsimp only
  rw [runCommand, prepared]
  exact ⟨rfl, rfl, rfl, rfl⟩

theorem run_cases {job : Job}
    (accepted : Invocation.parse words surroundings.environment = .ok command)
    (prepared : command.prepare surroundings = .ok job) :
    let outcome := run words surroundings transport clock interrupts
    let execution := job.perform transport clock interrupts
    let told := Job.events execution
    (execution.Stopped ∧ outcome.code = .stoppedByUser) ∨
    (¬execution.Stopped ∧ command.LosesReport surroundings.tree ∧
      outcome.code = .writeOutputError) ∨
    (¬execution.Stopped ∧ ¬command.LosesReport surroundings.tree ∧
      (∃ event ∈ told, event.notice.IsFailure) ∧ outcome.code = .testRunFailed) ∨
    (¬execution.Stopped ∧ ¬command.LosesReport surroundings.tree ∧
      (¬∃ event ∈ told, event.notice.IsFailure) ∧ (∃ event ∈ told, event.notice.IsSuccess) ∧
      job.Keeps outcome.tree told ∧ outcome.code = .ok) := by
  intro outcome execution told
  obtain ⟨code, _, tree, _⟩ := run_of_prepared transport clock interrupts accepted prepared
  have cases := job.complete_cases transport clock interrupts surroundings.tree
  rw [(RunCommand.of_prepare prepared).1] at cases
  dsimp only at cases
  rwa [← code, ← tree] at cases

/--
The tests of a job decide its exit code only where nothing else does. Where a variable is no text,
only the exit code of an invalid class name is told.
-/
theorem run_exit_code (words : List String) (surroundings : Surroundings) :
    let outcome := run words surroundings transport clock interrupts
    (∀ error, Invocation.parse words surroundings.environment = .error (.usage error) →
      outcome.code.value = 2 ∧ outcome.Silent surroundings.tree) ∧
    ∀ command, Invocation.parse words surroundings.environment = .ok command →
      (∀ error, ClassName.parse command.className = .error error →
        outcome.code.value = 96 ∧
        outcome.errors = logText (logSettings surroundings.environment command.verbose)
          command.color.isColored [RunCommand.errorEntry error.message]) ∧
      (∀ texts, surroundings.environment.texts? = some texts →
        (outcome.code.value = 96 ↔ command.Unready surroundings) ∧
        (¬command.Unready surroundings → ∃ job, command.prepare surroundings = .ok job)) ∧
      (∀ ending, command.prepare surroundings = .error ending →
        outcome.Silent surroundings.tree) ∧
      ∀ job, command.prepare surroundings = .ok job →
        let execution := job.perform transport clock interrupts
        let told := Job.events execution
        ¬command.Unready surroundings ∧
        outcome.requests = execution.course.requests ∧ outcome.output = job.output told ∧
        (execution.Stopped ↔ ∀ event ∈ told, ∀ result, event.notice ≠ .runFinished result) ∧
        ((∀ look, interrupts look = false) → ¬execution.Stopped) ∧
        (outcome.code.value = 130 ↔ execution.Stopped) ∧
        (outcome.code.value = 110 ↔
          ¬execution.Stopped ∧ command.LosesReport surroundings.tree) ∧
        (outcome.code.value = 100 ↔ ¬execution.Stopped ∧
          ¬command.LosesReport surroundings.tree ∧ ∃ event ∈ told, event.notice.IsFailure) ∧
        (outcome.code.value = 0 ↔ ¬execution.Stopped ∧
          ¬command.LosesReport surroundings.tree ∧ ¬∃ event ∈ told, event.notice.IsFailure) ∧
        (outcome.code.value = 0 → (∃ event ∈ told, event.notice.IsSuccess) ∧
          (¬∃ event ∈ told, event.notice.IsFailure) ∧ job.Keeps outcome.tree told) := by
  intro outcome
  refine ⟨fun error refused => ?_, fun command accepted => ⟨?_, ?_, ?_, ?_⟩⟩
  · obtain ⟨code, silent⟩ := run_of_usage transport clock interrupts refused
    exact ⟨congrArg ExitCode.value code, silent⟩
  · intro error invalid
    obtain ⟨code, _, errors⟩ := run_of_misnamed transport clock interrupts accepted invalid
    exact ⟨congrArg ExitCode.value code, errors⟩
  · intro texts decoded
    refine ⟨⟨?_, ?_⟩, RunCommand.exists_job_of_ready decoded⟩
    · intro code
      by_contra ready
      obtain ⟨job, prepared⟩ := RunCommand.exists_job_of_ready decoded ready
      rcases run_cases transport clock interrupts accepted prepared with
        ⟨_, other⟩ | ⟨_, _, other⟩ | ⟨_, _, _, other⟩ | ⟨_, _, _, _, _, other⟩
      all_goals simp [outcome, other, ExitCode.value] at code
    · intro unready
      exact congrArg ExitCode.value (run_of_unready transport clock interrupts accepted unready).1
  · intro ending failed
    exact (run_of_error transport clock interrupts accepted failed).2.1
  · intro job prepared execution told
    obtain ⟨_, output, _, requests⟩ :=
      run_of_prepared transport clock interrupts accepted prepared
    have ready : ¬command.Unready surroundings := fun unready =>
      (run_of_unready transport clock interrupts accepted unready).2 job prepared
    have ended := (job.told_perform transport clock interrupts).stopped_iff
    have unasked := job.not_stopped_of_uninterrupted transport clock interrupts
    refine ⟨ready, requests, output, ended, unasked, ?_⟩
    rcases run_cases transport clock interrupts accepted prepared with
      ⟨stopped, code⟩ | ⟨unstopped, lost, code⟩ | ⟨unstopped, kept, failed, code⟩ |
        ⟨unstopped, kept, spared, passes, keeps, code⟩
    · simp [outcome, code, ExitCode.value, execution, stopped]
    · simp [outcome, code, ExitCode.value, execution, unstopped, lost]
    · simp [outcome, code, ExitCode.value, execution, told, unstopped, kept, failed]
    · have value : outcome.code.value = 0 := congrArg ExitCode.value code
      rw [value]
      refine ⟨iff_of_false nofun unstopped, iff_of_false nofun (kept ·.2),
        iff_of_false nofun (spared ·.2.2), iff_of_true rfl ⟨unstopped, kept, spared⟩, ?_⟩
      exact fun _ => ⟨passes, spared, keeps⟩

def bareCommand : RunCommand where
  className := "it.A"
  junit := none
  messageFormat := .human
  configFile := none
  overrides := {}
  verbose := false
  color := .auto

def bareSurroundings (environment : Environment) : Surroundings := ⟨environment, "", ⟨[], []⟩⟩

theorem ofSources_bareSurroundings :
    Settings.ofSources ⟨[], []⟩ "" none [] = .ok Settings.default := by
  refine (Settings.ofSources_eq_ok_iff (.missing rfl ?_)).mpr ⟨rfl, ?_, rfl⟩
  · rw [findConfigText?, FileTree.read?_of_no_nodes, Option.none_or, Option.bind_eq_none_iff]
    exact fun path _ => FileTree.read?_of_no_nodes [] path
  · decide +kernel

def bareClass : ClassName := ⟨"it.A", rfl⟩

def unanswered : Transport := fun request => .error (.request request.url [])

def still : Clock := fun _ => ⟨default, .zero⟩

def bareRunner : Runner where
  className := bareClass
  settings := Settings.default.override {}
  transport := unanswered

theorem parse_bareCommand : Invocation.parse ["run", "it.A"] ⟨[]⟩ = .ok bareCommand := rfl

def purpleEnvironment : Environment := .ofTexts [(Invocation.colorVariable, "purple")]

theorem parse_purpleEnvironment : Invocation.parse ["run", "it.A"] purpleEnvironment =
    .error (.usage (.invalidValue Invocation.colorVariable "purple")) := rfl

theorem run_exit_code_bareCommand :
    Invocation.parse ["run", "it.A"] purpleEnvironment =
        .error (.usage (.invalidValue Invocation.colorVariable "purple")) ∧
      (run ["run", "it.A"] (bareSurroundings purpleEnvironment) unanswered still
        fun _ => false).code.value = 2 ∧
      Invocation.parse ["run", "it.A"] ⟨[]⟩ = .ok bareCommand ∧
      (run ["run", "it.A"] (bareSurroundings ⟨[]⟩) unanswered still
        fun _ => false).code.value = 100 := by
  obtain ⟨usage, _⟩ := run_exit_code unanswered still (fun _ => false) ["run", "it.A"]
    (bareSurroundings purpleEnvironment)
  obtain ⟨_, commands⟩ := run_exit_code unanswered still (fun _ => false) ["run", "it.A"]
    (bareSurroundings ⟨[]⟩)
  obtain ⟨_, _, _, decided⟩ := commands bareCommand parse_bareCommand
  have named : ClassName.parse "it.A" = .ok bareClass := rfl
  refine ⟨parse_purpleEnvironment, (usage _ parse_purpleEnvironment).1, parse_bareCommand, ?_⟩
  rcases bareCommand.prepare_cases (bareSurroundings ⟨[]⟩) with
    ⟨_, invalid, _⟩ | ⟨_, _, undecoded, _⟩ | ⟨_, _, _, _, decoded, broken, _⟩ |
      ⟨className, texts, found, log, parsed, decoded, read, prepared⟩
  · exact absurd (named.symm.trans invalid) nofun
  · exact absurd undecoded nofun
  · cases decoded
    exact absurd (ofSources_bareSurroundings.symm.trans broken) nofun
  · cases decoded
    obtain rfl := Except.ok.inj (named.symm.trans parsed)
    obtain rfl := Except.ok.inj (ofSources_bareSurroundings.symm.trans read)
    obtain ⟨_, _, _, _, unasked, _, _, failed, _⟩ := decided _ prepared
    have unstopped := unasked fun _ => rfl
    refine failed.mpr ⟨unstopped, nofun, ?_⟩
    have told := Job.told_perform ⟨bareCommand, bareClass, Settings.default.override {}, log⟩
      unanswered still fun _ => false
    generalize ended : (Job.perform ⟨bareCommand, bareClass, Settings.default.override {}, log⟩
      unanswered still fun _ => false).result = result at told
    cases result with
    | error stop => exact absurd ⟨stop, ended⟩ unstopped
    | ok result =>
        have ready : bareRunner.Ready := by decide
        refine told.failed_of_not_hasAddress ready ?_
        rintro ⟨url, given, _⟩
        cases given

def undecodedEnvironment : Environment := ⟨[("FOO".toUTF8, ⟨#[0xff]⟩)]⟩

/--
The command line is taken, and the environment alone makes its exit code none of those that stand
for how the job went.
-/
theorem exit_codes_of_environments :
    Invocation.parse ["run", "it.A"] ⟨[]⟩ = .ok bareCommand ∧
      (run ["run", "it.A"] (bareSurroundings purpleEnvironment) unanswered still
        fun _ => false).code.value = 2 ∧
      Invocation.parse ["run", "it.A"] undecodedEnvironment = .ok bareCommand ∧
      (run ["run", "it.A"] (bareSurroundings undecodedEnvironment) unanswered still
        fun _ => false).code.value = 101 := by
  have refused : Invocation.parse ["run", "it.A"] (bareSurroundings purpleEnvironment).environment =
      .error (.usage (.invalidValue Invocation.colorVariable "purple")) := parse_purpleEnvironment
  have accepted : Invocation.parse ["run", "it.A"]
      (bareSurroundings undecodedEnvironment).environment = .ok bareCommand := rfl
  have named : ClassName.parse bareCommand.className = .ok bareClass := rfl
  have undecoded : (bareSurroundings undecodedEnvironment).environment.texts? = none := by decide
  have misused := (run_of_usage unanswered still (fun _ => false) refused).1
  have crashed := run_of_undecoded unanswered still (fun _ => false) accepted named undecoded
  exact ⟨parse_bareCommand, congrArg ExitCode.value misused, accepted,
    congrArg ExitCode.value crashed⟩

end Program

end TestDelegation
