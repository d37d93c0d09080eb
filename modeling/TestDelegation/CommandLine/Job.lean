import TestDelegation.CommandLine.Arguments
import TestDelegation.Log.Delegation
import TestDelegation.Log.Filter
import TestDelegation.Report.JsonLines
import TestDelegation.Report.Junit
import TestDelegation.Report.Lines
import TestDelegation.Text.Quoted

/-!
A job of the command: it is prepared from arguments, environment and files, performed, and
concluded with an exit code. Main definitions: `RunCommand.prepare`, `Job.perform` and
`Job.complete`.
-/

namespace TestDelegation

inductive ExitCode where
  | ok
  | usageError
  | setupError
  | testRunFailed
  /-- The program gave up where it had no answer for what it met. -/
  | crashed
  | writeOutputError
  | stoppedByUser
  deriving DecidableEq, Repr

def ExitCode.value : ExitCode → Nat
  | .ok => 0
  | .usageError => 2
  | .setupError => 96
  | .testRunFailed => 100
  | .crashed => 101
  | .writeOutputError => 110
  | .stoppedByUser => 130

structure Surroundings where
  environment : Environment
  directory : String
  tree : FileTree

structure Ending where
  code : ExitCode
  log : List LogEntry

structure Job where
  command : RunCommand
  className : ClassName
  settings : Settings
  log : List LogEntry

/-- Nothing is asked of the terminal, so `auto` means no colours. -/
def ColorChoice.isColored : ColorChoice → Bool
  | .always => true
  | .auto => false
  | .never => false

def optionText : Option String → String
  | none => "None"
  | some text => "Some(" ++ Text.quoted text ++ ")"

def boolText (value : Bool) : String := if value then "true" else "false"

def Settings.logText (settings : Settings) : String :=
  "RunnerConfig \x7b base_url: " ++ optionText settings.baseUrl ++ ", read_timeout: " ++
    settings.readTimeout.logText ++ ", required_namespace: " ++
    Text.quoted settings.requiredNamespace ++ " \x7d"

namespace RunCommand

def style (command : RunCommand) (style : TextStyle) (text : String) : String :=
  (style.when command.color.isColored).apply text

def errorEntry (message : String) : LogEntry :=
  { level := .error, target := LogTarget.errors, message := message }

def infoEntry (message : String) : LogEntry :=
  { level := .info, target := LogTarget.dispatch, message := message }

def configErrorText (command : RunCommand) (error : ConfigError) : String :=
  match error.file with
  | none => "failed to parse delegate config"
  | some file => "failed to parse delegate config at `" ++ command.style .bold file ++ "`"

/--
The class name is checked before the configuration is read, and every variable has to be text then,
also one that is never asked for.
-/
def prepare (command : RunCommand) (surroundings : Surroundings) : Except Ending Job :=
  match ClassName.parse command.className with
  | .error error => .error ⟨.setupError, [errorEntry error.message]⟩
  | .ok className =>
    match surroundings.environment.texts? with
    | none => .error ⟨.crashed, []⟩
    | some texts =>
      let tree := surroundings.tree
      let root := surroundings.directory
      match Settings.ofSources tree root command.configFile texts with
      | .error error => .error ⟨.setupError, [errorEntry (command.configErrorText error)]⟩
      | .ok found =>
        let settings := found.override command.overrides
        let file := Settings.namedFile? tree root command.configFile
        let log : List LogEntry :=
          [{ level := .debug, target := LogTarget.config, message := "read delegate config"
             fields :=
               [("config_file", optionText file),
                ("has_base_url", boolText found.baseUrl.isSome)] },
            { level := .debug, target := LogTarget.dispatch, message := "resolved config"
              fields :=
                [("config", settings.logText), ("verbose", boolText command.verbose)] },
            { level := .debug, target := LogTarget.codec, message := "building shared codec" }]
        .ok { command, className, settings, log }

end RunCommand

structure WrittenReport where
  path : String
  outcome : Except ReportError Unit

namespace Job

def runner (job : Job) (transport : Transport) : Runner where
  className := job.className
  settings := job.settings
  transport := transport

def notifier (clock : Clock) (interrupts : Nat → Bool) : Notifier :=
  { Notifier.new clock with interrupts := interrupts }.addListener {}

def perform (job : Job) (transport : Transport) (clock : Clock) (interrupts : Nat → Bool) :
    Execution :=
  (job.runner transport).execute (notifier clock interrupts)

def events (execution : Execution) : List Event :=
  match execution.notifier.listeners with
  | [] => []
  | listener :: _ => listener.received

def output (job : Job) (events : List Event) : String :=
  match job.command.messageFormat with
  | .human => Report.linesText events
  | .json => Report.jsonLinesText events

def reporter? (job : Job) : Option JunitReporter :=
  job.command.junit.map fun path => { path := path }

def junitEntry (path : String) : LogEntry :=
  { level := .debug, target := LogTarget.junit, message := "wrote JUnit report"
    fields := [("path", path)] }

def summary (job : Job) (result : RunResult) : String :=
  job.command.style .bold job.className.text ++ ": " ++ Decimal.natText result.runCount ++
    " run, " ++ Decimal.natText result.failureCount ++ " failed, " ++
    Decimal.natText result.ignoreCount ++ " ignored in " ++ result.runTime.secondsText ++ "s"

def failureText (job : Job) (failures : Nat) : String :=
  job.command.style .boldRed (Decimal.natText failures) ++
    (if failures == 1 then " failure" else " failures") ++ " in " ++
    job.command.style .bold job.className.text

def conclude (job : Job) (result : Except StoppedByUser RunResult)
    (written : Option WrittenReport) : Ending :=
  match result with
  | .error stop =>
    ⟨.stoppedByUser, [{ level := .info, target := LogTarget.errors, message := stop.message }]⟩
  | .ok result =>
    let verdict (log : List LogEntry) : Ending :=
      let log := log ++ [RunCommand.infoEntry (job.summary result)]
      if result.wasSuccessful then ⟨.ok, log⟩
      else
        ⟨.testRunFailed, log ++ [RunCommand.errorEntry (job.failureText result.failureCount)]⟩
    match written with
    | none => verdict []
    | some ⟨path, .ok ()⟩ =>
      let shown := job.command.style .bold path
      verdict [RunCommand.infoEntry ("wrote JUnit report to " ++ shown)]
    | some ⟨_, .error _⟩ =>
      ⟨.writeOutputError, [RunCommand.errorEntry "failed to write JUnit report"]⟩

end Job

structure Completion where
  ending : Ending
  output : String
  requests : List Request

namespace Job

def writeReports? (job : Job) (tree : FileTree) (events : List Event) :
    Option WrittenReport × FileTree :=
  match job.reporter? with
  | none => (none, tree)
  | some reporter =>
    let (reporter, tree) := events.foldl
      (fun (reporter, tree) event => reporter.receive tree event) (reporter, tree)
    (some ⟨reporter.path, reporter.finish⟩, tree)

/-- A report that was written while the run went on. -/
def reportLog (result : Except StoppedByUser RunResult) : Option WrittenReport → List LogEntry
  | some ⟨path, .ok ()⟩ =>
    match result with
    | .ok _ => [junitEntry path]
    | .error _ => []
  | some ⟨_, .error _⟩ => []
  | none => []

def complete (job : Job) (execution : Execution) (written : Option WrittenReport) :
    Completion :=
  let reported := match execution.result with
    | .ok _ => true
    | .error _ => false
  let runLog := Runner.runLog job.className execution.course reported
  let ending := job.conclude execution.result written
  { ending :=
      { ending with
        log := job.log ++ runLog ++ reportLog execution.result written ++ ending.log }
    output := job.output (events execution)
    requests := execution.course.requests }

end Job

end TestDelegation
