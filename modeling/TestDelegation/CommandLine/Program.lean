import TestDelegation.CommandLine.Job

/-!
The whole command, from its arguments to what it prints and leaves behind. Main definition:
`Program.run`.
-/

namespace TestDelegation.Program

def version : String := "delegate-test 0.1.0"

def logVariable : String := "DELEGATE_LOG"

def helpLines : List String :=
  ["Run test classes on a remote test service",
    "",
    "Usage: delegate-test [OPTIONS] run [--junit <PATH>] [--message-format <FORMAT>] <CLASS>",
    "",
    "Options:",
    "      --config <PATH>                   Config file [default: .config/delegate.toml]",
    "      --base-url <URL>                  Base URL of the remote host",
    "      --read-timeout <DURATION>         How long to wait for the remote run to finish",
    "      --required-namespace <NAMESPACE>  Top-level package of delegated classes",
    "      --junit <PATH>                    Write a JUnit XML report to this path",
    "      --message-format <FORMAT>         Format of the events: human, json",
    "  -v, --verbose                         Verbose output [env: DELEGATE_VERBOSE]",
    "      --color <WHEN>                    auto, always, never [env: DELEGATE_COLOR]",
    "  -h, --help                            Print help",
    "  -V, --version                         Print version"]

def help : String := String.join (helpLines.map fun line => line ++ "\n")

structure LogSettings where
  filter : LogFilter
  warning : String

def defaultLevel (verbose : Bool) : LogLevel := if verbose then .debug else .info

/-- An empty filter counts as none, and so does one that is no text. -/
def logSettings (environment : Environment) (verbose : Bool) : LogSettings :=
  let usual := LogFilter.upTo (defaultLevel verbose)
  match ((environment.value? logVariable).bind String.fromUTF8?).map Text.trim with
  | none => ⟨usual, ""⟩
  | some text =>
    if text.isEmpty then ⟨usual, ""⟩
    else
      match LogFilter.parse? text with
      | some filter => ⟨filter, ""⟩
      | none =>
        ⟨usual, "warning: ignoring invalid " ++ logVariable ++ " value `" ++ text ++
          "`: invalid filter directive\n"⟩

def logText (settings : LogSettings) (colored : Bool) (log : List LogEntry) : String :=
  settings.warning ++
    String.join ((log.filter settings.filter.enables).map (LogEntry.render colored))

structure Outcome where
  code : ExitCode
  output : String := ""
  errors : String := ""
  tree : FileTree
  requests : List Request := []

def early (tree : FileTree) : EarlyEnd → Outcome
  | .version => { code := .ok, output := version ++ "\n", tree := tree }
  | .help => { code := .ok, output := help, tree := tree }
  | .usage error =>
    { code := .usageError, errors := "error: " ++ error.message ++ "\n", tree := tree }

def runCommand (command : RunCommand) (surroundings : Surroundings) (transport : Transport)
    (clock : Clock) (interrupts : Nat → Bool) : Outcome :=
  let settings := logSettings surroundings.environment command.verbose
  let shown := logText settings command.color.isColored
  let tree := surroundings.tree
  match command.prepare surroundings with
  | .error ending => { code := ending.code, errors := shown ending.log, tree := tree }
  | .ok job =>
    let execution := job.perform transport clock interrupts
    let (written, tree) := job.writeReports? tree (Job.events execution)
    let completion := job.complete execution written
    { code := completion.ending.code
      output := completion.output
      errors := shown completion.ending.log
      tree := tree
      requests := completion.requests }

def run (words : List String) (surroundings : Surroundings) (transport : Transport)
    (clock : Clock) (interrupts : Nat → Bool) : Outcome :=
  match Invocation.parse words surroundings.environment with
  | .error early => Program.early surroundings.tree early
  | .ok command => runCommand command surroundings transport clock interrupts

end TestDelegation.Program
