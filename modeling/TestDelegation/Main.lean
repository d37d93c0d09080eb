import Std.Time.DateTime.Timestamp
import TestDelegation.CommandLine.Program

/-!
The command as a program. It looks at the environment and the files, performs a run and writes
what comes of it. No network is used here: every request ends as one that nobody answers.
-/

namespace TestDelegation.Main

def variableNames : List String :=
  [Settings.baseUrlVariable, Settings.readTimeoutVariable, Settings.requiredNamespaceVariable,
    Settings.olderBaseUrlVariable, Invocation.verboseVariable, Invocation.colorVariable,
    Program.logVariable]

def readVariables : IO (List (String × String)) := do
  let found ← variableNames.mapM fun name => do return (name, ← IO.getEnv name)
  return found.filterMap fun (name, value) => value.map fun value => (name, value)

def settingsFiles (directory : String) (command : RunCommand) : List String :=
  let path := command.configFile.getD (Settings.defaultConfigFile directory)
  path :: (Path.appendToName? path ".toml").toList

def observe (tree : FileTree) (path : String) : IO FileTree := do
  try
    let text ← IO.FS.readFile path
    let (tree, _) := tree.makeDirectories ((Path.parent? path).getD "")
    return (tree.write path text).toOption.getD tree
  catch _ =>
    try
      let _ ← IO.FS.realPath path
      return if path.isEmpty then tree else (tree.makeDirectories path).1
    catch _ => return tree

def emptyTree (directory : String) : FileTree :=
  let (tree, _) := (FileTree.mk [] []).makeDirectories directory
  { tree with working := Path.parts directory }

def succeeds (action : IO Unit) : IO Bool := do
  try
    action
    return true
  catch _ => return false

def saveFile (path text : String) : IO (Except ReportError Unit) := do
  let directory := (Path.parent? path).getD ""
  let made ← if directory.isEmpty then pure true else succeeds (IO.FS.createDirAll directory)
  if !made then return .error (.files directory)
  let handle? ← try some <$> IO.FS.Handle.mk path .write catch _ => pure none
  match handle? with
  | none => return .error (.files path)
  | some handle =>
    let done ← succeeds do
      handle.putStr text
      handle.flush
    return if done then .ok () else .error (.output path)

def writeReports (reporter : JunitReporter) : List Event → IO JunitReporter
  | [] => return reporter
  | event :: rest => do
    match reporter.report? event with
    | none => writeReports (reporter.collect event) rest
    | some report =>
      let outcome ← saveFile reporter.path report.render
      writeReports ((reporter.collect event).written outcome) rest

def unanswered : Transport := fun request => .error (.request request.url ["no network is used"])

def finish (code : ExitCode) (output errors : String) : IO UInt32 := do
  let standardOutput ← IO.getStdout
  standardOutput.putStr output
  standardOutput.flush
  let standardError ← IO.getStderr
  standardError.putStr errors
  return code.value.toUInt32

def perform (command : RunCommand) (surroundings : Surroundings) : IO UInt32 := do
  let settings := Program.logSettings surroundings.environment command.verbose
  let shown := Program.logText settings command.color.isColored
  match command.prepare surroundings with
  | .error ending => finish ending.code "" (shown ending.log)
  | .ok job =>
    let now ← Std.Time.Timestamp.now
    let timestamp := Timestamp.ofUnix ⟨now.toNanosecondsSinceUnixEpoch.val.toNat⟩
    let uptime : Duration := ⟨← IO.monoNanosNow⟩
    let execution := job.perform unanswered (fun _ => ⟨timestamp, uptime⟩) fun _ => false
    let written ← job.reporter?.mapM fun reporter => do
      let reporter ← writeReports reporter (Job.events execution)
      return (⟨reporter.path, reporter.finish⟩ : WrittenReport)
    let completion := job.complete execution written
    finish completion.ending.code completion.output (shown completion.ending.log)

end TestDelegation.Main

open TestDelegation in
def main (words : List String) : IO UInt32 := do
  let environment ← Main.readVariables
  let directory := (← IO.currentDir).toString
  let tree := Main.emptyTree directory
  match Invocation.parse words environment with
  | .error early =>
    let outcome := Program.early tree early
    Main.finish outcome.code outcome.output outcome.errors
  | .ok command =>
    let tree ← (Main.settingsFiles directory command).foldlM Main.observe tree
    Main.perform command { environment, directory, tree }
