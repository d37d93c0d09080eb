import TestDelegation.Files.Tree
import TestDelegation.Report.Lines
import TestDelegation.Report.Xml

/-!
JUnit reports: outcomes are collected into one suite per class, and written to a file when the run
finishes. Main definition: `JunitReporter.receive`.
-/

namespace TestDelegation

inductive CaseStatus where
  | success
  | skipped
  | failure (cause : FailureCause)
  deriving DecidableEq

structure TestCase where
  name : String
  className : String
  status : CaseStatus
  time : Option Duration
  deriving DecidableEq

structure TestSuite where
  name : String
  cases : List TestCase
  deriving DecidableEq

namespace TestSuite

def failures (suite : TestSuite) : Nat :=
  suite.cases.countP fun testCase => match testCase.status with
    | .failure _ => true
    | .success => false
    | .skipped => false

def skipped (suite : TestSuite) : Nat :=
  suite.cases.countP fun testCase => testCase.status == .skipped

end TestSuite

structure JunitReport where
  name : String
  timestamp : Timestamp
  time : Duration
  suites : List TestSuite
  deriving DecidableEq

namespace JunitReport

def tests (report : JunitReport) : Nat :=
  report.suites.foldl (fun count suite => count + suite.cases.length) 0

def failures (report : JunitReport) : Nat :=
  report.suites.foldl (fun count suite => count + suite.failures) 0

def optionalAttribute (name : String) : Option String → List (String × String)
  | none => []
  | some value => [(name, value)]

def statusElements : CaseStatus → List Xml
  | .success => []
  | .skipped => [.empty { name := "skipped" }]
  | .failure cause =>
    let attributes :=
      optionalAttribute "message" cause.outer.message ++
        optionalAttribute "type" cause.outer.exceptionType
    [.text { name := "failure", attributes := attributes } (renderCause cause)]

def caseElement (testCase : TestCase) : Xml :=
  let attributes :=
    [("name", testCase.name), ("classname", testCase.className)] ++
      optionalAttribute "time" (testCase.time.map Duration.secondsText)
  .block { name := "testcase", attributes := attributes } (statusElements testCase.status)

def suiteElement (suite : TestSuite) : Xml :=
  let attributes :=
    [("name", suite.name), ("tests", Decimal.natText suite.cases.length),
      ("disabled", Decimal.natText suite.skipped), ("errors", "0"),
      ("failures", Decimal.natText suite.failures)]
  .block { name := "testsuite", attributes := attributes } (suite.cases.map caseElement)

def element (report : JunitReport) : Xml :=
  let attributes :=
    [("name", report.name), ("tests", Decimal.natText report.tests),
      ("failures", Decimal.natText report.failures), ("errors", "0"),
      ("timestamp", report.timestamp.millisecondText), ("time", report.time.secondsText)]
  .block { name := "testsuites", attributes := attributes } (report.suites.map suiteElement)

def render (report : JunitReport) : String := report.element.document

end JunitReport

inductive ReportError where
  | files (path : String)
  | output (path : String)
  deriving DecidableEq

def ReportError.message : ReportError → String
  | .files path => "error writing to path `" ++ path ++ "`"
  | .output path => "error writing JUnit output to `" ++ path ++ "`"

def saveReport (tree : FileTree) (path text : String) : FileTree × Except ReportError Unit :=
  let directory := (Path.parent? path).getD ""
  let (tree, made) :=
    if directory.isEmpty then (tree, true) else tree.makeDirectories directory
  if !made then (tree, .error (.files directory))
  else
    match tree.write path text with
    | .ok tree => (tree, .ok ())
    | .error .notOpened => (tree, .error (.files path))
    | .error .notWritten => (tree, .error (.output path))

def defaultReportName : String := "delegate-run"

structure JunitReporter where
  path : String
  reportName : String := defaultReportName
  suites : List TestSuite := []
  started : List (String × Duration) := []
  fault : Option ReportError := none

namespace JunitReporter

def suiteName (description : Description) : String :=
  match description.className? with
  | some name => name.text
  | none => description.displayName

def testCase (description : Description) (status : CaseStatus) (time : Option Duration) :
    TestCase where
  name := description.method?.getD description.displayName
  className := suiteName description
  status := status
  time := time

/-- Puts a case at the end of its suite, which comes last if it is new. -/
def addCase (testCase : TestCase) : List TestSuite → List TestSuite
  | [] => [⟨testCase.className, [testCase]⟩]
  | suite :: rest =>
    if suite.name == testCase.className then
      { suite with cases := suite.cases ++ [testCase] } :: rest
    else suite :: addCase testCase rest

/-- The time since the start of a test, which is no longer under way then. -/
def takeTime (reporter : JunitReporter) (description : Description) (now : Duration) :
    JunitReporter × Option Duration :=
  let name := description.displayName
  ({ reporter with started := reporter.started.filter fun entry => entry.1 != name },
    (reporter.started.lookup name).map now.since)

def add (reporter : JunitReporter) (description : Description) (status : CaseStatus)
    (time : Option Duration) : JunitReporter :=
  { reporter with suites := addCase (testCase description status time) reporter.suites }

def report (reporter : JunitReporter) (result : RunResult) : JunitReport :=
  ⟨reporter.reportName, result.startTime, result.runTime, reporter.suites⟩

def collect (reporter : JunitReporter) (event : Event) : JunitReporter :=
  match event.notice with
  | .runStarted _ => reporter
  | .testStarted description =>
    let entry := (description.displayName, event.elapsed)
    { reporter with started := entry :: reporter.started }
  | .testFinished description =>
    let (reporter, time) := reporter.takeTime description event.elapsed
    reporter.add description .success time
  | .testIgnored description => reporter.add description .skipped none
  | .testFailure failure =>
    let (reporter, time) := reporter.takeTime failure.description event.elapsed
    reporter.add failure.description (.failure failure.cause) time
  | .runFinished _ => { reporter with suites := [] }

def report? (reporter : JunitReporter) (event : Event) : Option JunitReport :=
  match event.notice with
  | .runFinished result => some (reporter.report result)
  | _ => none

/-- Remembers how writing a report went; success does not undo an earlier fault. -/
def written (reporter : JunitReporter) : Except ReportError Unit → JunitReporter
  | .ok () => reporter
  | .error error => { reporter with fault := some error }

def receive (reporter : JunitReporter) (tree : FileTree) (event : Event) :
    JunitReporter × FileTree :=
  match reporter.report? event with
  | none => (reporter.collect event, tree)
  | some report =>
    let (tree, outcome) := saveReport tree reporter.path report.render
    ((reporter.collect event).written outcome, tree)

def finish (reporter : JunitReporter) : Except ReportError Unit :=
  match reporter.fault with
  | some error => .error error
  | none => .ok ()

end JunitReporter

end TestDelegation
