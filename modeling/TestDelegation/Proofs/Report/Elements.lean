import TestDelegation.Proofs.Report.Suites

/-!
What the elements of a report show. Main statement: `JunitReport.element_shows`, a report shows its
suites and their cases in their order, with the numbers of them.
-/

namespace TestDelegation

namespace Xml

def tag : Xml → XmlTag
  | .block tag _ => tag
  | .empty tag => tag
  | .text tag _ => tag

def attribute? (name : String) (element : Xml) : Option String :=
  element.tag.attributes.lookup name

def children : Xml → List Xml
  | .block _ children => children
  | .empty _ => []
  | .text _ _ => []

end Xml

/-- What a case shows of its status. -/
inductive CaseStatus.ShownBy : CaseStatus → List Xml → Prop
  | success : ShownBy .success []
  | skipped : ShownBy .skipped [.empty { name := "skipped" }]
  | failure {cause : FailureCause} {attributes : List (String × String)} :
      attributes.lookup "message" = cause.outer.message →
      attributes.lookup "type" = cause.outer.exceptionType →
      ShownBy (.failure cause) [.text { name := "failure", attributes } (renderCause cause)]

structure TestCase.ShownBy (testCase : TestCase) (element : Xml) : Prop where
  name : element.attribute? "name" = some testCase.name
  className : element.attribute? "classname" = some testCase.className
  time : element.attribute? "time" = testCase.time.map Duration.secondsText
  status : testCase.status.ShownBy element.children

structure TestSuite.ShownBy (suite : TestSuite) (element : Xml) : Prop where
  name : element.attribute? "name" = some suite.name
  tests : element.attribute? "tests" = some (Decimal.natText suite.cases.length)
  failures : element.attribute? "failures" =
    some (Decimal.natText (suite.cases.countP TestCase.failed))
  skipped : element.attribute? "disabled" =
    some (Decimal.natText (suite.cases.countP fun testCase => testCase.status == .skipped))
  cases : List.Forall₂ TestCase.ShownBy suite.cases element.children

structure JunitReport.ShownBy (report : JunitReport) (element : Xml) : Prop where
  name : element.attribute? "name" = some report.name
  tests : element.attribute? "tests" =
    some (Decimal.natText (totalOf (fun suite => suite.cases.length) report.suites))
  failures : element.attribute? "failures" =
    some (Decimal.natText (totalOf (fun suite => suite.cases.countP TestCase.failed) report.suites))
  suites : List.Forall₂ TestSuite.ShownBy report.suites element.children

namespace JunitReport

theorem statusElements_shows (status : CaseStatus) : status.ShownBy (statusElements status) := by
  cases status with
  | success => exact .success
  | skipped => exact .skipped
  | failure cause =>
      obtain ⟨⟨exceptionType, message, frames⟩, nested⟩ := cause
      cases message with
      | none =>
          cases exceptionType with
          | none => exact .failure rfl rfl
          | some _ => exact .failure rfl rfl
      | some _ =>
          cases exceptionType with
          | none => exact .failure rfl rfl
          | some _ => exact .failure rfl rfl

theorem caseElement_shows (testCase : TestCase) : testCase.ShownBy (caseElement testCase) where
  name := rfl
  className := rfl
  time := by
    obtain ⟨name, className, status, time⟩ := testCase
    cases time with
    | none => rfl
    | some _ => rfl
  status := statusElements_shows testCase.status

theorem suiteElement_shows (suite : TestSuite) : suite.ShownBy (suiteElement suite) where
  name := rfl
  tests := rfl
  failures := rfl
  skipped := rfl
  cases := List.forall₂_map_right_iff.mpr
    (List.forall₂_same.mpr fun testCase _ => caseElement_shows testCase)

theorem element_shows (report : JunitReport) : report.ShownBy report.element where
  name := rfl
  tests := rfl
  failures := rfl
  suites := List.forall₂_map_right_iff.mpr
    (List.forall₂_same.mpr fun suite _ => suiteElement_shows suite)

end JunitReport

end TestDelegation
