import TestDelegation.Proofs.Report.Elements
import TestDelegation.Proofs.Text.Lines

/-!
The text of a report, line by line. Main statements: `JunitReport.render_eq_joinEnded`, a report has
the lines of its suites and cases in their order, and `Xml.unescape_escaped`, what is escaped reads
back.
-/

namespace TestDelegation

namespace Xml

def unescape : List Char → List Char
  | '&' :: 'l' :: 't' :: ';' :: rest => '<' :: unescape rest
  | '&' :: 'g' :: 't' :: ';' :: rest => '>' :: unescape rest
  | '&' :: 'a' :: 'm' :: 'p' :: ';' :: rest => '&' :: unescape rest
  | '&' :: 'a' :: 'p' :: 'o' :: 's' :: ';' :: rest => '\'' :: unescape rest
  | '&' :: 'q' :: 'u' :: 'o' :: 't' :: ';' :: rest => '"' :: unescape rest
  | char :: rest => char :: unescape rest
  | [] => []

theorem unescape_cons {char : Char} (plain : char ≠ '&') (rest : List Char) :
    unescape (char :: rest) = char :: unescape rest := by
  rw [unescape]
  all_goals exact fun _ same => absurd same plain

theorem escapedChar_of_plain {char : Char} (plain : char ∉ ['<', '>', '&', '\'', '"']) :
    escapedChar char = [char] := by
  simp only [List.mem_cons, List.not_mem_nil, or_false, not_or] at plain
  simp [escapedChar, plain]

theorem unescape_escapedChar (char : Char) (rest : List Char) :
    unescape (escapedChar char ++ rest) = char :: unescape rest := by
  by_cases escapes : char ∈ ['<', '>', '&', '\'', '"']
  · simp only [List.mem_cons, List.not_mem_nil, or_false] at escapes
    rcases escapes with rfl | rfl | rfl | rfl | rfl
    all_goals simp [escapedChar, unescape]
  · have ampersand : char ≠ '&' := by
      rintro rfl
      simp at escapes
    rw [escapedChar_of_plain escapes, List.singleton_append, unescape_cons ampersand]

theorem unescape_flatMap (chars : List Char) : unescape (chars.flatMap escapedChar) = chars := by
  induction chars with
  | nil => rfl
  | cons char rest ih => rw [List.flatMap_cons, unescape_escapedChar, ih]

/-- Of an escaped text no more is lost than what controls a terminal. -/
theorem unescape_escaped (text : String) :
    String.ofList (unescape (escaped text).toList) = Text.withoutControls text := by
  rw [escaped, String.toList_ofList, unescape_flatMap, String.ofList_toList]

theorem not_mem_escapedChar {mark : Char} (markup : mark = '<' ∨ mark = '"') (char : Char) :
    mark ∉ escapedChar char := by
  by_cases escapes : char ∈ ['<', '>', '&', '\'', '"']
  · simp only [List.mem_cons, List.not_mem_nil, or_false] at escapes
    rcases markup with rfl | rfl
    all_goals rcases escapes with rfl | rfl | rfl | rfl | rfl
    all_goals simp [escapedChar]
  · rw [escapedChar_of_plain escapes, List.mem_singleton]
    rintro rfl
    rcases markup with rfl | rfl
    all_goals simp at escapes

theorem not_mem_escaped {mark : Char} (markup : mark = '<' ∨ mark = '"') (text : String) :
    mark ∉ (escaped text).toList := by
  rw [escaped, String.toList_ofList, List.mem_flatMap]
  rintro ⟨char, _, within⟩
  exact not_mem_escapedChar markup char within

theorem childLines_eq_flatMap (level : Nat) (children : List Xml) :
    lines.childLines level children = children.flatMap (lines level) := by
  induction children with
  | nil => rfl
  | cons child rest ih => rw [lines.childLines, List.flatMap_cons, ih]

end Xml

def attributeWord (label : String) : Option String → String
  | none => ""
  | some value => " " ++ label ++ "=\"" ++ Xml.escaped value ++ "\""

def CaseStatus.lines : CaseStatus → List String
  | .success => []
  | .skipped => ["            <skipped/>"]
  | .failure cause =>
    ["            <failure" ++ attributeWord "message" cause.outer.message ++
      attributeWord "type" cause.outer.exceptionType ++ ">" ++
      Xml.escaped (renderCause cause) ++ "</failure>"]

def TestCase.lines (testCase : TestCase) : List String :=
  ["        <testcase name=\"" ++ Xml.escaped testCase.name ++ "\" classname=\"" ++
    Xml.escaped testCase.className ++ "\"" ++
    attributeWord "time" (testCase.time.map Duration.secondsText) ++ ">"] ++
  testCase.status.lines ++ ["        </testcase>"]

def TestSuite.lines (suite : TestSuite) : List String :=
  ["    <testsuite name=\"" ++ Xml.escaped suite.name ++ "\" tests=\"" ++
    Xml.escaped (Decimal.natText suite.cases.length) ++ "\" disabled=\"" ++
    Xml.escaped (Decimal.natText suite.skipped) ++ "\" errors=\"" ++ Xml.escaped "0" ++
    "\" failures=\"" ++ Xml.escaped (Decimal.natText suite.failures) ++ "\">"] ++
  suite.cases.flatMap TestCase.lines ++ ["    </testsuite>"]

namespace JunitReport

def lines (report : JunitReport) : List String :=
  ["<?xml version=\"1.0\" encoding=\"UTF-8\"?>",
    "<testsuites name=\"" ++ Xml.escaped report.name ++ "\" tests=\"" ++
    Xml.escaped (Decimal.natText report.tests) ++ "\" failures=\"" ++
    Xml.escaped (Decimal.natText report.failures) ++ "\" errors=\"" ++ Xml.escaped "0" ++
    "\" timestamp=\"" ++ Xml.escaped report.timestamp.millisecondText ++ "\" time=\"" ++
    Xml.escaped report.time.secondsText ++ "\">"] ++
  report.suites.flatMap TestSuite.lines ++ ["</testsuites>"]

theorem attributeWord_eq (label : String) (value : Option String) :
    String.join ((optionalAttribute label value).map Xml.attributeText) =
      attributeWord label value := by
  cases value <;> simp [optionalAttribute, attributeWord, Xml.attributeText]

theorem lines_statusElements (status : CaseStatus) :
    (statusElements status).flatMap (Xml.lines 3) = status.lines := by
  cases status with
  | success => rfl
  | skipped => rfl
  | failure cause =>
      rw [statusElements, List.flatMap_singleton, Xml.lines, CaseStatus.lines, Xml.openingText,
        List.map_append, String.join_append, attributeWord_eq, attributeWord_eq]
      refine congrArg (fun line => [line]) (String.toList_inj.mp ?_)
      simp [Xml.indentation, Xml.closingTag]

theorem lines_caseElement (testCase : TestCase) :
    (caseElement testCase).lines 2 = testCase.lines := by
  have opening : Xml.indentation 2 ++ Xml.openingText (caseElement testCase).tag ++ ">" =
      "        <testcase name=\"" ++ Xml.escaped testCase.name ++ "\" classname=\"" ++
        Xml.escaped testCase.className ++ "\"" ++
        attributeWord "time" (testCase.time.map Duration.secondsText) ++ ">" := by
    rw [caseElement, Xml.tag, Xml.openingText, List.map_append, String.join_append,
      attributeWord_eq]
    exact String.toList_inj.mp (by simp [Xml.indentation, Xml.attributeText])
  rw [caseElement, Xml.tag] at opening
  rw [caseElement, Xml.lines, Xml.childLines_eq_flatMap, lines_statusElements, opening]
  rfl

theorem lines_suiteElement (suite : TestSuite) :
    (suiteElement suite).lines 1 = suite.lines := by
  have cases : (suite.cases.map caseElement).flatMap (Xml.lines 2) =
      suite.cases.flatMap TestCase.lines := by
    rw [List.flatMap_map, funext lines_caseElement]
  rw [suiteElement, Xml.lines, Xml.childLines_eq_flatMap, cases]
  refine congrArg (fun line => line :: (_ ++ ["    </testsuite>"])) (String.toList_inj.mp ?_)
  simp [Xml.indentation, Xml.openingText, Xml.attributeText]

theorem lines_element (report : JunitReport) :
    Xml.declaration :: report.element.lines 0 = report.lines := by
  have suites : (report.suites.map suiteElement).flatMap (Xml.lines 1) =
      report.suites.flatMap TestSuite.lines := by
    rw [List.flatMap_map, funext lines_suiteElement]
  rw [element, Xml.lines, Xml.childLines_eq_flatMap, suites]
  refine congrArg (fun line => Xml.declaration :: line :: (_ ++ ["</testsuites>"]))
    (String.toList_inj.mp ?_)
  simp [Xml.indentation, Xml.openingText, Xml.attributeText]

theorem render_eq_joinEnded (report : JunitReport) :
    report.render = Text.joinEnded report.lines := by
  rw [← lines_element]
  rfl

end JunitReport

end TestDelegation
