import TestDelegation.Proofs.Payload.Decoders
import TestDelegation.Proofs.Text.Counter

/-!
The ways in which a JSON value may spell a payload. An object lists its fields in any order, under
either name, beside members that mean nothing to it; what has a default may be left out.
-/

namespace TestDelegation

def membersNamed (names : List String) (members : List (String × Json)) : List (String × Json) :=
  members.filter fun member => names.contains member.1

def SpellsField (names : List String) (members : List (String × Json)) (leftOut : Prop)
    (spells : Json → Prop) : Prop :=
  (membersNamed names members = [] ∧ leftOut) ∨
  ∃ member, membersNamed names members = [member] ∧ spells member.2

def SpellsOption {α : Type} (spells : α → Json → Prop) : Option α → Json → Prop
  | none, value => value = .null
  | some inner, value => spells inner value

def SpellsList {α : Type} (spells : α → Json → Prop) (results : List α) (value : Json) : Prop :=
  ∃ items, value = .array items ∧ List.Forall₂ spells results items

/-- Entries of a map in any order; every key is data. -/
def SpellsMap {α : Type} (spells : α → Json → Prop) (map : SortedMap α) (value : Json) : Prop :=
  ∃ members entries, value = .object members ∧ entries.Perm map.entries ∧
    List.Forall₂ (fun entry member => entry.1 = member.1 ∧ spells entry.2 member.2) entries members

def SpellsText (text : String) (value : Json) : Prop := value = .string text

def SignedWord.SpelledBy {bits : Nat} (word : SignedWord bits) (value : Json) : Prop :=
  value = .integer word.toInt

/-- A counter may be written as an integer or as a text with one. -/
def SignedWord.CountedBy {bits : Nat} (word : SignedWord bits) (value : Json) : Prop :=
  value = .integer word.toInt ∨ ∃ text, value = .string text ∧ Text.SpellsCounter text word.toInt

def StackFrame.SpelledBy (frame : StackFrame) (value : Json) : Prop :=
  ∃ members, value = .object members ∧
    SpellsField ["declaringClass"] members False (SpellsText frame.declaringClass) ∧
    SpellsField ["methodName"] members False (SpellsText frame.methodName) ∧
    SpellsField ["fileName"] members (frame.fileName = none)
      (SpellsOption SpellsText frame.fileName) ∧
    SpellsField ["lineNumber"] members (frame.lineNumber.toInt = 0) frame.lineNumber.SpelledBy

def Thrown.SpelledByMembers (thrown : Thrown) (members : List (String × Json)) : Prop :=
  SpellsField ["type", "class"] members (thrown.exceptionType = none)
    (SpellsOption SpellsText thrown.exceptionType) ∧
  SpellsField ["message", "detailMessage"] members (thrown.message = none)
    (SpellsOption SpellsText thrown.message) ∧
  SpellsField ["stackTrace"] members (thrown.stackTrace = [])
    (SpellsList StackFrame.SpelledBy thrown.stackTrace)

def Thrown.SpelledBy (thrown : Thrown) : List Thrown → Json → Prop
  | [], value => ∃ members, value = .object members ∧ thrown.SpelledByMembers members ∧
      SpellsField ["cause"] members True (· = .null)
  | inner :: nested, value => ∃ members, value = .object members ∧
      thrown.SpelledByMembers members ∧
      SpellsField ["cause"] members False (inner.SpelledBy nested)

def FailureCause.SpelledBy (cause : FailureCause) : Json → Prop :=
  cause.outer.SpelledBy cause.nested

def SpellsName (key name : String) (value : Json) : Prop :=
  value = .string name ∨
  ∃ members, value = .object members ∧ SpellsField [key] members False (SpellsText name)

def Annotation.SpelledBy (mark : Annotation) : Json → Prop :=
  SpellsName "annotationType" mark.annotationType

def ClassLiteral.SpelledBy (literal : ClassLiteral) : Json → Prop :=
  SpellsName "name" literal.name

def RemoteDescription.SpelledBy : RemoteDescription → Json → Prop
  | ⟨displayName, annotations, testClass, children⟩, value =>
    ∃ members, value = .object members ∧
      SpellsField ["fDisplayName", "displayName"] members (displayName = "")
        (SpellsText displayName) ∧
      SpellsField ["fAnnotations", "annotations"] members (annotations = [])
        (SpellsList Annotation.SpelledBy annotations) ∧
      SpellsField ["fTestClass", "testClass"] members (testClass = none)
        (SpellsOption ClassLiteral.SpelledBy testClass) ∧
      SpellsField ["fChildren", "children"] members (children = [])
        (fun value => ∃ items, value = .array items ∧ allSpelledBy children items)
where
  allSpelledBy : List RemoteDescription → List Json → Prop
    | [], items => items = []
    | child :: rest, items => ∃ first later, items = first :: later ∧ child.SpelledBy first ∧
        allSpelledBy rest later

theorem RemoteDescription.allSpelledBy_iff {children : List RemoteDescription}
    {items : List Json} : SpelledBy.allSpelledBy children items ↔
      List.Forall₂ SpelledBy children items := by
  induction children generalizing items with
  | nil => simp [SpelledBy.allSpelledBy]
  | cons child rest ih =>
      simp only [SpelledBy.allSpelledBy, ih, List.forall₂_cons_left_iff]
      constructor
      · rintro ⟨first, later, rfl, childSpelled, restSpelled⟩
        exact ⟨first, later, childSpelled, restSpelled, rfl⟩
      · rintro ⟨first, later, childSpelled, restSpelled, rfl⟩
        exact ⟨first, later, rfl, childSpelled, restSpelled⟩

theorem RemoteDescription.spelledBy_iff {described : RemoteDescription} {value : Json} :
    described.SpelledBy value ↔ ∃ members, value = .object members ∧
      SpellsField ["fDisplayName", "displayName"] members (described.displayName = "")
        (SpellsText described.displayName) ∧
      SpellsField ["fAnnotations", "annotations"] members (described.annotations = [])
        (SpellsList Annotation.SpelledBy described.annotations) ∧
      SpellsField ["fTestClass", "testClass"] members (described.testClass = none)
        (SpellsOption ClassLiteral.SpelledBy described.testClass) ∧
      SpellsField ["fChildren", "children"] members (described.children = [])
        (SpellsList SpelledBy described.children) := by
  cases described
  simp only [SpelledBy, allSpelledBy_iff]
  exact Iff.rfl

def RemoteFailure.SpelledBy (failure : RemoteFailure) (value : Json) : Prop :=
  ∃ members, value = .object members ∧
    SpellsField ["description", "fDescription"] members (failure.description = none)
      (SpellsOption RemoteDescription.SpelledBy failure.description) ∧
    SpellsField ["cause", "fThrownException"] members False failure.cause.SpelledBy

def RunSummary.SpelledBy (summary : RunSummary) (value : Json) : Prop :=
  ∃ members, value = .object members ∧
    SpellsField ["count"] members (summary.count.toInt = 0) summary.count.CountedBy ∧
    SpellsField ["ignoreCount"] members (summary.ignoreCount.toInt = 0)
      summary.ignoreCount.CountedBy ∧
    SpellsField ["runTime"] members (summary.runTime.toInt = 0) summary.runTime.CountedBy ∧
    SpellsField ["startTime"] members (summary.startTime.toInt = 0) summary.startTime.CountedBy ∧
    SpellsField ["failures"] members (summary.failures = [])
      (SpellsList RemoteFailure.SpelledBy summary.failures)

/--
A summary with its presence written out. An absent one may also be null, and a value that is said
not to be present must still be a summary.
-/
def RunSummary.MaybeSpelledBy : Option RunSummary → Json → Prop
  | none, value => value = .null ∨ ∃ members, value = .object members ∧
      SpellsField ["present"] members False (· = .bool false) ∧
      SpellsField ["value"] members True
        (fun inner => inner = .null ∨ ∃ summary : RunSummary, summary.SpelledBy inner)
  | some summary, value => ∃ members, value = .object members ∧
      SpellsField ["present"] members False (· = .bool true) ∧
      SpellsField ["value"] members False summary.SpelledBy

def ResultDetail.SpelledBy (detail : ResultDetail) (value : Json) : Prop :=
  ∃ members, value = .object members ∧
    SpellsField ["classname"] members (detail.classname = none)
      (SpellsOption SpellsText detail.classname) ∧
    SpellsField ["testResult"] members (detail.testResult = none)
      (RunSummary.MaybeSpelledBy detail.testResult) ∧
    SpellsField ["passedMethods"] members False (SpellsList SpellsText detail.passedMethods) ∧
    SpellsField ["ignoredMethods"] members False (SpellsList SpellsText detail.ignoredMethods) ∧
    SpellsField ["failedMethods"] members False
      (SpellsMap RemoteFailure.SpelledBy detail.failedMethods)

theorem ResultDetail.SpelledBy.ne_array {detail : ResultDetail} {value : Json}
    (spelled : detail.SpelledBy value) (items : List Json) : value ≠ .array items := by
  obtain ⟨members, rfl, _⟩ := spelled
  simp

end TestDelegation
