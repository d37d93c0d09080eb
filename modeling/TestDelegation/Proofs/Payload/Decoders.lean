import TestDelegation.Payload.Decoder
import TestDelegation.Proofs.Decoding.Records

/-!
The payload's decoders on whole values, each brought back to its record or its written forms.
-/

namespace TestDelegation

namespace Decoder

variable {α : Type}

theorem annotationValue_yields_iff {levels : Nat} {value : Json} {result : Annotation} :
    (annotationValue levels).Yields value result ↔
      value.depth ≤ levels ∧ annotationOfJson? value = some result := by
  simp only [Yields, annotationValue, anything_ofJson]
  by_cases fits : value.depth ≤ levels
  · cases form : annotationOfJson? value with
    | none => simp [fits, ok_bind, form, mismatched]
    | some found => simp [fits, ok_bind, form, pure_eq_ok_iff]
  · simp [fits, broken, error_bind]

theorem classLiteralValue_yields_iff {levels : Nat} {value : Json} {result : ClassLiteral} :
    (classLiteralValue levels).Yields value result ↔
      value.depth ≤ levels ∧ classLiteralOfJson? value = some result := by
  simp only [Yields, classLiteralValue, anything_ofJson]
  by_cases fits : value.depth ≤ levels
  · cases form : classLiteralOfJson? value with
    | none => simp [fits, ok_bind, form, mismatched]
    | some found => simp [fits, ok_bind, form, pure_eq_ok_iff]
  · simp [fits, broken, error_bind]

theorem longCounter_yields_iff {levels : Nat} {value : Json} {result : SignedWord 64} :
    (longCounter levels).Yields value result ↔
      value = .integer result.toInt ∨
      ∃ text, value = .string text ∧ counterOfText? text = some result := by
  simp only [Yields, longCounter, anything_ofJson]
  cases value with
  | number numeral =>
      cases numeral with
      | integer value =>
          simp only [Json.depth, Nat.zero_le, if_true, ok_bind, Json.integer, Json.number.injEq,
            Numeral.integer.injEq, ← SignedWord.ofInt?_eq_some_iff]
          cases SignedWord.ofInt? 64 value with
          | none => simp [mismatched]
          | some found => simp [pure_eq_ok_iff]
      | real value => simp [Json.depth, ok_bind, mismatched, Json.integer]
  | string text =>
      simp only [Json.depth, Nat.zero_le, if_true, ok_bind, Json.integer]
      cases counted : counterOfText? text with
      | none => simp [counted, mismatched]
      | some found => simp [counted, pure_eq_ok_iff]
  | null => simp [Json.depth, ok_bind, mismatched, Json.integer]
  | bool value => simp [Json.depth, ok_bind, mismatched, Json.integer]
  | array items => split <;> simp [ok_bind, error_bind, mismatched, broken, Json.integer]
  | object members => split <;> simp [ok_bind, error_bind, mismatched, broken, Json.integer]

theorem integerCounter_yields_iff {levels : Nat} {value : Json} {result : SignedWord 32} :
    (integerCounter levels).Yields value result ↔
      ∃ long, (longCounter levels).Yields value long ∧ long.toInt = result.toInt := by
  simp only [Yields, integerCounter, bind_eq_ok_iff, ← SignedWord.ofInt?_eq_some_iff]
  refine exists_congr fun long => and_congr_right fun _ => ?_
  cases SignedWord.ofInt? 32 long.toInt with
  | none => simp [mismatched]
  | some found => simp [pure_eq_ok_iff]

theorem maybe_yields_iff {source : Source} {levels : Nat} {decoder : Nat → Decoder α}
    {value : Json} {result : Option α} :
    (maybe source levels decoder).Yields value result ↔
      ∃ owned, (optional (opening (.record "MaybeOwned")
          (fun inner => (maybeRecord (decoder inner)).decode source "MaybeOwned")
          levels)).Yields value owned ∧
        match owned with
        | none => result = none
        | some (false, _, ()) => result = none
        | some (true, inner, ()) => inner.isSome = true ∧ result = inner := by
  simp only [Yields, maybe, bind_eq_ok_iff]
  refine exists_congr fun owned => and_congr_right fun _ => ?_
  rcases owned with _ | ⟨_ | _, _ | inner, ⟨⟩⟩
  · exact pure_eq_ok_iff.trans eq_comm
  · exact pure_eq_ok_iff.trans eq_comm
  · exact pure_eq_ok_iff.trans eq_comm
  · simp [mismatched]
  · exact pure_eq_ok_iff.trans (by simp [eq_comm])

theorem frame_yields_iff {source : Source} {levels : Nat} {value : Json} {result : StackFrame} :
    (frame source (levels + 1)).Yields value result ↔
      (frameRecord.decode source "StackFrame").Yields value
        (result.declaringClass, result.methodName, result.fileName, result.lineNumber, ()) := by
  simp only [Yields, frame, opening, bind_eq_ok_iff, pure_eq_ok_iff, Prod.exists]
  constructor
  · rintro ⟨_, _, _, _, ⟨⟩, found, rfl⟩
    exact found
  · exact fun found => ⟨_, _, _, _, (), found, rfl⟩

theorem cause_yields_iff {source : Source} {levels : Nat} {value : Json}
    {result : FailureCause} :
    (cause source (levels + 1)).Yields value result ↔
      ((causeRecord source levels (cause source levels)).decode source "FailureCause").Yields value
        (result.outer.exceptionType, result.outer.message, result.outer.stackTrace,
          result.inner?, ()) := by
  simp only [Yields, cause, bind_eq_ok_iff, Prod.exists]
  constructor
  · rintro ⟨_, _, _, inner, ⟨⟩, found, whole⟩
    cases inner with
    | none =>
        rw [pure_eq_ok_iff] at whole
        subst whole
        exact found
    | some inner =>
        rw [pure_eq_ok_iff] at whole
        subst whole
        exact found
  · intro found
    refine ⟨_, _, _, _, (), found, ?_⟩
    rcases result with ⟨outer, _ | ⟨second, later⟩⟩
    · rfl
    · rfl

theorem description_succ (source : Source) (levels : Nat) :
    description source (levels + 1) =
      describe source levels (listAt (description source) levels) := by
  cases levels with
  | zero => rfl
  | succ levels => rfl

theorem description_yields_iff {source : Source} {levels : Nat} {value : Json}
    {result : RemoteDescription} :
    (description source (levels + 1)).Yields value result ↔
      ((descriptionRecord levels (listAt (description source) levels)).decode source
        "RemoteDescription").Yields value
        (result.displayName, result.annotations, result.testClass, result.children, ()) := by
  obtain ⟨displayName, annotations, testClass, children⟩ := result
  rw [description_succ]
  simp only [Yields, describe, bind_eq_ok_iff, pure_eq_ok_iff, Prod.exists]
  constructor
  · rintro ⟨_, _, _, _, ⟨⟩, found, same⟩
    obtain ⟨rfl, rfl, rfl, rfl⟩ := RemoteDescription.mk.inj same
    exact found
  · exact fun found => ⟨_, _, _, _, (), found, rfl⟩

theorem failure_yields_iff {source : Source} {levels : Nat} {value : Json}
    {result : RemoteFailure} :
    (failure source (levels + 1)).Yields value result ↔
      ((failureRecord source levels).decode source "RemoteFailure").Yields value
        (result.description, result.cause, ()) := by
  simp only [Yields, failure, opening, bind_eq_ok_iff, pure_eq_ok_iff, Prod.exists]
  constructor
  · rintro ⟨_, _, ⟨⟩, found, rfl⟩
    exact found
  · exact fun found => ⟨_, _, (), found, rfl⟩

theorem summary_yields_iff {source : Source} {levels : Nat} {value : Json} {result : RunSummary} :
    (summary source (levels + 1)).Yields value result ↔
      ((summaryRecord source levels).decode source "RunSummary").Yields value
        (result.count, result.ignoreCount, result.runTime, result.startTime, result.failures,
          ()) := by
  simp only [Yields, summary, opening, bind_eq_ok_iff, pure_eq_ok_iff, Prod.exists]
  constructor
  · rintro ⟨_, _, _, _, _, ⟨⟩, found, rfl⟩
    exact found
  · exact fun found => ⟨_, _, _, _, _, (), found, rfl⟩

theorem detail_yields_iff {source : Source} {levels : Nat} {value : Json}
    {result : ResultDetail} :
    (detail source (levels + 1)).Yields value result ↔
      ((detailRecord source levels).decode source "TestResultDetail").Yields value
        (result.classname, result.testResult, result.passedMethods, result.ignoredMethods,
          result.failedMethods, ()) := by
  simp only [Yields, detail, opening, bind_eq_ok_iff, pure_eq_ok_iff, Prod.exists]
  constructor
  · rintro ⟨_, _, _, _, _, ⟨⟩, found, rfl⟩
    exact found
  · exact fun found => ⟨_, _, _, _, _, (), found, rfl⟩

theorem maybeRecord_names (decoder : Decoder α) :
    (maybeRecord decoder).names = ["present", "value"] := rfl

theorem frameRecord_names :
    frameRecord.names = ["declaringClass", "methodName", "fileName", "lineNumber"] := rfl

theorem causeRecord_names (source : Source) (levels : Nat) (inner : Decoder FailureCause) :
    (causeRecord source levels inner).names =
      ["type", "class", "message", "detailMessage", "stackTrace", "cause"] := rfl

theorem descriptionRecord_names (levels : Nat) (children : Decoder (List RemoteDescription)) :
    (descriptionRecord levels children).names =
      ["fDisplayName", "displayName", "fAnnotations", "annotations", "fTestClass", "testClass",
        "fChildren", "children"] := rfl

theorem failureRecord_names (source : Source) (levels : Nat) :
    (failureRecord source levels).names =
      ["description", "fDescription", "cause", "fThrownException"] := rfl

theorem summaryRecord_names (source : Source) (levels : Nat) :
    (summaryRecord source levels).names =
      ["count", "ignoreCount", "runTime", "startTime", "failures"] := rfl

theorem detailRecord_names (source : Source) (levels : Nat) :
    (detailRecord source levels).names =
      ["classname", "testResult", "passedMethods", "ignoredMethods", "failedMethods"] := rfl

end Decoder

end TestDelegation
