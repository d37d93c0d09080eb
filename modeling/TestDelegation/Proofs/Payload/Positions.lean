import TestDelegation.Proofs.Decoding.Positions
import TestDelegation.Proofs.Payload.Decoders

/-!
Where the records of a payload stand in its value. Main statements: `Decoder.summary_found`,
`Decoder.failure_found` and `Decoder.description_found`. What a decoded payload holds, was decoded
from a value in the place for it.
-/

namespace TestDelegation

namespace Json

def SummaryOf (payload summary : Json) : Prop :=
  ∃ owned, FieldValue ["testResult"] 1 payload owned ∧ FieldValue ["value"] 1 owned summary

inductive FailureOf (payload : Json) : Json → Prop
  | method {members : List (String × Json)} {member : String × Json} :
      FieldValue ["failedMethods"] 4 payload (.object members) → member ∈ members →
      FailureOf payload member.2
  | summary {summary : Json} {items : List Json} {item : Json} : SummaryOf payload summary →
      FieldValue ["failures"] 4 summary (.array items) → item ∈ items → FailureOf payload item

inductive DescriptionOf (payload : Json) : Json → Prop
  | failure {failure description : Json} : FailureOf payload failure →
      FieldValue ["description", "fDescription"] 0 failure description →
      DescriptionOf payload description
  | child {description : Json} {items : List Json} {item : Json} :
      DescriptionOf payload description →
      FieldValue ["fChildren", "children"] 3 description (.array items) → item ∈ items →
      DescriptionOf payload item

end Json

namespace ResultDetail

inductive Reports (detail : ResultDetail) : RemoteFailure → Prop
  | method {entry : String × RemoteFailure} : entry ∈ detail.failedMethods.entries →
      Reports detail entry.2
  | summary {summary : RunSummary} {failure : RemoteFailure} : detail.testResult = some summary →
      failure ∈ summary.failures → Reports detail failure

inductive Describes (detail : ResultDetail) : RemoteDescription → Prop
  | failure {failure : RemoteFailure} {description : RemoteDescription} :
      detail.Reports failure → failure.description = some description →
      Describes detail description
  | child {description child : RemoteDescription} : Describes detail description →
      child ∈ description.children → Describes detail child

end ResultDetail

namespace Decoder

variable {α : Type} {source : Source} {levels : Nat} {payload : Json}

theorem exists_of_listAt {decoder : Nat → Decoder α} {value : Json} {results : List α} {result : α}
    (yields : (listAt decoder levels).Yields value results) (listed : result ∈ results) :
    ∃ items item inner, value = .array items ∧ item ∈ items ∧
      (decoder inner).Yields item result := by
  cases levels with
  | zero => exact absurd yields not_opening_zero_yields
  | succ levels =>
      obtain ⟨items, rfl, each⟩ := list_yields_iff.mp yields
      obtain ⟨item, found, yields⟩ := exists_mem_of_forall₂ each listed
      exact ⟨items, item, levels, rfl, found, yields⟩

theorem exists_of_uniqueMapAt {decoder : Nat → Decoder α} {value : Json} {map : SortedMap α}
    {entry : String × α} (yields : (uniqueMapAt decoder levels).Yields value map)
    (listed : entry ∈ map.entries) :
    ∃ members member inner, value = .object members ∧ member ∈ members ∧
      (decoder inner).Yields member.2 entry.2 := by
  cases levels with
  | zero => exact absurd yields not_opening_zero_yields
  | succ levels =>
      obtain ⟨members, entries, rfl, each, same⟩ := uniqueMap_yields_iff.mp yields
      obtain ⟨member, found, yields⟩ := exists_mem_of_forall₂ each (same.mem_iff.mpr listed)
      exact ⟨members, member, levels, rfl, found, yields.2⟩

theorem yields_of_optional {decoder : Decoder α} {value : Json} {result : α}
    (yields : (optional decoder).Yields value (some result)) : decoder.Yields value result := by
  obtain ⟨_, impossible⟩ | ⟨_, inner, found, same⟩ := optional_yields_iff.mp yields
  · cases impossible
  · obtain rfl := Option.some.inj same
    exact found

theorem exists_of_maybe {decoder : Nat → Decoder α} {value : Json} {result : α}
    (yields : (maybe source levels decoder).Yields value (some result)) :
    ∃ given inner, Json.FieldValue ["value"] 1 value given ∧
      (decoder inner).Yields given result := by
  obtain ⟨owned, found, whole⟩ := maybe_yields_iff.mp yields
  rcases owned with _ | ⟨_ | _, inner, ⟨⟩⟩
  · cases whole
  · cases whole
  · obtain ⟨_, rfl⟩ := whole
    cases levels with
    | zero => exact absurd (yields_of_optional found) not_opening_zero_yields
    | succ levels =>
        have reads := Record.reads_of_decode (by rw [maybeRecord_names]; decide)
          (opening_succ_yields_iff.mp (yields_of_optional found))
        obtain ⟨_, absent | ⟨given, placed, present⟩, _⟩ := reads
        · cases absent
        · exact ⟨given, levels, placed, yields_of_optional present⟩

variable {detail : ResultDetail}

theorem summary_found {summary : RunSummary}
    (yields : (Decoder.detail source levels).Yields payload detail)
    (present : detail.testResult = some summary) :
    ∃ place inner, payload.SummaryOf place ∧
      (Decoder.summary source inner).Yields place summary := by
  cases levels with
  | zero => exact absurd yields not_opening_zero_yields
  | succ levels =>
      have reads := Record.reads_of_decode (by rw [detailRecord_names]; decide)
        (detail_yields_iff.mp yields)
      obtain ⟨_, absent | ⟨owned, placed, yields⟩, _⟩ := reads
      · rw [present] at absent
        cases absent
      · rw [present] at yields
        obtain ⟨place, inner, within, yields⟩ := exists_of_maybe yields
        exact ⟨place, inner, ⟨owned, placed, within⟩, yields⟩

theorem failure_found {failure : RemoteFailure}
    (yields : (Decoder.detail source levels).Yields payload detail)
    (reported : detail.Reports failure) :
    ∃ place inner, payload.FailureOf place ∧
      (Decoder.failure source inner).Yields place failure := by
  cases reported with
  | method listed =>
      cases levels with
      | zero => exact absurd yields not_opening_zero_yields
      | succ levels =>
          have reads := Record.reads_of_decode (by rw [detailRecord_names]; decide)
            (detail_yields_iff.mp yields)
          obtain ⟨_, _, _, _, absent | ⟨methods, placed, yields⟩, _⟩ := reads
          · cases absent
          · obtain ⟨members, member, inner, rfl, found, yields⟩ :=
              exists_of_uniqueMapAt yields listed
            exact ⟨member.2, inner, .method placed found, yields⟩
  | summary present listed =>
      obtain ⟨place, inner, summaryPlace, yields⟩ := summary_found yields present
      cases inner with
      | zero => exact absurd yields not_opening_zero_yields
      | succ inner =>
          have reads := Record.reads_of_decode (by rw [summaryRecord_names]; decide)
            (summary_yields_iff.mp yields)
          obtain ⟨_, _, _, _, absent | ⟨failures, placed, yields⟩, _⟩ := reads
          · obtain none_ := Option.some.inj absent
            rw [← none_] at listed
            cases listed
          · obtain ⟨items, item, inner, rfl, found, yields⟩ := exists_of_listAt yields listed
            exact ⟨item, inner, .summary summaryPlace placed found, yields⟩

theorem description_found {description : RemoteDescription}
    (yields : (Decoder.detail source levels).Yields payload detail)
    (described : detail.Describes description) :
    ∃ place inner, payload.DescriptionOf place ∧
      (Decoder.description source inner).Yields place description := by
  induction described with
  | failure reported present =>
      obtain ⟨place, inner, failurePlace, yields⟩ := failure_found yields reported
      cases inner with
      | zero => exact absurd yields not_opening_zero_yields
      | succ inner =>
          have reads := Record.reads_of_decode (by rw [failureRecord_names]; decide)
            (failure_yields_iff.mp yields)
          rw [present] at reads
          obtain ⟨absent | ⟨given, placed, found⟩, _⟩ := reads
          · cases absent
          · exact ⟨given, inner, .failure failurePlace placed, yields_of_optional found⟩
  | child _ listed ih =>
      obtain ⟨place, inner, descriptionPlace, yields⟩ := ih
      cases inner with
      | zero => exact absurd yields not_noLevel_yields
      | succ inner =>
          have reads := Record.reads_of_decode (by rw [descriptionRecord_names]; decide)
            (description_yields_iff.mp yields)
          obtain ⟨_, _, _, absent | ⟨children, placed, yields⟩, _⟩ := reads
          · obtain none_ := Option.some.inj absent
            rw [← none_] at listed
            cases listed
          · obtain ⟨items, item, inner, rfl, found, yields⟩ := exists_of_listAt yields listed
            exact ⟨item, inner, .child descriptionPlace placed found, yields⟩

end Decoder

end TestDelegation
