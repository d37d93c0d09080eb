import TestDelegation.Proofs.Codec.ReportedMethods
import TestDelegation.Proofs.Payload.Positions

/-!
Kinds that a codec withholds: those it excludes and those it has no adapter for. Main statement:
`carriesNo_of_withheld`. The walk knows fields by their names, so it withholds nothing from a record
that is given as an array.
-/

namespace TestDelegation

/-- No field of the value holds a value of the kind. -/
inductive Json.FreeOf (kind : ValueKind) : Bool → Json → Prop
  | null {keysAreFields : Bool} : FreeOf kind keysAreFields .null
  | bool {keysAreFields : Bool} (value : Bool) : FreeOf kind keysAreFields (.bool value)
  | number {keysAreFields : Bool} (value : Numeral) : FreeOf kind keysAreFields (.number value)
  | string {keysAreFields : Bool} (value : String) : FreeOf kind keysAreFields (.string value)
  | array {keysAreFields : Bool} {items : List Json} : (∀ item ∈ items, FreeOf kind true item) →
      FreeOf kind keysAreFields (.array items)
  | object {keysAreFields : Bool} {members : List (String × Json)} :
      (keysAreFields = true → ∀ member ∈ members, fieldKind? member.1 ≠ some kind) →
      (∀ member ∈ members, FreeOf kind (fieldsBelow keysAreFields member.1) member.2) →
      FreeOf kind keysAreFields (.object members)

namespace Codec

variable {codec : Codec} {kind : ValueKind} {keysAreFields : Bool}

def Withholds (codec : Codec) (kind : ValueKind) : Prop :=
  codec.isExcluded kind = true ∨ codec.hasAdapter kind = false

theorem drops_or_missing_of_withheld {key : String} (withheld : codec.Withholds kind)
    (held : fieldKind? key = some kind) :
    codec.drops true key = true ∨ codec.missingAdapter? true key = some ⟨key, kind⟩ := by
  rcases withheld with excluded | noAdapter
  · left
    simp [drops, held, excluded]
  · right
    simp [missingAdapter?, held, noAdapter]

theorem freeOf_kept {value : Json} (withheld : codec.Withholds kind)
    (walked : ∀ missing, ¬Lacks codec missing keysAreFields value) :
    (codec.kept keysAreFields value).FreeOf kind keysAreFields := by
  induction value using Json.induct generalizing keysAreFields with
  | null => exact .null
  | bool value => exact .bool value
  | number value => exact .number value
  | string value => exact .string value
  | array items ih =>
      rw [kept, keptItems_eq_map]
      refine .array (List.forall_mem_map.mpr fun item found => ?_)
      exact ih item found fun missing lacks => walked missing (.item found lacks)
  | object members ih =>
      rw [kept, keptMembers_eq]
      refine .object (fun areFields => ?_) ?_
      · subst areFields
        refine List.forall_mem_map.mpr fun member stayed held => ?_
        obtain ⟨found, stays⟩ := List.mem_filter.mp stayed
        rw [Bool.not_eq_true'] at stays
        rcases drops_or_missing_of_withheld withheld held with dropped | stops
        · rw [stays] at dropped
          cases dropped
        · exact walked _ (.field found stays stops)
      · refine List.forall_mem_map.mpr fun member stayed => ?_
        obtain ⟨found, stays⟩ := List.mem_filter.mp stayed
        rw [Bool.not_eq_true'] at stays
        exact ih member found fun missing lacks => walked missing (.under found stays lacks)

end Codec

namespace Json

variable {kind : ValueKind} {payload place : Json}

theorem FieldValue.freeOf {names : List String} {index : Nat} {value inner : Json}
    (found : FieldValue names index value inner) (free : value.FreeOf kind true)
    (plain : methodMapField ∉ names) : inner.FreeOf kind true := by
  cases found with
  | named member named =>
      cases free with
      | object _ each =>
          have below := each _ member
          rwa [fieldsBelow_of_ne fun same => plain (same ▸ named)] at below
  | placed item =>
      cases free with
      | array each => exact each _ (List.mem_of_getElem? item)

theorem FreeOf.item {items : List Json} {item : Json} (free : (Json.array items).FreeOf kind true)
    (found : item ∈ items) : item.FreeOf kind true := by
  cases free with
  | array each => exact each item found

theorem SummaryOf.freeOf (summary : payload.SummaryOf place) (free : payload.FreeOf kind true) :
    place.FreeOf kind true := by
  obtain ⟨owned, placed, within⟩ := summary
  exact within.freeOf (placed.freeOf free (by decide)) (by decide)

theorem FailureOf.freeOf (failure : payload.FailureOf place) (free : payload.FreeOf kind true)
    (notArray : ∀ items, payload ≠ .array items) : place.FreeOf kind true := by
  cases failure with
  | method placed found =>
      generalize methods : Json.object _ = map at placed
      cases placed with
      | named member named =>
          cases free with
          | object _ each =>
              -- the keys of the method map are no fields, but below each of them there are fields
              have below := each _ member
              rw [List.mem_singleton.mp named, ← methods] at below
              cases below with
              | object _ each => exact each _ found
      | placed _ => exact absurd rfl (notArray _)
  | summary summary placed found =>
      exact (placed.freeOf (summary.freeOf free) (by decide)).item found

theorem DescriptionOf.freeOf (description : payload.DescriptionOf place)
    (free : payload.FreeOf kind true) (notArray : ∀ items, payload ≠ .array items) :
    place.FreeOf kind true := by
  induction description with
  | failure failure placed => exact placed.freeOf (failure.freeOf free notArray) (by decide)
  | child _ placed found ih => exact (placed.freeOf ih (by decide)).item found

end Json

namespace Codec

variable {codec : Codec} {keysAreFields : Bool} {payload place : Json}

theorem fieldValue_of_kept {names : List String} {index : Nat} {value inner : Json}
    (found : Json.FieldValue names index (codec.kept keysAreFields value) inner) :
    ∃ below given, Json.FieldValue names index value given ∧ inner = codec.kept below given := by
  cases value with
  | array items =>
      rw [kept, keptItems_eq_map] at found
      cases found with
      | placed item =>
          rw [List.getElem?_map, Option.map_eq_some_iff] at item
          obtain ⟨given, stood, rfl⟩ := item
          exact ⟨true, given, .placed stood, rfl⟩
  | object members =>
      rw [kept, keptMembers_eq] at found
      cases found with
      | named listed named =>
          obtain ⟨member, stayed, rfl⟩ := List.mem_map.mp listed
          exact ⟨_, member.2, .named (List.mem_filter.mp stayed).1 named, rfl⟩
  | _ => cases found

theorem eq_array_of_kept {value : Json} {items : List Json}
    (walked : Json.array items = codec.kept keysAreFields value) :
    ∃ others, value = .array others ∧ items = others.map (codec.kept true) := by
  cases value with
  | array others =>
      rw [kept, keptItems_eq_map] at walked
      exact ⟨others, rfl, Json.array.inj walked⟩
  | _ => cases walked

theorem eq_object_of_kept {value : Json} {members : List (String × Json)}
    (walked : Json.object members = codec.kept keysAreFields value) :
    ∃ others, value = .object others ∧ ∀ member ∈ members, ∃ other ∈ others, ∃ below,
      member.2 = codec.kept below other.2 := by
  cases value with
  | object others =>
      rw [kept, keptMembers_eq] at walked
      refine ⟨others, rfl, fun member found => ?_⟩
      rw [Json.object.inj walked] at found
      obtain ⟨other, stayed, rfl⟩ := List.mem_map.mp found
      exact ⟨other, (List.mem_filter.mp stayed).1, _, rfl⟩
  | _ => cases walked

theorem summaryOf_of_kept (found : (codec.kept keysAreFields payload).SummaryOf place) :
    ∃ below given, payload.SummaryOf given ∧ place = codec.kept below given := by
  obtain ⟨owned, placed, within⟩ := found
  obtain ⟨_, owner, ownerPlaced, rfl⟩ := fieldValue_of_kept placed
  obtain ⟨below, given, givenPlaced, rfl⟩ := fieldValue_of_kept within
  exact ⟨below, given, ⟨owner, ownerPlaced, givenPlaced⟩, rfl⟩

theorem failureOf_of_kept (found : (codec.kept keysAreFields payload).FailureOf place) :
    ∃ below given, payload.FailureOf given ∧ place = codec.kept below given := by
  cases found with
  | method placed listed =>
      obtain ⟨_, map, mapPlaced, walked⟩ := fieldValue_of_kept placed
      obtain ⟨others, rfl, each⟩ := eq_object_of_kept walked
      obtain ⟨other, found, below, same⟩ := each _ listed
      exact ⟨below, other.2, .method mapPlaced found, same⟩
  | summary summary placed listed =>
      obtain ⟨_, given, summaryGiven, rfl⟩ := summaryOf_of_kept summary
      obtain ⟨_, list, listPlaced, walked⟩ := fieldValue_of_kept placed
      obtain ⟨others, rfl, rfl⟩ := eq_array_of_kept walked
      obtain ⟨other, found, rfl⟩ := List.mem_map.mp listed
      exact ⟨true, other, .summary summaryGiven listPlaced found, rfl⟩

theorem descriptionOf_of_kept (found : (codec.kept keysAreFields payload).DescriptionOf place) :
    ∃ below given, payload.DescriptionOf given ∧ place = codec.kept below given := by
  induction found with
  | failure failure placed =>
      obtain ⟨_, given, failureGiven, rfl⟩ := failureOf_of_kept failure
      obtain ⟨below, described, describedPlaced, rfl⟩ := fieldValue_of_kept placed
      exact ⟨below, described, .failure failureGiven describedPlaced, rfl⟩
  | child _ placed listed ih =>
      obtain ⟨_, given, description, rfl⟩ := ih
      obtain ⟨_, list, listPlaced, walked⟩ := fieldValue_of_kept placed
      obtain ⟨others, rfl, rfl⟩ := eq_array_of_kept walked
      obtain ⟨other, found, rfl⟩ := List.mem_map.mp listed
      exact ⟨true, other, .child description listPlaced found, rfl⟩

end Codec

variable {kind : ValueKind}

def RunSummary.Without (summary : RunSummary) : ValueKind → Prop
  | .atomicInteger => summary.count = .zero 32 ∧ summary.ignoreCount = .zero 32
  | .atomicLong => summary.runTime = .zero 64 ∧ summary.startTime = .zero 64
  | _ => True

def RemoteDescription.Without (description : RemoteDescription) : ValueKind → Prop
  | .annotations => description.annotations = []
  | .classLiteral => description.testClass = none
  | _ => True

structure ResultDetail.CarriesNo (detail : ResultDetail) (kind : ValueKind) : Prop where
  testResult : kind = .maybe → detail.testResult = none
  summary : ∀ summary, detail.testResult = some summary → summary.Without kind
  description : ∀ description, detail.Describes description → description.Without kind

/-- No record that has fields of the kind is given as an array. -/
def Json.Keyed (payload : Json) : ValueKind → Prop
  | .atomicInteger => ∀ items, ¬payload.SummaryOf (.array items)
  | .atomicLong => ∀ items, ¬payload.SummaryOf (.array items)
  | .annotations => ∀ items, ¬payload.DescriptionOf (.array items)
  | .classLiteral => ∀ items, ¬payload.DescriptionOf (.array items)
  | .maybe => True
  | .serializableMarker => True

theorem Field.eq_default_of_freeOf {α : Type} {name : String} {aliases : List String}
    {decoder : Decoder α} {default value : α} {members : List (String × Json)}
    (given : (defaulted name aliases decoder default).Given members value)
    (free : (Json.object members).FreeOf kind true)
    (held : ∀ key ∈ name :: aliases, fieldKind? key = some kind) : value = default := by
  obtain ⟨_, absent⟩ | ⟨member, one, _⟩ := given
  · exact (Option.some.inj absent).symm
  · have answered : member ∈ (defaulted name aliases decoder default).answers members := by
      simp [one]
    obtain ⟨found, named⟩ := List.mem_filter.mp answered
    cases free with
    | object kindless _ =>
        exact absurd (held _ (Field.answersTo_iff.mp named)) (kindless rfl member found)

namespace Decoder

variable {source : Source} {levels : Nat} {payload place : Json}

theorem summary_without {summary : RunSummary}
    (yields : (Decoder.summary source levels).Yields place summary)
    (free : place.FreeOf kind true) (notArray : ∀ items, place ≠ .array items) :
    summary.Without kind := by
  cases levels with
  | zero => exact absurd yields not_opening_zero_yields
  | succ levels =>
      obtain ⟨members, rfl, count, ignoreCount, runTime, startTime, _⟩ | ⟨items, rfl, _⟩ :=
        (Record.decode_yields_iff (by rw [summaryRecord_names]; decide)).mp
          (summary_yields_iff.mp yields)
      · cases kind with
        | atomicInteger =>
            exact ⟨Field.eq_default_of_freeOf count free (by decide),
              Field.eq_default_of_freeOf ignoreCount free (by decide)⟩
        | atomicLong =>
            exact ⟨Field.eq_default_of_freeOf runTime free (by decide),
              Field.eq_default_of_freeOf startTime free (by decide)⟩
        | _ => trivial
      · exact absurd rfl (notArray items)

theorem description_without {description : RemoteDescription}
    (yields : (Decoder.description source levels).Yields place description)
    (free : place.FreeOf kind true) (notArray : ∀ items, place ≠ .array items) :
    description.Without kind := by
  cases levels with
  | zero => exact absurd yields not_noLevel_yields
  | succ levels =>
      obtain ⟨members, rfl, _, annotations, testClass, _⟩ | ⟨items, rfl, _⟩ :=
        (Record.decode_yields_iff (by rw [descriptionRecord_names]; decide)).mp
          (description_yields_iff.mp yields)
      · cases kind with
        | annotations => exact Field.eq_default_of_freeOf annotations free (by decide)
        | classLiteral => exact Field.eq_default_of_freeOf testClass free (by decide)
        | _ => trivial
      · exact absurd rfl (notArray items)

theorem testResult_without {detail : ResultDetail}
    (yields : (Decoder.detail source levels).Yields payload detail)
    (free : payload.FreeOf .maybe true) (notArray : ∀ items, payload ≠ .array items) :
    detail.testResult = none := by
  cases levels with
  | zero => exact absurd yields not_opening_zero_yields
  | succ levels =>
      obtain ⟨members, rfl, _, testResult, _⟩ | ⟨items, rfl, _⟩ :=
        (Record.decode_yields_iff (by rw [detailRecord_names]; decide)).mp
          (detail_yields_iff.mp yields)
      · exact Field.eq_default_of_freeOf testResult free (by decide)
      · exact absurd rfl (notArray items)

theorem detail_carriesNo {detail : ResultDetail}
    (yields : (Decoder.detail source levels).Yields payload detail)
    (free : payload.FreeOf kind true) (notArray : ∀ items, payload ≠ .array items)
    (keyed : payload.Keyed kind) : detail.CarriesNo kind := by
  refine ⟨?_, ?_, ?_⟩
  · rintro rfl
    exact testResult_without yields free notArray
  · intro summary present
    obtain ⟨place, inner, summaryPlace, found⟩ := summary_found yields present
    have without : (∀ items, place ≠ .array items) → summary.Without kind :=
      summary_without found (summaryPlace.freeOf free)
    cases kind with
    | atomicInteger => exact without fun items same => keyed items (same ▸ summaryPlace)
    | atomicLong => exact without fun items same => keyed items (same ▸ summaryPlace)
    | _ => trivial
  · intro description described
    obtain ⟨place, inner, descriptionPlace, found⟩ := description_found yields described
    have without : (∀ items, place ≠ .array items) → description.Without kind :=
      description_without found (descriptionPlace.freeOf free notArray)
    cases kind with
    | annotations => exact without fun items same => keyed items (same ▸ descriptionPlace)
    | classLiteral => exact without fun items same => keyed items (same ▸ descriptionPlace)
    | _ => trivial

end Decoder

namespace Codec

variable {codec : Codec} {text : String} {value : Json} {detail : ResultDetail}

theorem keyed_kept {keysAreFields : Bool} (keyed : value.Keyed kind) :
    (codec.kept keysAreFields value).Keyed kind := by
  have summaries : (∀ items, ¬value.SummaryOf (.array items)) →
      ∀ items, ¬(codec.kept keysAreFields value).SummaryOf (.array items) := by
    intro absent items found
    obtain ⟨_, given, placed, walked⟩ := summaryOf_of_kept found
    obtain ⟨others, rfl, _⟩ := eq_array_of_kept walked
    exact absent others placed
  have descriptions : (∀ items, ¬value.DescriptionOf (.array items)) →
      ∀ items, ¬(codec.kept keysAreFields value).DescriptionOf (.array items) := by
    intro absent items found
    obtain ⟨_, given, placed, walked⟩ := descriptionOf_of_kept found
    obtain ⟨others, rfl, _⟩ := eq_array_of_kept walked
    exact absent others placed
  cases kind with
  | annotations => exact descriptions keyed
  | maybe => trivial
  | atomicInteger => exact summaries keyed
  | atomicLong => exact summaries keyed
  | classLiteral => exact descriptions keyed
  | serializableMarker => trivial

/-- A withheld kind is told by names, so records given as arrays have to be kept out. -/
theorem carriesNo_of_withheld (withheld : codec.Withholds kind)
    (parsed : Json.parse text = .ok value) (decoded : codec.decodeDetail text = .ok detail)
    (keyed : value.sorted.Keyed kind) : detail.CarriesNo kind := by
  obtain ⟨members, rfl, _⟩ := object_of_decodeDetail parsed decoded
  obtain ⟨_, walked, yields⟩ := (decodeDetail_eq_ok_iff parsed).mp decoded
  obtain ⟨others, same, _⟩ := kept_sorted_object codec members
  have notArray : ∀ items, codec.kept true (Json.object members).sorted ≠ .array items := by
    simp [same]
  exact Decoder.detail_carriesNo yields (freeOf_kept withheld walked) notArray (keyed_kept keyed)

def summaryPayload (summary : Json) : Json := .object [
  ("testResult", .object [("present", .bool true), ("value", summary)]),
  ("passedMethods", .array []), ("ignoredMethods", .array []), ("failedMethods", .object [])]

def summaryDetail (count : SignedWord 32) : ResultDetail :=
  ⟨none, some ⟨count, .zero 32, .zero 64, .zero 64, []⟩, [], [], .empty⟩

def namedCount : Json := .object [("count", .integer 3)]

def placedCount : Json := .array [.integer 3]

def withoutIntegers : Codec := default.exclude .atomicInteger

theorem withoutIntegers_withholds : withoutIntegers.Withholds .atomicInteger := .inl rfl

theorem clean_three : (Json.integer 3).Clean := ⟨.integer (by decide) (by decide), .number _⟩

theorem parse_summaryPayload {summary : Json} (clean : summary.Clean)
    (fits : (summaryPayload summary).depth ≤ levelLimit) :
    Json.parse (summaryPayload summary).render = .ok (summaryPayload summary) := by
  have owned := Json.clean_object ["present", "value"] (by decide)
    (.cons (Json.clean_bool true) (.cons clean .nil))
  have noMethods : (Json.object []).Clean := Json.clean_object [] List.nodup_nil .nil
  refine Json.parse_render (Json.Clean.exact ?_) fits
  refine Json.clean_object ["testResult", "passedMethods", "ignoredMethods", "failedMethods"]
    (by decide) (.cons owned ?_)
  exact .cons (Json.clean_texts []) (.cons (Json.clean_texts []) (.cons noMethods .nil))

theorem parse_namedCount :
    Json.parse (summaryPayload namedCount).render = .ok (summaryPayload namedCount) :=
  parse_summaryPayload (Json.clean_object ["count"] (by decide) (.cons clean_three .nil))
    (by decide)

theorem parse_placedCount :
    Json.parse (summaryPayload placedCount).render = .ok (summaryPayload placedCount) := by
  have placed : (Json.array ([3].map Json.integer)).Clean :=
    Json.clean_array_map fun value listed => by
      rw [List.mem_singleton.mp listed]
      exact clean_three
  exact parse_summaryPayload placed (by decide)

theorem decodeDetail_namedCount :
    withoutIntegers.decodeDetail (summaryPayload namedCount).render =
      .ok (summaryDetail (.zero 32)) :=
  decodeDetail_eq_ok_of_prune parse_namedCount
    ((checkMethodMap_eq_ok_iff parse_namedCount).mpr ⟨.empty, rfl⟩) rfl rfl

theorem decodeDetail_placedCount :
    withoutIntegers.decodeDetail (summaryPayload placedCount).render =
      .ok (summaryDetail ⟨3, by decide⟩) :=
  decodeDetail_eq_ok_of_prune parse_placedCount
    ((checkMethodMap_eq_ok_iff parse_placedCount).mpr ⟨.empty, rfl⟩) rfl rfl

theorem keyed_namedCount : (summaryPayload namedCount).sorted.Keyed .atomicInteger := by
  rintro items ⟨owned, placed, within⟩
  have sorted : (summaryPayload namedCount).sorted = .object [("failedMethods", .object []),
    ("ignoredMethods", .array []), ("passedMethods", .array []),
    ("testResult", .object [("present", .bool true), ("value", namedCount)])] := rfl
  rw [sorted, Json.fieldValue_object_iff] at placed
  obtain rfl : Json.object [("present", .bool true), ("value", namedCount)] = owned := by
    simpa using placed
  rw [Json.fieldValue_object_iff] at within
  simp [namedCount] at within

theorem carriesNo_of_withheld_namedCount :
    withoutIntegers.Withholds .atomicInteger ∧
      Json.parse (summaryPayload namedCount).render = .ok (summaryPayload namedCount) ∧
      withoutIntegers.decodeDetail (summaryPayload namedCount).render =
        .ok (summaryDetail (.zero 32)) ∧
      (summaryPayload namedCount).sorted.Keyed .atomicInteger ∧
      (summaryDetail (.zero 32)).CarriesNo .atomicInteger :=
  ⟨withoutIntegers_withholds, parse_namedCount, decodeDetail_namedCount, keyed_namedCount,
    carriesNo_of_withheld withoutIntegers_withholds parse_namedCount decodeDetail_namedCount
      keyed_namedCount⟩

theorem not_carriesNo_placedCount :
    withoutIntegers.Withholds .atomicInteger ∧
      withoutIntegers.decodeDetail (summaryPayload placedCount).render =
        .ok (summaryDetail ⟨3, by decide⟩) ∧
      ¬(summaryDetail ⟨3, by decide⟩).CarriesNo .atomicInteger := by
  refine ⟨withoutIntegers_withholds, decodeDetail_placedCount, ?_⟩
  intro carriesNo
  exact absurd (carriesNo.summary _ rfl).1 (by decide)

end Codec

end TestDelegation
