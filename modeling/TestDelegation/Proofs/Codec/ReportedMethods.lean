import TestDelegation.Proofs.Codec.Decoding
import TestDelegation.Proofs.Outcome

/-!
The methods that a payload reports against those of the set it decodes to. Main statement:
`holds_of_decode`. Repeated failed methods and repeated maps of them are refused, but of several
lists of passed or of ignored methods the last alone is decoded.
-/

namespace TestDelegation

def OutcomeKind.field : OutcomeKind → String
  | .passed => "passedMethods"
  | .ignored => "ignoredMethods"
  | .failed => methodMapField

def OutcomeKind.reported : OutcomeKind → Json → List String
  | .passed, .array items => items.filterMap Json.text?
  | .ignored, .array items => items.filterMap Json.text?
  | .failed, .object members => members.map Prod.fst
  | _, _ => []

namespace Field

variable {α : Type} {members : List (String × Json)} {value : α}

theorem given_required_iff {name : String} {decoder : Decoder α} :
    (required name [] decoder).Given members value ↔
      ∃ given, valuesOf name members = [given] ∧ decoder.Yields given value := by
  have answered : (required name [] decoder).answers members =
      members.filter fun member => member.1 == name := by
    simp [answers, answersTo, required]
  rw [Given, answered, valuesOf]
  constructor
  · rintro (⟨_, impossible⟩ | ⟨member, one, yields⟩)
    · simp [required] at impossible
    · exact ⟨member.2, by rw [one, List.map_singleton], yields⟩
  · rintro ⟨given, one, yields⟩
    obtain ⟨member, single, rfl⟩ := List.map_eq_singleton_iff.mp one
    exact .inr ⟨member, single, yields⟩

theorem length_answers_le_one {field : Field α} (given : field.Given members value) :
    (field.answers members).length ≤ 1 := by
  obtain ⟨none_, _⟩ | ⟨member, one, _⟩ := given
  · simp [none_]
  · simp [one]

end Field

namespace Codec

variable {codec : Codec}

theorem kept_sorted_object (codec : Codec) (members : List (String × Json)) :
    ∃ others, codec.kept true (Json.object members).sorted = .object others ∧
      ∀ key, fieldKind? key = none → valuesOf key others =
        (valuesOf key members).getLast?.toList.map fun value =>
          codec.kept (fieldsBelow true key) value.sorted := by
  rw [Json.sorted, Json.sortedMembers_eq_map, kept, keptMembers_eq]
  refine ⟨_, rfl, ?_⟩
  intro key kindless
  have stays : (!codec.drops true key) = true := by
    rw [drops, kindless]
    rfl
  rw [valuesOf_map key (fun key value => codec.kept (fieldsBelow true key) value),
    valuesOf_filter (fun key => !codec.drops true key) stays, valuesOf_sortedEntries,
    valuesOf_map key (fun _ => Json.sorted), List.getLast?_map]
  cases (valuesOf key members).getLast? with
  | none => rfl
  | some value => rfl

theorem mem_reported_kept_sorted_iff (codec : Codec) (kind : OutcomeKind) {method : String}
    {value : Json} :
    method ∈ kind.reported (codec.kept (fieldsBelow true kind.field) value.sorted) ↔
      method ∈ kind.reported value := by
  have text : ∀ item, (codec.kept true (Json.sorted item)).text? = item.text? := by
    intro item
    cases item <;> rfl
  have texts : ∀ items : List Json,
      (kept.keptItems codec (Json.sorted.sortedItems items)).filterMap Json.text? =
        items.filterMap Json.text? := by
    intro items
    rw [keptItems_eq_map, Json.sortedItems_eq_map, List.map_map, List.filterMap_map]
    exact List.filterMap_congr fun item _ => text item
  cases value with
  | array items =>
      cases kind with
      | passed => rw [Json.sorted, kept, OutcomeKind.reported, texts]; rfl
      | ignored => rw [Json.sorted, kept, OutcomeKind.reported, texts]; rfl
      | failed => exact Iff.rfl
  | object members =>
      cases kind with
      | passed => exact Iff.rfl
      | ignored => exact Iff.rfl
      | failed =>
          have whole : ∀ key, (!codec.drops false key) = true := fun _ => rfl
          rw [OutcomeKind.field, fieldsBelow_methodMapField, Json.sorted,
            Json.sortedMembers_eq_map, kept, keptMembers_eq, OutcomeKind.reported,
            OutcomeKind.reported, List.map_map]
          simp only [whole, List.filter_true]
          refine mem_map_fst_sortedEntries.trans ?_
          simp
  | _ => cases kind <;> exact Iff.rfl

end Codec

namespace Decoder

variable {levels : Nat} {value : Json}

theorem texts_of_list {texts : List String}
    (yields : (listAt (fun _ => string) levels).Yields value texts) :
    ∃ items, value = .array items ∧ items.filterMap Json.text? = texts := by
  cases levels with
  | zero => exact absurd yields not_opening_zero_yields
  | succ levels =>
      obtain ⟨items, rfl, each⟩ := list_yields_iff.mp yields
      refine ⟨items, rfl, ?_⟩
      clear yields
      induction each with
      | nil => rfl
      | cons first _ ih =>
          obtain rfl := string_yields_iff.mp first
          exact congrArg _ ih

theorem keys_of_uniqueMap {α : Type} {decoder : Nat → Decoder α} {map : SortedMap α}
    (yields : (uniqueMapAt decoder levels).Yields value map) :
    ∃ members, value = .object members ∧
      (members.map Prod.fst).Perm (map.entries.map Prod.fst) := by
  cases levels with
  | zero => exact absurd yields not_opening_zero_yields
  | succ levels =>
      obtain ⟨members, entries, rfl, each, same⟩ := uniqueMap_yields_iff.mp yields
      refine ⟨members, rfl, ?_⟩
      have keys : members.map Prod.fst = entries.map Prod.fst := by
        clear yields same
        induction each with
        | nil => rfl
        | cons first _ ih => rw [List.map_cons, List.map_cons, first.1, ih]
      rw [keys]
      exact same.map Prod.fst

end Decoder

namespace OutcomeSet

variable {set : OutcomeSet}

/-- The methods of a kind are those that the values report. -/
def Holds (set : OutcomeSet) (kind : OutcomeKind) (values : List Json) : Prop :=
  ∀ method, method ∈ set.ofKind kind ↔ ∃ value ∈ values, method ∈ kind.reported value

theorem holds_of_walked {levels : Nat} {others : List (String × Json)} {detail : ResultDetail}
    (yields : (Decoder.detail .value levels).Yields (.object others) detail)
    (made : ofDetail detail = .ok set) (kind : OutcomeKind) :
    ∃ given, valuesOf kind.field others = [given] ∧ set.Holds kind [given] := by
  cases levels with
  | zero => exact absurd yields Decoder.not_opening_zero_yields
  | succ levels =>
      obtain ⟨_, same, _, _, passed, ignored, failed, _⟩ | ⟨_, impossible, _⟩ :=
        (Record.decode_yields_iff (by rw [Decoder.detailRecord_names]; decide)).mp
          (Decoder.detail_yields_iff.mp yields)
      · obtain rfl := Json.object.inj same
        cases kind with
        | passed =>
            obtain ⟨given, one, yields⟩ := Field.given_required_iff.mp passed
            obtain ⟨items, rfl, texts⟩ := Decoder.texts_of_list yields
            refine ⟨_, one, fun method => ?_⟩
            change method ∈ set.passed ↔ _
            rw [passed_of_ofDetail made, mem_distinctNames, ← texts]
            simp [OutcomeKind.reported]
        | ignored =>
            obtain ⟨given, one, yields⟩ := Field.given_required_iff.mp ignored
            obtain ⟨items, rfl, texts⟩ := Decoder.texts_of_list yields
            refine ⟨_, one, fun method => ?_⟩
            change method ∈ set.ignored ↔ _
            rw [ignored_of_ofDetail made, mem_distinctNames, ← texts]
            simp [OutcomeKind.reported]
        | failed =>
            obtain ⟨given, one, yields⟩ := Field.given_required_iff.mp failed
            obtain ⟨failures, rfl, keys⟩ := Decoder.keys_of_uniqueMap yields
            refine ⟨_, one, fun method => ?_⟩
            have names : set.ofKind .failed = detail.failedMethods.entries.map Prod.fst := by
              rw [ofKind_failed, failed_of_ofDetail made, List.map_map]
              rfl
            rw [names, ← keys.mem_iff]
            simp [OutcomeKind.reported]
      · cases impossible

end OutcomeSet

theorem unrepeated_of_checkMethodMap {text : String} {value : Json}
    (parsed : Json.parse text = .ok value) (checked : checkMethodMap text = .ok ()) :
    (∃ members, value = .object members ∧ (valuesOf methodMapField members).length ≤ 1) ∨
    ∃ items, value = .array items ∧ items.length ≤ 1 := by
  obtain ⟨_, found⟩ := (checkMethodMap_eq_ok_iff parsed).mp checked
  obtain ⟨members, rfl, given, _⟩ | ⟨items, rfl, given⟩ :=
    (Record.decode_yields_iff (by rw [methodMapRecord_names]; decide)).mp found
  · refine .inl ⟨members, rfl, ?_⟩
    have answered := Field.length_answers_le_one given
    simpa [valuesOf, Field.answers, Field.answersTo, Field.defaulted] using answered
  · refine .inr ⟨items, rfl, ?_⟩
    cases items with
    | nil => simp
    | cons first rest =>
        obtain rfl : rest = [] := given.2
        simp

theorem not_detail_yields_of_short {source : Source} {levels : Nat} {items : List Json}
    {detail : ResultDetail} (short : items.length ≤ 1) :
    ¬(Decoder.detail source levels).Yields (.array items) detail := by
  intro yields
  cases levels with
  | zero => exact Decoder.not_opening_zero_yields yields
  | succ levels =>
      obtain ⟨_, impossible, _⟩ | ⟨_, same, given⟩ :=
        (Record.decode_yields_iff (by rw [Decoder.detailRecord_names]; decide)).mp
          (Decoder.detail_yields_iff.mp yields)
      · cases impossible
      · obtain rfl := Json.array.inj same
        cases items with
        | nil =>
            obtain ⟨_, _, _, _, required, _⟩ := given
            exact Bool.noConfusion required
        | cons first rest =>
            obtain rfl : rest = [] := List.length_eq_zero_iff.mp (by simpa using short)
            obtain ⟨_, _, _, required, _⟩ := given
            exact Bool.noConfusion required

theorem Codec.object_of_decodeDetail {codec : Codec} {text : String} {value : Json}
    {detail : ResultDetail} (parsed : Json.parse text = .ok value)
    (decoded : codec.decodeDetail text = .ok detail) :
    ∃ members, value = .object members ∧ (valuesOf methodMapField members).length ≤ 1 := by
  obtain ⟨checked, _, yields⟩ := (decodeDetail_eq_ok_iff parsed).mp decoded
  rcases unrepeated_of_checkMethodMap parsed checked with found | ⟨items, rfl, short⟩
  · exact found
  · -- the check of the text passes lists of at most one item, too short for a payload
    rw [Json.sorted, Json.sortedItems_eq_map, kept, keptItems_eq_map] at yields
    exact absurd yields (not_detail_yields_of_short (by simpa using short))

theorem Codec.parsed_of_decodeDetail {codec : Codec} {text : String} {detail : ResultDetail}
    (decoded : codec.decodeDetail text = .ok detail) : ∃ value, Json.parse text = .ok value := by
  cases parsed : Json.parse text with
  | ok value => exact ⟨value, rfl⟩
  | error fault =>
      rw [decodeDetail_eq_notJson parsed] at decoded
      cases decoded

namespace OutcomeSet

variable {set : OutcomeSet} {codec : Codec} {text : String}

/--
A decoded set holds what the last member of each name reports. All members are held where a name
stands once, as that of the failed methods always does.
-/
theorem holds_of_decode (decoded : codec.decode text = .ok set) :
    ∃ members, Json.parse text = .ok (.object members) ∧
      (∀ kind, set.Holds kind (valuesOf kind.field members).getLast?.toList) ∧
      set.Holds .failed (valuesOf methodMapField members) ∧
      ∀ kind, (valuesOf kind.field members).length ≤ 1 →
        set.Holds kind (valuesOf kind.field members) := by
  obtain ⟨detail, detailed, found⟩ := bind_eq_ok_iff.mp decoded
  have made : ofDetail detail = .ok set := mapError_eq_ok_iff.mp found
  obtain ⟨value, parsed⟩ := Codec.parsed_of_decodeDetail detailed
  obtain ⟨members, rfl, unrepeated⟩ := Codec.object_of_decodeDetail parsed detailed
  obtain ⟨_, _, yields⟩ := (Codec.decodeDetail_eq_ok_iff parsed).mp detailed
  obtain ⟨others, walked, values⟩ := Codec.kept_sorted_object codec members
  rw [walked] at yields
  have last : ∀ kind, set.Holds kind (valuesOf kind.field members).getLast?.toList := by
    intro kind method
    obtain ⟨given, one, holds⟩ := holds_of_walked yields made kind
    have kindless : fieldKind? kind.field = none := by cases kind <;> rfl
    rw [holds method, ← one, values kind.field kindless]
    simp only [List.mem_map, exists_exists_and_eq_and, Codec.mem_reported_kept_sorted_iff]
  have whole : ∀ kind, (valuesOf kind.field members).length ≤ 1 →
      set.Holds kind (valuesOf kind.field members) := by
    intro kind once
    have single : (valuesOf kind.field members).getLast?.toList =
        valuesOf kind.field members := by
      match values : valuesOf kind.field members, once with
      | [], _ => rfl
      | [given], _ => rfl
    rw [← single]
    exact last kind
  exact ⟨members, parsed, last, whole .failed unrepeated, whole⟩

def repeatedMembers : List (String × Json) := [
  ("passedMethods", .array [.string "a"]),
  ("passedMethods", .array [.string "b"]),
  ("ignoredMethods", .array [.string "c"]),
  (methodMapField, .object [("d", .object [("cause", .object [])])])]

def lastListed : OutcomeSet :=
  ⟨[⟨"b", .passed⟩, ⟨"c", .ignored⟩, ⟨"d", .failed ⟨{}, []⟩⟩], by decide⟩

theorem parse_repeatedMembers :
    Json.parse (Json.object repeatedMembers).render = .ok (.object repeatedMembers) := by
  have texts : ∀ names : List String, (Json.array (names.map .string)).Exact :=
    fun names => (Json.clean_texts names).exact
  have failures : (Json.object [("d", .object [("cause", .object [])])]).Exact := by
    have cause : (Json.object []).Clean := Json.clean_object [] List.nodup_nil .nil
    have failure := Json.clean_object ["cause"] (by decide) (.cons cause .nil)
    exact (Json.clean_object ["d"] (by decide) (.cons failure .nil)).exact
  refine Json.parse_render (.object ?_) (by decide)
  simp only [repeatedMembers, List.forall_mem_cons]
  exact ⟨texts ["a"], texts ["b"], texts ["c"], failures, by simp⟩

theorem decode_repeatedMembers :
    Codec.default.decode (Json.object repeatedMembers).render = .ok lastListed := by
  have checked : checkMethodMap (Json.object repeatedMembers).render = .ok () :=
    (checkMethodMap_eq_ok_iff parse_repeatedMembers).mpr ⟨SortedMap.empty.insert "d" (), rfl⟩
  have detailed : Codec.default.decodeDetail (Json.object repeatedMembers).render =
      .ok ⟨none, none, ["b"], ["c"], SortedMap.empty.insert "d" ⟨none, ⟨{}, []⟩⟩⟩ :=
    Codec.decodeDetail_eq_ok_of_prune parse_repeatedMembers checked rfl rfl
  rw [Codec.decode, detailed]
  rfl

theorem holds_of_decode_repeatedMembers :
    Codec.default.decode (Json.object repeatedMembers).render = .ok lastListed ∧
      ∃ members, Json.parse (Json.object repeatedMembers).render = .ok (.object members) ∧
        (∀ kind, lastListed.Holds kind (valuesOf kind.field members).getLast?.toList) ∧
        lastListed.Holds .failed (valuesOf methodMapField members) ∧
        ∀ kind, (valuesOf kind.field members).length ≤ 1 →
          lastListed.Holds kind (valuesOf kind.field members) :=
  ⟨decode_repeatedMembers, holds_of_decode decode_repeatedMembers⟩

/-- The method of the earlier list is in none of the partitions. -/
theorem not_holds_passed_repeatedMembers :
    Codec.default.decode (Json.object repeatedMembers).render = .ok lastListed ∧
      Json.parse (Json.object repeatedMembers).render = .ok (.object repeatedMembers) ∧
      ¬lastListed.Holds .passed (valuesOf OutcomeKind.passed.field repeatedMembers) ∧
      ∀ kind, "a" ∉ lastListed.ofKind kind := by
  have missing : ∀ kind, "a" ∉ lastListed.ofKind kind := by
    intro kind
    cases kind <;> decide
  refine ⟨decode_repeatedMembers, parse_repeatedMembers, ?_, missing⟩
  intro holds
  exact missing .passed ((holds "a").mpr ⟨.array [.string "a"], by simp [valuesOf, repeatedMembers,
    OutcomeKind.field], by simp [OutcomeKind.reported, Json.text?]⟩)

end OutcomeSet

end TestDelegation
