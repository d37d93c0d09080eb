import TestDelegation.Proofs.Codec.ReportedMethods

/-!
Members that only mark a value say nothing of it: payloads that differ in them alone are decoded to
the same. Main statement: `decode_agrees_of_unmarked`. A number or a string without a value is
refused in a marker as anywhere else.
-/

namespace TestDelegation

def markerFields : List String := ["fUniqueId", "uniqueId"]

/-- A value without the markers of its objects. The keys of a method map are not markers. -/
def Json.unmarked (keysAreFields : Bool) : Json → Json
  | .null => .null
  | .bool value => .bool value
  | .number value => .number value
  | .string value => .string value
  | .array items => .array (unmarkedItems items)
  | .object members => .object (unmarkedMembers keysAreFields members)
where
  unmarkedItems : List Json → List Json
    | [] => []
    | item :: rest => item.unmarked true :: unmarkedItems rest
  unmarkedMembers (keysAreFields : Bool) : List (String × Json) → List (String × Json)
    | [] => []
    | (key, value) :: rest =>
      if keysAreFields && markerFields.contains key then unmarkedMembers keysAreFields rest
      else (key, value.unmarked (!(keysAreFields && key == methodMapField))) ::
        unmarkedMembers keysAreFields rest

namespace Codec

theorem drops_default (keysAreFields : Bool) (key : String) :
    Codec.default.drops keysAreFields key = (keysAreFields && markerFields.contains key) := by
  rw [drops]
  congr 1
  simp only [fieldKind?, markerFields, List.contains_cons, List.contains_nil, Bool.or_false]
  grind [Codec.default, isExcluded]

theorem kept_default (keysAreFields : Bool) (value : Json) :
    Codec.default.kept keysAreFields value = value.unmarked keysAreFields := by
  induction value using Json.induct generalizing keysAreFields with
  | null => rfl
  | bool _ => rfl
  | number _ => rfl
  | string _ => rfl
  | array items ih =>
      rw [kept, Json.unmarked]
      congr 1
      induction items with
      | nil => rfl
      | cons first rest later =>
          obtain ⟨firstSame, restSame⟩ := List.forall_mem_cons.mp ih
          rw [kept.keptItems, Json.unmarked.unmarkedItems, firstSame, later restSame]
  | object members ih =>
      rw [kept, Json.unmarked]
      congr 1
      induction members with
      | nil => rfl
      | cons first rest later =>
          obtain ⟨firstSame, restSame⟩ := List.forall_mem_cons.mp ih
          rw [kept.keptMembers, Json.unmarked.unmarkedMembers, drops_default, firstSame,
            later restSame]
          rfl

variable {first second text : String} {value other : Json} {detail : ResultDetail}

theorem object_of_unmarked_sorted {keysAreFields : Bool} :
    (∃ members, value.sorted.unmarked keysAreFields = .object members) ↔
      ∃ members, value = .object members := by
  cases value <;> simp [Json.sorted, Json.unmarked]

theorem decodeDetail_eq_ok_iff_unmarked (parsed : Json.parse text = .ok value)
    (distinct : value.DistinctKeys) :
    Codec.default.decodeDetail text = .ok detail ↔
      (∃ members, value.sorted.unmarked true = .object members) ∧
        (Decoder.detail .value levelLimit).Yields (value.sorted.unmarked true) detail := by
  rw [object_of_unmarked_sorted, ← kept_default]
  constructor
  · intro decoded
    obtain ⟨members, whole, _⟩ := object_of_decodeDetail parsed decoded
    exact ⟨⟨members, whole⟩, ((decodeDetail_eq_ok_iff parsed).mp decoded).2.2⟩
  · rintro ⟨⟨members, rfl⟩, yields⟩
    have notArray : ∀ items, Json.object members ≠ .array items := by simp
    obtain ⟨_, fits⟩ := Json.parse_eq_ok_iff.mp parsed
    have plain : (Decoder.detail .text levelLimit).Yields (.object members) detail :=
      (Decoder.detail_yields_iff_of_alike default_dropsMarkersOnly notArray fits
        (alike_kept_sorted distinct)).mpr yields
    exact (decodeDetail_eq_ok_iff parsed).mpr
      ⟨checkMethodMap_eq_ok parsed notArray plain, fun _ => not_lacks_default, yields⟩

theorem decode_of_unmarked (parsed : Json.parse first = .ok value)
    (parsedOther : Json.parse second = .ok other) (distinct : value.DistinctKeys)
    (distinctOther : other.DistinctKeys)
    (same : value.sorted.unmarked true = other.sorted.unmarked true) :
    (∀ detail, Codec.default.decodeDetail first = .ok detail ↔
      Codec.default.decodeDetail second = .ok detail) ∧
    ∀ set, Codec.default.decode first = .ok set ↔ Codec.default.decode second = .ok set := by
  have details : ∀ detail, Codec.default.decodeDetail first = .ok detail ↔
      Codec.default.decodeDetail second = .ok detail := by
    intro detail
    rw [decodeDetail_eq_ok_iff_unmarked parsed distinct,
      decodeDetail_eq_ok_iff_unmarked parsedOther distinctOther, same]
  refine ⟨details, fun set => ?_⟩
  rw [decode, decode, bind_eq_ok_iff, bind_eq_ok_iff]
  exact exists_congr fun detail => and_congr_left fun _ => details detail

theorem decode_agrees_of_unmarked (valid : Json.Valid first) (validOther : Json.Valid second)
    (distinct : (Json.scan first).value.every Scan.keysApart = true)
    (distinctOther : (Json.scan second).value.every Scan.keysApart = true) :
    (∀ text ∈ [first, second], (Json.scan text).value.every Scan.hasValue = false →
      ∃ error, Codec.default.decodeDetail text = .error (.notJson error) ∧
        Codec.default.decode text = .error (.notJson error)) ∧
    ((Json.scan first).value.every Scan.hasValue = true →
      (Json.scan second).value.every Scan.hasValue = true →
      ∃ value other, Json.parse first = .ok value ∧ Json.parse second = .ok other ∧
        (value.sorted.unmarked true = other.sorted.unmarked true →
          (∀ detail, Codec.default.decodeDetail first = .ok detail ↔
            Codec.default.decodeDetail second = .ok detail) ∧
          ∀ set, Codec.default.decode first = .ok set ↔
            Codec.default.decode second = .ok set)) := by
  constructor
  · intro text among spoiled
    have validText : Json.Valid text := by
      rcases List.mem_pair.mp among with rfl | rfl
      · exact valid
      · exact validOther
    obtain ⟨error, refused⟩ := decodeDetail_of_spoiled Codec.default validText spoiled
    refine ⟨error, refused, ?_⟩
    rw [decode, refused]
    rfl
  · intro spelled spelledOther
    obtain ⟨value, parsed, apart⟩ := Json.exists_parse_of_spelled valid spelled distinct
    obtain ⟨other, parsedOther, apartOther⟩ :=
      Json.exists_parse_of_spelled validOther spelledOther distinctOther
    exact ⟨value, other, parsed, parsedOther,
      decode_of_unmarked parsed parsedOther apart apartOther⟩

def failedPayload (above within : List (String × Json)) : Json :=
  .object (above ++ [("passedMethods", .array []), ("ignoredMethods", .array []),
    ("failedMethods", .object [("uniqueId",
      .object (within ++ [("cause", .object [("message", .string "late")])]))])])

def misleadingMarker : Json :=
  .object [("failedMethods", .object [("uniqueId", .object [("cause", .object [])])])]

theorem clean_failedPayload {above within : List (String × Json)}
    (aboveClean : NamedMembers Json.Clean ["uniqueId"] above)
    (withinClean : NamedMembers Json.Clean ["fUniqueId"] within) :
    (failedPayload above within).Clean := by
  have cause : (Json.object [("message", .string "late")]).Clean :=
    Json.clean_object ["message"] (by decide) (.cons (Json.clean_string "late") .nil)
  have failure := Json.clean_object (["fUniqueId"] ++ ["cause"]) (by decide)
    (withinClean.append (.cons cause .nil))
  have methods := Json.clean_object ["uniqueId"] (by decide) (.cons failure .nil)
  refine Json.clean_object
    (["uniqueId"] ++ ["passedMethods", "ignoredMethods", "failedMethods"]) (by decide)
    (aboveClean.append ?_)
  exact .cons (Json.clean_texts []) (.cons (Json.clean_texts []) (.cons methods .nil))

theorem clean_misleadingMarker : misleadingMarker.Clean := by
  have cause : (Json.object []).Clean := Json.clean_object [] List.nodup_nil .nil
  have failure := Json.clean_object ["cause"] (by decide) (.cons cause .nil)
  have methods := Json.clean_object ["uniqueId"] (by decide) (.cons failure .nil)
  exact Json.clean_object ["failedMethods"] (by decide) (.cons methods .nil)

theorem decode_failedPayload_of_unmarked :
    let plain := failedPayload [] []
    let marked := failedPayload [("uniqueId", misleadingMarker)] [("fUniqueId", misleadingMarker)]
    Json.Valid plain.render ∧ Json.Valid marked.render ∧
      (Json.scan plain.render).value.every Scan.keysApart = true ∧
      (Json.scan marked.render).value.every Scan.keysApart = true ∧
      (Json.scan plain.render).value.every Scan.hasValue = true ∧
      (Json.scan marked.render).value.every Scan.hasValue = true ∧
      plain.sorted.unmarked true = marked.sorted.unmarked true ∧
      (∀ detail, Codec.default.decodeDetail plain.render = .ok detail ↔
        Codec.default.decodeDetail marked.render = .ok detail) ∧
      ∀ set, Codec.default.decode plain.render = .ok set ↔
        Codec.default.decode marked.render = .ok set := by
  intro plain marked
  have clean : plain.Clean :=
    clean_failedPayload ⟨List.nil_sublist _, nofun⟩ ⟨List.nil_sublist _, nofun⟩
  have cleanMarked : marked.Clean := clean_failedPayload (.cons clean_misleadingMarker .nil)
    (.cons clean_misleadingMarker .nil)
  have parsed := Json.parse_render clean.exact (by decide)
  have parsedMarked := Json.parse_render cleanMarked.exact (by decide)
  have valid := Json.valid_of_parse parsed
  have validMarked := Json.valid_of_parse parsedMarked
  have distinct := (Json.keysApart_of_parse_iff parsed).mpr clean.distinct
  have distinctMarked := (Json.keysApart_of_parse_iff parsedMarked).mpr cleanMarked.distinct
  have spelled := (Json.exists_parse_eq_ok_iff valid).mp ⟨plain, parsed⟩
  have spelledMarked := (Json.exists_parse_eq_ok_iff validMarked).mp ⟨marked, parsedMarked⟩
  have same : plain.sorted.unmarked true = marked.sorted.unmarked true := by rfl
  obtain ⟨_, agree⟩ := decode_agrees_of_unmarked valid validMarked distinct distinctMarked
  obtain ⟨value, other, found, foundOther, agree⟩ := agree spelled spelledMarked
  obtain rfl := Except.ok.inj (parsed.symm.trans found)
  obtain rfl := Except.ok.inj (parsedMarked.symm.trans foundOther)
  exact ⟨valid, validMarked, distinct, distinctMarked, spelled, spelledMarked, same, agree same⟩

def unhalvedPayload : String :=
  "\x7b\"passedMethods\":[\"a\"],\"ignoredMethods\":[],\"failedMethods\":\x7b\x7d\x7d"

set_option maxRecDepth 20000 in
theorem parse_unhalvedPayload : Json.parse unhalvedPayload = .ok (.object bareMembers) :=
  Json.parse_eq_ok_iff.mpr ⟨by cbv, by decide⟩

theorem decodeDetail_unhalvedPayload :
    Codec.default.decodeDetail unhalvedPayload = .ok ⟨none, none, ["a"], [], .empty⟩ := by
  have distinct : (Json.object bareMembers).DistinctKeys := by
    rw [← Scan.keysApart_ofJson_iff]
    decide
  refine (decodeDetail_default_eq_ok_iff parse_unhalvedPayload (by simp) distinct).mpr ?_
  rw [Decoder.ofText_eq parse_unhalvedPayload]
  rfl

theorem not_decode_agrees_halvedPayload :
    Json.Valid halvedPayload ∧ Json.Valid unhalvedPayload ∧
      (Json.scan halvedPayload).value.every Scan.keysApart = true ∧
      (Json.scan unhalvedPayload).value.every Scan.keysApart = true ∧
      (Json.scan halvedPayload).value = .object ((.ok "fUniqueId", .string (.error .malformed)) ::
        Scan.ofJson.ofMembers bareMembers) none ∧
      (Json.scan unhalvedPayload).value = .object (Scan.ofJson.ofMembers bareMembers) none ∧
      Codec.default.decodeDetail unhalvedPayload = .ok ⟨none, none, ["a"], [], .empty⟩ ∧
      ∃ error, Codec.default.decodeDetail halvedPayload = .error (.notJson error) := by
  obtain ⟨scanned, _⟩ := Json.parse_eq_ok_iff.mp parse_unhalvedPayload
  refine ⟨valid_halvedPayload, Json.valid_of_parse parse_unhalvedPayload, ?_, ?_, ?_, ?_,
    decodeDetail_unhalvedPayload, decodeDetail_of_spoiled Codec.default valid_halvedPayload ?_⟩
  · rw [scan_halvedPayload]; decide
  · rw [scanned]; decide
  · rw [scan_halvedPayload]
  · rw [scanned]; rfl
  · rw [scan_halvedPayload]; decide

end Codec

end TestDelegation
