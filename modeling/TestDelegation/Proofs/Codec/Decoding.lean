import TestDelegation.Proofs.Codec.Agreement
import TestDelegation.Proofs.Json.Validity
import TestDelegation.Proofs.Payload.Encoding

/-!
The staged decode of a payload against the plain decode of its text. Main statement:
`decodeDetail_default_agrees`. The staged decode reads the whole text as a value first; the plain
decode passes over members that it does not ask for, be their numbers and strings without a value.
-/

namespace TestDelegation

variable {α : Type}

namespace Decoder

theorem ofText_eq {decoder : Nat → Decoder α} {text : String} {value : Json}
    (parsed : Json.parse text = .ok value) :
    ofText decoder text = decoder levelLimit (Scan.ofJson value) := by
  obtain ⟨scanned, _⟩ := Json.parse_eq_ok_iff.mp parsed
  rw [ofText, scanned]
  cases decoder levelLimit (Scan.ofJson value) <;> rfl

theorem ofText_eq_ok_iff {decoder : Nat → Decoder α} {text : String} {value : Json} {result : α}
    (parsed : Json.parse text = .ok value) :
    ofText decoder text = .ok result ↔ (decoder levelLimit).Yields value result := by
  rw [ofText_eq parsed, Yields]

theorem uniqueMapAt_ignored {decoder : Nat → Decoder α} {levels : Nat} {value : Json}
    {map : SortedMap α} (yields : (uniqueMapAt decoder levels).Yields value map) :
    (uniqueMapAt (fun _ => ignored) levels).Yields value (map.map fun _ => ()) := by
  cases levels with
  | zero => exact absurd yields not_opening_zero_yields
  | succ levels =>
      obtain ⟨members, entries, rfl, each, same⟩ := uniqueMap_yields_iff.mp yields
      refine uniqueMap_yields_iff.mpr ⟨members, entries.map fun entry => (entry.1, ()), rfl, ?_, ?_⟩
      · refine List.forall₂_map_right_iff.mpr (each.imp fun member entry found => ?_)
        exact ⟨found.1, ignored_yields member.2⟩
      · exact same.map fun entry => (entry.1, ())

end Decoder

theorem methodMapRecord_names (levels : Nat) : (methodMapRecord levels).names = [methodMapField] :=
  rfl

theorem methodMap_yields_of_detail {source : Source} {levels : Nat} {value : Json}
    {detail : ResultDetail} (notArray : ∀ items, value ≠ .array items)
    (yields : (Decoder.detail source levels).Yields value detail) :
    (Decoder.opening (.record "RawMethodMap") (fun levels =>
      (methodMapRecord levels).decode .text "RawMethodMap") levels).Yields value
      (detail.failedMethods.map fun _ => (), ()) := by
  cases levels with
  | zero => exact absurd yields Decoder.not_opening_zero_yields
  | succ levels =>
      obtain ⟨members, rfl, _, _, _, _, methods, _⟩ | ⟨items, rfl, _⟩ :=
        (Record.decode_yields_iff (by rw [Decoder.detailRecord_names]; decide)).mp
          (Decoder.detail_yields_iff.mp yields)
      · refine (Record.decode_yields_iff (by rw [methodMapRecord_names]; decide)).mpr
          (.inl ⟨members, rfl, ?_, trivial⟩)
        rcases methods with ⟨_, impossible⟩ | ⟨member, one, methods⟩
        · simp [Field.required] at impossible
        · have methods : (Decoder.uniqueMapAt (Decoder.failure source) levels).Yields member.2
            detail.failedMethods := methods
          exact .inr ⟨member, one, Decoder.uniqueMapAt_ignored methods⟩
      · exact absurd rfl (notArray items)

theorem checkMethodMap_eq_ok_iff {text : String} {value : Json}
    (parsed : Json.parse text = .ok value) :
    checkMethodMap text = .ok () ↔ ∃ methods, (Decoder.opening (.record "RawMethodMap")
      (fun levels => (methodMapRecord levels).decode .text "RawMethodMap") levelLimit).Yields
        value (methods, ()) := by
  rw [checkMethodMap, bind_eq_ok_iff]
  constructor
  · rintro ⟨⟨methods, ⟨⟩⟩, found, _⟩
    exact ⟨methods, (Decoder.ofText_eq_ok_iff parsed).mp found⟩
  · rintro ⟨methods, yields⟩
    exact ⟨(methods, ()), (Decoder.ofText_eq_ok_iff parsed).mpr yields, rfl⟩

theorem checkMethodMap_eq_ok {text : String} {value : Json} {detail : ResultDetail}
    (parsed : Json.parse text = .ok value) (notArray : ∀ items, value ≠ .array items)
    (yields : (Decoder.detail .text levelLimit).Yields value detail) :
    checkMethodMap text = .ok () :=
  (checkMethodMap_eq_ok_iff parsed).mpr ⟨_, methodMap_yields_of_detail notArray yields⟩

namespace Codec

variable {codec : Codec} {text : String} {value : Json} {detail : ResultDetail}

theorem decodeDetail_eq_ok_iff (parsed : Json.parse text = .ok value) :
    codec.decodeDetail text = .ok detail ↔
      checkMethodMap text = .ok () ∧ (∀ missing, ¬Lacks codec missing true value.sorted) ∧
      (Decoder.detail .value levelLimit).Yields (codec.kept true value.sorted) detail := by
  simp only [decodeDetail, parsed, bind_eq_ok_iff, mapError_eq_ok_iff, Except.ok.injEq,
    prune_eq_ok_iff]
  constructor
  · rintro ⟨_, rfl, ⟨⟩, checked, _, ⟨free, rfl⟩, yields⟩
    exact ⟨checked, free, yields⟩
  · rintro ⟨checked, free, yields⟩
    exact ⟨value, rfl, (), checked, _, ⟨free, rfl⟩, yields⟩

theorem decodeDetail_eq_ok_of_prune {walked : Json} (parsed : Json.parse text = .ok value)
    (checked : checkMethodMap text = .ok ()) (pruned : codec.prune true value.sorted = .ok walked)
    (yields : (Decoder.detail .value levelLimit).Yields walked detail) :
    codec.decodeDetail text = .ok detail := by
  obtain ⟨free, rfl⟩ := prune_eq_ok_iff.mp pruned
  exact (decodeDetail_eq_ok_iff parsed).mpr ⟨checked, free, yields⟩

theorem decodeDetail_eq_notJson {fault : Fault} (broken : Json.parse text = .error fault) :
    codec.decodeDetail text = .error (.notJson (codec.wording text (.text fault))) := by
  rw [decodeDetail, broken]
  rfl

theorem decodeDetail_eq_noAdapter {missing : MissingAdapter}
    (parsed : Json.parse text = .ok value) (checked : checkMethodMap text = .ok ())
    (stopped : codec.prune true value.sorted = .error missing) :
    codec.decodeDetail text = .error (.noAdapter missing.field missing.kind) := by
  rw [decodeDetail, parsed, checked]
  change ((codec.prune true value.sorted).mapError _ >>= _) = _
  rw [stopped]
  rfl

/-- A number or a string without a value is a fault of the text wherever it stands. -/
theorem decodeDetail_of_spoiled (codec : Codec) (valid : Json.Valid text)
    (spoiled : (Json.scan text).value.every Scan.hasValue = false) :
    ∃ error, codec.decodeDetail text = .error (.notJson error) := by
  obtain ⟨fault, broken⟩ := Json.exists_parse_eq_error valid spoiled
  exact ⟨_, decodeDetail_eq_notJson broken⟩

theorem empty_dropsMarkersOnly : Codec.empty.DropsMarkersOnly := by
  intro kind excluded
  simp [Codec.empty, isExcluded] at excluded

theorem default_dropsMarkersOnly : Codec.default.DropsMarkersOnly := by
  intro kind excluded
  cases kind <;> simp_all [Codec.default, isExcluded]

theorem not_lacks_default {missing : MissingAdapter} {keysAreFields : Bool} :
    ¬Lacks Codec.default missing keysAreFields value := by
  have adapted : ∀ {keysAreFields key}, Codec.default.drops keysAreFields key = false →
      Codec.default.missingAdapter? keysAreFields key = some missing → False := by
    intro keysAreFields key stays stops
    cases keysAreFields with
    | false => simp [missingAdapter?] at stops
    | true =>
        cases kind : fieldKind? key with
        | none => simp [missingAdapter?, kind] at stops
        | some kind_ =>
            cases kind_ <;> simp_all [missingAdapter?, drops, Codec.default, hasAdapter, isExcluded]
  intro lacks
  induction lacks with
  | item _ _ ih => exact ih
  | field _ stays stops => exact adapted stays stops
  | under _ _ _ ih => exact ih

theorem decodeDetail_eq_ok_iff_ofText (markers : codec.DropsMarkersOnly)
    (adapted : ∀ missing, ¬Lacks codec missing true value)
    (parsed : Json.parse text = .ok value) (notArray : ∀ items, value ≠ .array items)
    (distinct : value.DistinctKeys) :
    codec.decodeDetail text = .ok detail ↔
      Decoder.ofText (Decoder.detail .text) text = .ok detail := by
  obtain ⟨_, fits⟩ := Json.parse_eq_ok_iff.mp parsed
  rw [decodeDetail_eq_ok_iff parsed, Decoder.ofText_eq_ok_iff parsed,
    ← Decoder.detail_yields_iff_of_alike markers notArray fits (alike_kept_sorted distinct)]
  constructor
  · exact fun staged => staged.2.2
  · exact fun plain => ⟨checkMethodMap_eq_ok parsed notArray plain,
      fun missing lacks => adapted missing ((lacks_sorted_iff distinct).mp lacks), plain⟩

theorem decodeDetail_default_eq_ok_iff (parsed : Json.parse text = .ok value)
    (notArray : ∀ items, value ≠ .array items) (distinct : value.DistinctKeys) :
    Codec.default.decodeDetail text = .ok detail ↔
      Decoder.ofText (Decoder.detail .text) text = .ok detail :=
  decodeDetail_eq_ok_iff_ofText default_dropsMarkersOnly (fun _ => not_lacks_default) parsed
    notArray distinct

theorem decodeDetail_default_agrees (valid : Json.Valid text)
    (notArray : (Json.scan text).value.isArray = false)
    (distinct : (Json.scan text).value.every Scan.keysApart = true) :
    Codec.default.decodeDetail text = .ok detail ↔
      Decoder.ofText (Decoder.detail .text) text = .ok detail ∧
        (Json.scan text).value.every Scan.hasValue = true := by
  cases spelled : (Json.scan text).value.every Scan.hasValue with
  | false =>
      obtain ⟨error, refused⟩ := decodeDetail_of_spoiled Codec.default valid spelled
      simp [refused]
  | true =>
      obtain ⟨value, parsed, apart⟩ := Json.exists_parse_of_spelled valid spelled distinct
      have notItems : ∀ items, value ≠ .array items := by
        rintro items rfl
        simp [Json.parse_eq_ok_iff.mp parsed, Scan.ofJson, Scan.isArray] at notArray
      rw [decodeDetail_default_eq_ok_iff parsed notItems apart, and_iff_left rfl]

def markedValue : Json := .object [("fUniqueId", .string "1"), ("passedMethods", .array []),
  ("ignoredMethods", .array []), ("failedMethods", .object [])]

theorem clean_markedValue : markedValue.Clean := by
  have noMethods : (Json.object []).Clean := Json.clean_object [] List.nodup_nil .nil
  refine Json.clean_object ["fUniqueId", "passedMethods", "ignoredMethods", "failedMethods"]
    (by decide) (.cons (Json.clean_string "1") ?_)
  exact .cons (Json.clean_texts []) (.cons (Json.clean_texts []) (.cons noMethods .nil))

theorem decodeDetail_default_markedValue :
    Json.Valid markedValue.render ∧ (Json.scan markedValue.render).value.isArray = false ∧
      (Json.scan markedValue.render).value.every Scan.keysApart = true ∧
      (Codec.default.decodeDetail markedValue.render = .ok ⟨none, none, [], [], .empty⟩ ↔
        Decoder.ofText (Decoder.detail .text) markedValue.render =
            .ok ⟨none, none, [], [], .empty⟩ ∧
          (Json.scan markedValue.render).value.every Scan.hasValue = true) := by
  have parsed := Json.parse_render clean_markedValue.exact (by decide)
  have valid := Json.valid_of_parse parsed
  have notArray : (Json.scan markedValue.render).value.isArray = false := by
    rw [(Json.parse_eq_ok_iff.mp parsed).1]
    rfl
  have distinct := (Json.keysApart_of_parse_iff parsed).mpr clean_markedValue.distinct
  exact ⟨valid, notArray, distinct, decodeDetail_default_agrees valid notArray distinct⟩

def halvedPayload : String :=
  "\x7b\"fUniqueId\":\"\\ud83d\",\"passedMethods\":[\"a\"],\"ignoredMethods\":[]," ++
    "\"failedMethods\":\x7b\x7d\x7d"

def bareMembers : List (String × Json) :=
  [("passedMethods", .array [.string "a"]), ("ignoredMethods", .array []),
    ("failedMethods", .object [])]

set_option maxRecDepth 20000 in
theorem scan_halvedPayload : Json.scan halvedPayload =
    ⟨.object ((.ok "fUniqueId", .string (.error .malformed)) ::
      Scan.ofJson.ofMembers bareMembers) none, false⟩ := by
  cbv

theorem valid_halvedPayload : Json.Valid halvedPayload := by
  constructor <;> rw [scan_halvedPayload] <;> decide

theorem not_decodeDetail_agrees_halvedPayload :
    Json.Valid halvedPayload ∧ (Json.scan halvedPayload).value.isArray = false ∧
      (Json.scan halvedPayload).value.every Scan.keysApart = true ∧
      Decoder.ofText (Decoder.detail .text) halvedPayload = .ok ⟨none, none, ["a"], [], .empty⟩ ∧
      ∃ error, Codec.default.decodeDetail halvedPayload = .error (.notJson error) := by
  refine ⟨valid_halvedPayload, ?_, ?_, ?_,
    decodeDetail_of_spoiled Codec.default valid_halvedPayload ?_⟩
  · rw [scan_halvedPayload]; rfl
  · rw [scan_halvedPayload]; decide
  · rw [Decoder.ofText, scan_halvedPayload]; rfl
  · rw [scan_halvedPayload]; decide

end Codec

end TestDelegation
