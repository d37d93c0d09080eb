import TestDelegation.Proofs.Codec.Decoding
import TestDelegation.Proofs.Payload.Acceptance
import TestDelegation.Proofs.Payload.Encoding

/-!
Payloads through their texts. Main statements: `decoded_of_spelled`, every spelling of a payload
decodes to it, and `decoded_of_render`, a payload comes back from its own text. That a text parses
leaves out numbers out of range and lone halves of surrogate pairs, which spell no value, and more
levels than the limit.
-/

namespace TestDelegation

variable {text : String} {value : Json} {detail : ResultDetail}

namespace ResultDetail

theorem SpelledBy.ofText_eq_ok (spelled : detail.SpelledBy value)
    (parsed : Json.parse text = .ok value) :
    Decoder.ofText (Decoder.detail .text) text = .ok detail := by
  obtain ⟨_, fits⟩ := Json.parse_eq_ok_iff.mp parsed
  exact (Decoder.ofText_eq_ok_iff parsed).mpr (Decoder.detail_yields_of_spelled fits spelled)

theorem SpelledBy.decodeDetail_eq_ok (spelled : detail.SpelledBy value)
    (parsed : Json.parse text = .ok value) (distinct : value.DistinctKeys) :
    Codec.default.decodeDetail text = .ok detail :=
  (Codec.decodeDetail_eq_ok_iff_ofText Codec.default_dropsMarkersOnly
    (fun _ => Codec.not_lacks_default) parsed spelled.ne_array distinct).mpr
    (spelled.ofText_eq_ok parsed)

theorem decoded_of_spelled (parsed : Json.parse text = .ok value)
    (distinct : value.DistinctKeys) (spelled : detail.SpelledBy value) :
    Decoder.ofText (Decoder.detail .text) text = .ok detail ∧
      Codec.default.decodeDetail text = .ok detail :=
  ⟨spelled.ofText_eq_ok parsed, spelled.decodeDetail_eq_ok parsed distinct⟩

def respelledValue : Json := .object [
  ("failedMethods", .object [("count", .object [("fThrownException", .object [
    ("class", .string "p.E"), ("extra", .null)])])]),
  ("testResult", .object [("value", .object [("count", .string " +07 ")]),
    ("present", .bool true)]),
  ("ignoredMethods", .array []),
  ("fUniqueId", .bool true),
  ("passedMethods", .array [.string "b", .string "a"])]

def respelledDetail : ResultDetail where
  classname := none
  testResult := some ⟨⟨7, by decide⟩, .zero 32, .zero 64, .zero 64, []⟩
  passedMethods := ["b", "a"]
  ignoredMethods := []
  failedMethods := SortedMap.empty.insert "count" ⟨none, ⟨⟨some "p.E", none, []⟩, []⟩⟩

theorem clean_respelledValue : respelledValue.Clean := by
  have cause : (Json.object [("class", .string "p.E"), ("extra", .null)]).Clean :=
    Json.clean_object ["class", "extra"] (by decide)
      (.cons (Json.clean_string _) (.cons ⟨.null, .null⟩ .nil))
  have failure := Json.clean_object ["fThrownException"] (by decide)
    (.cons cause .nil)
  have failures := Json.clean_object ["count"] (by decide) (.cons failure .nil)
  have summary := Json.clean_object ["count"] (by decide)
    (.cons (Json.clean_string " +07 ") .nil)
  have owned := Json.clean_object ["value", "present"] (by decide)
    (.cons summary (.cons (Json.clean_bool true) .nil))
  refine Json.clean_object
    ["failedMethods", "testResult", "ignoredMethods", "fUniqueId", "passedMethods"] (by decide)
    (.cons failures (.cons owned ?_))
  exact .cons (Json.clean_texts []) (.cons (Json.clean_bool true)
    (.cons (Json.clean_texts ["b", "a"]) .nil))

theorem spelledBy_respelledValue : respelledDetail.SpelledBy respelledValue := by
  have cause : (⟨⟨some "p.E", none, []⟩, []⟩ : FailureCause).SpelledBy
      (.object [("class", .string "p.E"), ("extra", .null)]) := by
    exact ⟨_, rfl, ⟨.inr ⟨_, rfl, rfl⟩, .inl ⟨rfl, rfl⟩, .inl ⟨rfl, rfl⟩⟩, .inl ⟨rfl, trivial⟩⟩
  have counter : Text.SpellsCounter " +07 " 7 := by
    refine ⟨[' '], ['+', '0', '7'], [' '], rfl, ?_, ?_, ['0', '7'], by simp, ?_,
      .inr (.inl ⟨rfl, rfl⟩)⟩
    · simp [Text.isBlank]
    · simp [Text.isBlank]
    · simp [Decimal.isDigit]
  refine ⟨_, rfl, .inl ⟨rfl, rfl⟩, .inr ⟨_, rfl, ?_⟩, .inr ⟨_, rfl, ?_⟩, .inr ⟨_, rfl, ?_⟩,
    .inr ⟨_, rfl, ?_⟩⟩
  · refine ⟨_, rfl, .inr ⟨_, rfl, rfl⟩, .inr ⟨_, rfl, ?_⟩⟩
    exact ⟨_, rfl, .inr ⟨_, rfl, .inr ⟨_, rfl, counter⟩⟩, .inl ⟨rfl, rfl⟩, .inl ⟨rfl, rfl⟩,
      .inl ⟨rfl, rfl⟩, .inl ⟨rfl, rfl⟩⟩
  · exact spellsList_texts ["b", "a"]
  · exact spellsList_texts []
  · refine ⟨_, _, rfl, List.Perm.refl _, .cons ⟨rfl, ?_⟩ .nil⟩
    exact ⟨_, rfl, .inl ⟨rfl, rfl⟩, .inr ⟨_, rfl, cause⟩⟩

theorem decoded_of_spelled_respelled :
    Json.parse respelledValue.render = .ok respelledValue ∧ respelledValue.DistinctKeys ∧
      respelledDetail.SpelledBy respelledValue ∧
      Decoder.ofText (Decoder.detail .text) respelledValue.render = .ok respelledDetail ∧
      Codec.default.decodeDetail respelledValue.render = .ok respelledDetail := by
  have parsed := Json.parse_render clean_respelledValue.exact (by decide)
  exact ⟨parsed, clean_respelledValue.distinct, spelledBy_respelledValue,
    decoded_of_spelled parsed clean_respelledValue.distinct spelledBy_respelledValue⟩

theorem parse_render (fits : detail.encode.depth ≤ levelLimit) :
    Json.parse detail.render = .ok detail.encode :=
  Json.parse_render detail.clean_encode.exact fits

theorem decoded_of_render (fits : detail.encode.depth ≤ levelLimit) :
    Decoder.ofText (Decoder.detail .text) detail.render = .ok detail ∧
      Codec.default.decodeDetail detail.render = .ok detail ∧
      ∀ decoded, Codec.default.decodeDetail detail.render = .ok decoded ∨
        Decoder.ofText (Decoder.detail .text) detail.render = .ok decoded →
        decoded.render = detail.render := by
  have plain := detail.spelledBy_encode.ofText_eq_ok (parse_render fits)
  have staged := detail.spelledBy_encode.decodeDetail_eq_ok (parse_render fits)
    detail.clean_encode.distinct
  refine ⟨plain, staged, ?_⟩
  rintro decoded (found | found)
  · rw [Except.ok.inj (found.symm.trans staged)]
  · rw [Except.ok.inj (found.symm.trans plain)]

def nestedCause : FailureCause :=
  ⟨⟨some "p.E", some "line\n\"two\"", [⟨"p.C", "m", none, ⟨-2, by decide⟩⟩]⟩, [⟨none, none, []⟩]⟩

def nestedDetail : ResultDetail where
  classname := some "p.C"
  testResult := some ⟨⟨3, by decide⟩, ⟨1, by decide⟩, ⟨25, by decide⟩, ⟨-1, by decide⟩,
    [⟨none, nestedCause⟩]⟩
  passedMethods := ["a", "a"]
  ignoredMethods := []
  failedMethods := SortedMap.empty.insert "count"
    ⟨some ⟨"p.C", [⟨"T"⟩], some ⟨"p.C"⟩, [⟨"m", [], none, []⟩]⟩, nestedCause⟩

theorem decoded_of_render_nested :
    nestedDetail.encode.depth ≤ levelLimit ∧
      Decoder.ofText (Decoder.detail .text) nestedDetail.render = .ok nestedDetail ∧
      Codec.default.decodeDetail nestedDetail.render = .ok nestedDetail := by
  have fits : nestedDetail.encode.depth ≤ levelLimit := by decide
  obtain ⟨plain, staged, _⟩ := decoded_of_render fits
  exact ⟨fits, plain, staged⟩

end ResultDetail

end TestDelegation
