import TestDelegation.Proofs.Codec.Decoding
import TestDelegation.Proofs.Codec.Kinds
import TestDelegation.Proofs.Payload.Acceptance

/-!
The values that decode to a failure cause. Main statement: `Decoder.cause_decodes_iff_givenBy`. An
object gives its parts by name and an array gives them in order, and on the parts both are judged
alike.
-/

namespace TestDelegation

/--
The parts that a value gives for fields with these names. An object gives no field twice, be it
under two of its names; an array gives the first ones.
-/
inductive Json.Gives (fields : List (List String)) : Json → List (Option Json) → Prop
  | byName {members : List (String × Json)} :
      (∀ names ∈ fields, (membersNamed names members).length ≤ 1) →
      Gives fields (.object members)
        (fields.map fun names => (membersNamed names members).head?.map Prod.snd)
  | inOrder {items : List Json} : items.length ≤ fields.length →
      Gives fields (.array items)
        (items.map some ++ List.replicate (fields.length - items.length) none)

def OptionalPart {α : Type} (spells : α → Json → Prop) : Option α → Option Json → Prop
  | none, part => part = none ∨ part = some .null
  | some inner, part => ∃ value, part = some value ∧ spells inner value

/-- A part that may be left out, but not null. -/
def DefaultedPart {α : Type} (spells : α → Json → Prop) (absent result : α) :
    Option Json → Prop
  | none => result = absent
  | some value => spells result value

def StackFrame.GivenBy (frame : StackFrame) (value : Json) : Prop :=
  ∃ fileName lineNumber,
    value.Gives [["declaringClass"], ["methodName"], ["fileName"], ["lineNumber"]]
      [some (.string frame.declaringClass), some (.string frame.methodName), fileName,
        lineNumber] ∧
    OptionalPart SpellsText frame.fileName fileName ∧
    DefaultedPart SignedWord.SpelledBy (.zero 32) frame.lineNumber lineNumber

/-- The value gives these fields of the throwable, and this part for its cause. -/
def Thrown.GivenBy (thrown : Thrown) (value : Json) (cause : Option Json) : Prop :=
  ∃ exceptionType message stackTrace,
    value.Gives [["type", "class"], ["message", "detailMessage"], ["stackTrace"], ["cause"]]
      [exceptionType, message, stackTrace, cause] ∧
    OptionalPart SpellsText thrown.exceptionType exceptionType ∧
    OptionalPart SpellsText thrown.message message ∧
    DefaultedPart (SpellsList StackFrame.GivenBy) [] thrown.stackTrace stackTrace

inductive FailureCause.GivenBy : FailureCause → Json → Prop
  | innermost {outer : Thrown} {value : Json} {cause : Option Json} :
      outer.GivenBy value cause → cause = none ∨ cause = some .null → GivenBy ⟨outer, []⟩ value
  | caused {outer : Thrown} {inner : FailureCause} {value cause : Json} :
      outer.GivenBy value (some cause) → GivenBy inner cause →
      GivenBy ⟨outer, inner.chain⟩ value

theorem FailureCause.givenBy_iff {cause : FailureCause} {value : Json} :
    cause.GivenBy value ↔
      ∃ part, cause.outer.GivenBy value part ∧ OptionalPart GivenBy cause.inner? part := by
  constructor
  · intro given
    cases given with
    | innermost outer last => exact ⟨_, outer, last⟩
    | caused outer inner => exact ⟨_, outer, _, rfl, inner⟩
  · rintro ⟨part, outer, last⟩
    obtain ⟨thrown, nested⟩ := cause
    cases nested with
    | nil => exact .innermost outer last
    | cons second later =>
        obtain ⟨_, rfl, inner⟩ := last
        exact .caused outer inner

namespace Json.Gives

variable {fields : List (List String)} {value : Json} {parts : List (Option Json)}

theorem depth_le {levels : Nat} {given : Json} (gives : value.Gives fields parts)
    (listed : some given ∈ parts) (fits : value.depth ≤ levels + 1) : given.depth ≤ levels := by
  cases gives with
  | byName _ =>
      obtain ⟨names, _, found⟩ := List.mem_map.mp listed
      obtain ⟨member, first, rfl⟩ := Option.map_eq_some_iff.mp found
      obtain ⟨inMembers, _⟩ := List.mem_filter.mp (List.mem_of_head? first)
      exact depth_object_le_succ_iff.mp fits member inMembers
  | inOrder _ =>
      rcases List.mem_append.mp listed with item | cut
      · exact depth_array_le_succ_iff.mp fits given (by simpa using item)
      · simp at cut

theorem depth_pos (gives : value.Gives fields parts) : 0 < value.depth := by
  cases gives with
  | byName _ => simp [depth]
  | inOrder _ => simp [depth]

end Json.Gives

theorem FailureCause.not_givenBy_null {cause : FailureCause} : ¬cause.GivenBy .null := by
  rw [givenBy_iff]
  rintro ⟨_, ⟨_, _, _, gives, _⟩, _⟩
  exact absurd gives.depth_pos (by simp [Json.depth])

variable {α β σ : Type}

def Field.Takes (field : Field α) : Option Json → α → Prop
  | none, value => field.absent = some value
  | some given, value => field.decoder.Yields given value

theorem Field.given_iff_takes {field : Field α} {members : List (String × Json)} {value : α} :
    field.Given members value ↔
      (membersNamed field.names members).length ≤ 1 ∧
      field.Takes ((membersNamed field.names members).head?.map Prod.snd) value := by
  rw [Given, answers_eq_membersNamed]
  cases membersNamed field.names members with
  | nil => simp [Takes]
  | cons member later =>
      cases later with
      | nil => simp [Takes]
      | cons _ _ => simp

namespace Record

def fieldNames {σ α : Type} : Record σ α → List (List String)
  | .done => []
  | .field head tail => head.names :: tail.fieldNames

def Cuttable {σ α : Type} : Record σ α → Prop
  | .done => True
  | .field head tail => (head.absent ≠ none → head.mayBeCut = true) ∧ tail.Cuttable

def Takes {σ α : Type} : Record σ α → List (Option Json) → α → Prop
  | .done, parts, () => parts = []
  | .field _ _, [], _ => False
  | .field head tail, part :: parts, (value, values) =>
    head.Takes part value ∧ tail.Takes parts values

theorem takes_field_iff {head : Field α} {tail : Record σ β} {parts : List (Option Json)}
    {value : α} {values : β} :
    (Record.field head tail).Takes parts (value, values) ↔
      ∃ part rest, parts = part :: rest ∧ head.Takes part value ∧ tail.Takes rest values := by
  cases parts <;> simp [Takes]

theorem takes_done_iff {parts : List (Option Json)} : Record.done.Takes parts () ↔ parts = [] :=
  Iff.rfl

variable {record : Record σ α} {values : α}

theorem gives_iff_takes {members : List (String × Json)} :
    record.Gives members values ↔
      (∀ names ∈ record.fieldNames, (membersNamed names members).length ≤ 1) ∧
      record.Takes
        (record.fieldNames.map fun names => (membersNamed names members).head?.map Prod.snd)
        values := by
  induction record with
  | done => simp [Gives, fieldNames, Takes]
  | field head tail ih =>
      obtain ⟨value, values⟩ := values
      rw [Gives, Field.given_iff_takes, ih, fieldNames, List.map_cons, Takes,
        List.forall_mem_cons]
      exact and_and_and_comm

theorem givesInOrder_iff_takes (cuttable : record.Cuttable) {items : List Json} :
    record.GivesInOrder items values ↔
      items.length ≤ record.fieldNames.length ∧
      record.Takes
        (items.map some ++ List.replicate (record.fieldNames.length - items.length) none)
        values := by
  induction record generalizing items with
  | done => cases items <;> simp [GivesInOrder, fieldNames, Takes]
  | field head tail ih =>
      obtain ⟨value, values⟩ := values
      obtain ⟨headCuttable, tailCuttable⟩ := cuttable
      cases items with
      | nil =>
          have rest := @ih values tailCuttable []
          simp only [List.length_nil, Nat.zero_le, true_and, List.map_nil, List.nil_append,
            Nat.sub_zero] at rest
          simp only [GivesInOrder, fieldNames, Takes, Field.Takes, rest, List.length_nil,
            List.length_cons, Nat.zero_le, true_and, List.map_nil, List.nil_append, Nat.sub_zero,
            List.replicate_succ]
          refine and_iff_right_of_imp fun taken => headCuttable ?_
          simp [taken.1]
      | cons item items =>
          rw [GivesInOrder, ih tailCuttable, fieldNames, List.length_cons, List.length_cons,
            Nat.add_le_add_iff_right, Nat.add_sub_add_right, List.map_cons, List.cons_append,
            Takes]
          exact and_left_comm

theorem decode_yields_iff_takes {source : Source} {name : String} {value : Json}
    (apart : record.names.Nodup) (cuttable : record.Cuttable) :
    (record.decode source name).Yields value values ↔
      ∃ parts, value.Gives record.fieldNames parts ∧ record.Takes parts values := by
  rw [decode_yields_iff apart]
  constructor
  · rintro (⟨members, rfl, given⟩ | ⟨items, rfl, given⟩)
    · obtain ⟨once, takes⟩ := gives_iff_takes.mp given
      exact ⟨_, .byName once, takes⟩
    · obtain ⟨short, takes⟩ := (givesInOrder_iff_takes cuttable).mp given
      exact ⟨_, .inOrder short, takes⟩
  · rintro ⟨_, gives, takes⟩
    cases gives with
    | byName once => exact .inl ⟨_, rfl, gives_iff_takes.mpr ⟨once, takes⟩⟩
    | inOrder short => exact .inr ⟨_, rfl, (givesInOrder_iff_takes cuttable).mpr ⟨short, takes⟩⟩

end Record

namespace Field

variable {name : String} {aliases : List String} {decoder : Decoder α} {part : Option Json}

theorem takes_required_text_iff {text : String} :
    (required name [] Decoder.string).Takes part text ↔ part = some (.string text) := by
  cases part with
  | none => simp [Takes, required]
  | some given => simp [Takes, required, Decoder.string_yields_iff]

theorem takes_defaulted_iff {absent result : α} {spells : α → Json → Prop}
    (each : ∀ given, part = some given → (decoder.Yields given result ↔ spells result given)) :
    (defaulted name aliases decoder absent).Takes part result ↔
      DefaultedPart spells absent result part := by
  cases part with
  | none => simp [Takes, defaulted, DefaultedPart, eq_comm]
  | some given => exact each given rfl

theorem takes_optional_iff {result : Option α} {spells : α → Json → Prop}
    (notNull : ∀ inner, ¬spells inner .null)
    (each : ∀ given, part = some given → ∀ inner,
      decoder.Yields given inner ↔ spells inner given) :
    (defaulted name aliases (Decoder.optional decoder) none).Takes part result ↔
      OptionalPart spells result part := by
  cases part with
  | none => cases result <;> simp [Takes, defaulted, OptionalPart]
  | some given =>
      change (Decoder.optional decoder).Yields given result ↔ _
      rw [Decoder.optional_yields_iff]
      simp only [each given rfl]
      cases result with
      | none => simp [OptionalPart]
      | some inner =>
          have filled : spells inner given → given ≠ .null := by
            rintro spelled rfl
            exact notNull inner spelled
          simpa [OptionalPart] using filled

theorem takes_optional_text_iff {result : Option String} :
    (defaulted name aliases (Decoder.optional Decoder.string) none).Takes part result ↔
      OptionalPart SpellsText result part :=
  takes_optional_iff nofun fun _ _ _ => Decoder.string_yields_iff

end Field

namespace Decoder

theorem listAt_yields_iff_spellsList {decoder : Nat → Decoder α} {spells : α → Json → Prop}
    {levels : Nat} {results : List α} {value : Json} (fits : value.depth ≤ levels)
    (each : ∀ inner < levels, ∀ item : Json, item.depth ≤ inner → ∀ result,
      (decoder inner).Yields item result ↔ spells result item) :
    (listAt decoder levels).Yields value results ↔ SpellsList spells results value := by
  cases levels with
  | zero =>
      refine iff_of_false not_opening_zero_yields ?_
      rintro ⟨items, rfl, _⟩
      simp [Json.depth] at fits
  | succ levels =>
      refine list_yields_iff.trans (exists_congr fun items => and_congr_right ?_)
      rintro rfl
      have within := Json.depth_array_le_succ_iff.mp fits
      have spelled := @forall₂_map_iff _ _ _ (decoder levels).Yields (flip spells) id items results
        fun item listed result => each levels (Nat.lt_succ_self levels) item (within item listed)
          result
      rw [List.map_id] at spelled
      exact spelled.trans ⟨List.Forall₂.flip, List.Forall₂.flip⟩

theorem frameRecord_takes_iff {parts : List (Option Json)} {result : StackFrame} :
    frameRecord.Takes parts
        (result.declaringClass, result.methodName, result.fileName, result.lineNumber, ()) ↔
      ∃ fileName lineNumber,
        parts = [some (.string result.declaringClass), some (.string result.methodName), fileName,
          lineNumber] ∧
        OptionalPart SpellsText result.fileName fileName ∧
        DefaultedPart SignedWord.SpelledBy (.zero 32) result.lineNumber lineNumber := by
  have line : ∀ part, (Field.defaulted "lineNumber" [] (word 32) (.zero 32)).Takes part
      result.lineNumber ↔ DefaultedPart SignedWord.SpelledBy (.zero 32) result.lineNumber part :=
    fun part => Field.takes_defaulted_iff fun _ _ => word_yields_iff
  simp only [frameRecord, Record.takes_field_iff, Record.takes_done_iff,
    Field.takes_required_text_iff, Field.takes_optional_text_iff, line]
  constructor
  · rintro ⟨_, _, rfl, rfl, _, _, rfl, rfl, fileName, _, rfl, named, lineNumber, _, rfl, placed,
      rfl⟩
    exact ⟨fileName, lineNumber, rfl, named, placed⟩
  · rintro ⟨fileName, lineNumber, rfl, named, placed⟩
    exact ⟨_, _, rfl, rfl, _, _, rfl, rfl, _, _, rfl, named, _, _, rfl, placed, rfl⟩

theorem frame_yields_iff_givenBy {source : Source} {levels : Nat} {value : Json}
    {result : StackFrame} (fits : value.depth ≤ levels) :
    (frame source levels).Yields value result ↔ result.GivenBy value := by
  cases levels with
  | zero =>
      refine iff_of_false not_opening_zero_yields ?_
      rintro ⟨_, _, gives, _⟩
      have deep := gives.depth_pos
      omega
  | succ levels =>
      rw [frame_yields_iff, Record.decode_yields_iff_takes (by rw [frameRecord_names]; decide)
        (by simp [frameRecord, Record.Cuttable, Field.required, Field.defaulted])]
      simp only [frameRecord_takes_iff]
      constructor
      · rintro ⟨_, gives, fileName, lineNumber, rfl, rest⟩
        exact ⟨fileName, lineNumber, gives, rest⟩
      · rintro ⟨fileName, lineNumber, gives, rest⟩
        exact ⟨_, gives, fileName, lineNumber, rfl, rest⟩

theorem causeRecord_takes_iff {source : Source} {levels : Nat} {parts : List (Option Json)}
    {result : FailureCause} (within : ∀ given, some given ∈ parts → given.depth ≤ levels)
    (nested : ∀ given : Json, given.depth ≤ levels → ∀ inner,
      (cause source levels).Yields given inner ↔ inner.GivenBy given) :
    (causeRecord source levels (cause source levels)).Takes parts
        (result.outer.exceptionType, result.outer.message, result.outer.stackTrace,
          result.inner?, ()) ↔
      ∃ exceptionType message stackTrace part,
        parts = [exceptionType, message, stackTrace, part] ∧
        OptionalPart SpellsText result.outer.exceptionType exceptionType ∧
        OptionalPart SpellsText result.outer.message message ∧
        DefaultedPart (SpellsList StackFrame.GivenBy) [] result.outer.stackTrace stackTrace ∧
        OptionalPart FailureCause.GivenBy result.inner? part := by
  have frames : ∀ part, part ∈ parts →
      ((Field.defaulted "stackTrace" [] (listAt (frame source) levels) []).Takes part
        result.outer.stackTrace ↔
      DefaultedPart (SpellsList StackFrame.GivenBy) [] result.outer.stackTrace part) := by
    intro part listed
    refine Field.takes_defaulted_iff fun given same => ?_
    refine listAt_yields_iff_spellsList (within given (same ▸ listed)) ?_
    exact fun inner _ item itemFits result => frame_yields_iff_givenBy itemFits
  have inner : ∀ part, part ∈ parts →
      ((Field.defaulted "cause" [] (optional (cause source levels)) none).Takes part
        result.inner? ↔ OptionalPart FailureCause.GivenBy result.inner? part) := by
    intro part listed
    refine Field.takes_optional_iff (fun inner => FailureCause.not_givenBy_null) ?_
    exact fun given same => nested given (within given (same ▸ listed))
  simp only [causeRecord, Record.takes_field_iff, Record.takes_done_iff,
    Field.takes_optional_text_iff]
  constructor
  · rintro ⟨exceptionType, _, rfl, typed, message, _, rfl, told, stackTrace, _, rfl, placed, part,
      _, rfl, caused, rfl⟩
    exact ⟨exceptionType, message, stackTrace, part, rfl, typed, told,
      (frames stackTrace (by simp)).mp placed, (inner part (by simp)).mp caused⟩
  · rintro ⟨exceptionType, message, stackTrace, part, rfl, typed, told, placed, caused⟩
    exact ⟨_, _, rfl, typed, _, _, rfl, told, _, _, rfl, (frames stackTrace (by simp)).mpr placed,
      _, _, rfl, (inner part (by simp)).mpr caused, rfl⟩

theorem cause_yields_iff_givenBy {source : Source} {levels : Nat} {value : Json}
    {result : FailureCause} (fits : value.depth ≤ levels) :
    (cause source levels).Yields value result ↔ result.GivenBy value := by
  -- the parts of a value lie one level below it, so the levels are enough for its own cause too
  induction levels generalizing value result with
  | zero =>
      refine iff_of_false not_noLevel_yields fun given => ?_
      obtain ⟨_, ⟨_, _, _, gives, _⟩, _⟩ := FailureCause.givenBy_iff.mp given
      have deep := gives.depth_pos
      omega
  | succ levels ih =>
      rw [cause_yields_iff, Record.decode_yields_iff_takes (by rw [causeRecord_names]; decide)
        (by simp [causeRecord, Record.Cuttable, Field.defaulted]), FailureCause.givenBy_iff]
      constructor
      · rintro ⟨parts, gives, takes⟩
        obtain ⟨exceptionType, message, stackTrace, part, rfl, typed, told, placed, caused⟩ :=
          (causeRecord_takes_iff (fun given listed => gives.depth_le listed fits)
            fun given givenFits inner => ih givenFits).mp takes
        exact ⟨part, ⟨exceptionType, message, stackTrace, gives, typed, told, placed⟩, caused⟩
      · rintro ⟨part, ⟨exceptionType, message, stackTrace, gives, typed, told, placed⟩, caused⟩
        refine ⟨_, gives, (causeRecord_takes_iff (fun given listed => gives.depth_le listed fits)
          fun given givenFits inner => ih givenFits).mpr ?_⟩
        exact ⟨exceptionType, message, stackTrace, part, rfl, typed, told, placed, caused⟩

theorem cause_sorted_yields_iff_givenBy {source : Source} {levels : Nat} {value : Json}
    {result : FailureCause} (distinct : value.DistinctKeys) (fits : value.depth ≤ levels) :
    (cause source levels).Yields value.sorted result ↔ result.GivenBy value := by
  have agree := @cause_agree Codec.empty levels Codec.empty_dropsMarkersOnly source source
  rw [← cause_yields_iff_givenBy fits, agree fits (Codec.alike_sorted distinct)]

/--
Levels that are enough for the value are enough to decode it, and a text that is read whole opens no
more than a decoder may.
-/
theorem cause_decodes_iff_givenBy {value : Json} (distinct : value.DistinctKeys)
    (result : FailureCause) :
    (∀ source levels, value.depth ≤ levels →
      ((cause source levels).Yields value result ↔ result.GivenBy value) ∧
      ((cause source levels).Yields value.sorted result ↔ result.GivenBy value)) ∧
    ∀ text, Json.parse text = .ok value →
      (ofText (cause .text) text = .ok result ↔ result.GivenBy value) ∧
      (ofJson (cause .value) value.sorted = .ok result ↔ result.GivenBy value) := by
  refine ⟨?_, ?_⟩
  · intro source levels fits
    exact ⟨cause_yields_iff_givenBy fits, cause_sorted_yields_iff_givenBy distinct fits⟩
  · intro text parsed
    obtain ⟨_, fits⟩ := Json.parse_eq_ok_iff.mp parsed
    rw [ofText_eq_ok_iff parsed, cause_yields_iff_givenBy fits]
    exact ⟨Iff.rfl, cause_sorted_yields_iff_givenBy distinct fits⟩

def compactCause : Json := .object [
  ("class", .string "p.E"),
  ("extra", .bool true),
  ("cause", .array [.null, .string "inner"]),
  ("stackTrace", .array [.array [.string "C", .string "m", .null, .integer 2147483647]])]

def compactCauseRead : FailureCause :=
  ⟨⟨some "p.E", none, [⟨"C", "m", none, ⟨2147483647, by decide⟩⟩]⟩, [⟨none, some "inner", []⟩]⟩

theorem clean_compactCause : compactCause.Clean := by
  have nothing : Json.null.Clean := ⟨.null, .null⟩
  have line : (Json.integer 2147483647).Clean := ⟨.integer (by decide) (by decide), .number _⟩
  have inner : (Json.array [.null, .string "inner"]).Clean :=
    Json.clean_array (by simp [nothing, Json.clean_string])
  have frame : (Json.array [.string "C", .string "m", .null, .integer 2147483647]).Clean :=
    Json.clean_array (by simp [nothing, line, Json.clean_string])
  have frames := Json.clean_array (List.forall_mem_singleton.mpr frame)
  exact Json.clean_object ["class", "extra", "cause", "stackTrace"] (by decide)
    (.cons (Json.clean_string "p.E") (.cons (Json.clean_bool true) (.cons inner
      (.cons frames .nil))))

theorem cause_decodes_compactCause :
    compactCause.DistinctKeys ∧ compactCauseRead.GivenBy compactCause ∧
      ofText (cause .text) compactCause.render = .ok compactCauseRead ∧
      ofJson (cause .value) compactCause.sorted = .ok compactCauseRead := by
  have distinct := clean_compactCause.distinct
  obtain ⟨direct, read⟩ := cause_decodes_iff_givenBy distinct compactCauseRead
  have given := (direct .text 4 (by decide)).1.mp rfl
  obtain ⟨fromText, fromValue⟩ := read _ (Json.parse_render clean_compactCause.exact (by decide))
  exact ⟨distinct, given, fromText.mpr given, fromValue.mpr given⟩

end Decoder

end TestDelegation
