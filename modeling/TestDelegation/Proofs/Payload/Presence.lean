import TestDelegation.Proofs.Codec.Decoding
import TestDelegation.Proofs.Json.Places

/-!
Values that may be present or not. Main statement: `maybe_follows_presence`. There are three ways to
have nothing: a null in place of it all, a flag that says so, and a null under the flag; only the
first two are values.
-/

namespace TestDelegation

variable {α : Type}

/-- The value gives a flag and perhaps a content: by name among any members, or in order. -/
inductive Json.GivesFlagged : Json → Json → Option Json → Prop
  | byName {members : List (String × Json)} {flag : Json} :
      members.lookup "present" = some flag →
      GivesFlagged (.object members) flag (members.lookup "value")
  | inOrder (flag content : Json) : GivesFlagged (.array [flag, content]) flag (some content)

def Json.NamesApart (value : Json) : Prop :=
  ∀ {members}, value = .object members → DistinctNames members

theorem Json.DistinctKeys.namesApart {value : Json} (distinct : value.DistinctKeys) :
    value.NamesApart := by
  rintro members rfl
  exact (Json.distinctKeys_object_iff.mp distinct).1

theorem Json.GivesFlagged.ne_null {value flag : Json} {given : Option Json}
    (gives : value.GivesFlagged flag given) : value ≠ .null := by
  rintro rfl
  cases gives

namespace Field

variable {field : Field α} {members : List (String × Json)}

theorem answers_eq_of_distinct (unaliased : field.aliases = []) (distinct : DistinctNames members) :
    field.answers members =
      (members.lookup field.name).toList.map fun given => (field.name, given) := by
  induction members with
  | nil => rfl
  | cons member rest ih =>
      obtain ⟨name, content⟩ := member
      obtain ⟨apart, restDistinct⟩ := List.nodup_cons.mp distinct
      have step := ih restDistinct
      rw [List.lookup_cons]
      by_cases same : field.name = name
      · subst same
        have none_ : rest.lookup field.name = none := by
          refine List.lookup_eq_none_iff.mpr fun other listed => ?_
          by_contra named
          exact apart (List.mem_map.mpr ⟨other, listed, (by simpa using named : _ = _).symm⟩)
        have asked : field.answersTo field.name = true := by simp [answersTo]
        have answered := List.filter_cons_of_pos (l := rest) (a := (field.name, content))
          (p := fun member => field.answersTo member.1) asked
        rw [none_] at step
        change List.filter _ _ = _
        rw [answered, beq_self_eq_true]
        exact congrArg _ step
      · have other : (field.name == name) = false := by simpa using same
        have unasked : field.answersTo name = false := by
          simpa [answersTo, unaliased] using Ne.symm same
        rw [other, ← step, Field.answers, List.filter_cons_of_neg (by simpa using unasked),
          Field.answers]

theorem given_iff_lookup (unaliased : field.aliases = []) (distinct : DistinctNames members)
    {value : α} :
    field.Given members value ↔
      (members.lookup field.name = none ∧ field.absent = some value) ∨
      ∃ given, members.lookup field.name = some given ∧ field.decoder.Yields given value := by
  rw [Given, answers_eq_of_distinct unaliased distinct]
  cases members.lookup field.name with
  | none => simp
  | some given => simp

end Field

namespace Decoder

def ReadsOptional (inner : Decoder α) : Option Json → Option α → Prop
  | none, result => result = none
  | some content, result => (optional inner).Yields content result

/--
What a decoded value is, for one made by this decoder under a flag. A content has to be good even
where the flag says that there is none.
-/
structure FollowsPresence (inner : Decoder α) (value : Json)
    (decoded : Except ReadError (Option α)) : Prop where
  nothing : decoded = .ok none ↔ value = .null ∨
    ∃ given, value.GivesFlagged (.bool false) given ∧
      (given = none ∨ given = some .null ∨
        ∃ content result, given = some content ∧ inner.Yields content result)
  something : ∀ result, decoded = .ok (some result) ↔
    ∃ content, value.GivesFlagged (.bool true) (some content) ∧ content ≠ .null ∧
      inner.Yields content result
  refused : (∃ error, decoded = .error error) ↔ value ≠ .null ∧
    ∀ flag given, value.GivesFlagged (.bool flag) given →
      (flag = true ∧ (given = none ∨ given = some .null)) ∨
      ∃ content, given = some content ∧ content ≠ .null ∧ ∀ result, ¬inner.Yields content result

section

variable {inner : Decoder α} {given : Option Json} {value : Json}

theorem exists_readsOptional_iff : (∃ result, inner.ReadsOptional given result) ↔
    given = none ∨ given = some .null ∨
      ∃ content result, given = some content ∧ inner.Yields content result := by
  cases given with
  | none => simp [ReadsOptional]
  | some content =>
      simp only [ReadsOptional, optional_yields_iff]
      by_cases null : content = .null
      · simp [null]
      · simp [null]

theorem readsOptional_some_iff {result : α} : inner.ReadsOptional given (some result) ↔
    ∃ content, given = some content ∧ content ≠ .null ∧ inner.Yields content result := by
  cases given with
  | none => simp [ReadsOptional]
  | some content => simp [ReadsOptional, optional_yields_iff]

theorem not_readsOptional_iff : (∀ result, ¬inner.ReadsOptional given result) ↔
    ∃ content, given = some content ∧ content ≠ .null ∧ ∀ result, ¬inner.Yields content result := by
  rw [← not_exists, exists_readsOptional_iff]
  cases given with
  | none => simp
  | some content => simp

theorem not_readsOptional_some_iff : (∀ result, ¬inner.ReadsOptional given (some result)) ↔
    (given = none ∨ given = some .null) ∨
      ∃ content, given = some content ∧ content ≠ .null ∧
        ∀ result, ¬inner.Yields content result := by
  simp only [readsOptional_some_iff]
  cases given with
  | none => simp
  | some content =>
      by_cases null : content = .null
      · simp [null]
      · simp [null]

theorem maybeRecord_gives_iff {members : List (String × Json)} {flag : Bool} {result : Option α}
    (distinct : DistinctNames members) :
    (maybeRecord inner).Gives members (flag, result, ()) ↔
      members.lookup "present" = some (.bool flag) ∧
        inner.ReadsOptional (members.lookup "value") result := by
  rw [maybeRecord, Record.Gives, Record.Gives, Field.given_iff_lookup rfl distinct,
    Field.given_iff_lookup rfl distinct]
  simp only [Field.required, boolean_yields_iff, Record.Gives]
  cases members.lookup "value" with
  | none => simp [ReadsOptional, eq_comm (a := none)]
  | some content => simp [ReadsOptional]

theorem maybeRecord_givesInOrder_iff {items : List Json} {flag : Bool} {result : Option α} :
    (maybeRecord inner).GivesInOrder items (flag, result, ()) ↔
      ∃ content, items = [.bool flag, content] ∧ (optional inner).Yields content result := by
  match items with
  | [] => exact iff_of_false (fun gives => nomatch gives.1) (fun ⟨_, same, _⟩ => nomatch same)
  | [first] =>
      exact iff_of_false (fun gives => nomatch gives.2.1) (fun ⟨_, same, _⟩ => nomatch same)
  | first :: second :: later =>
      simp only [maybeRecord, Record.GivesInOrder, Field.required, boolean_yields_iff,
        List.cons.injEq]
      constructor
      · rintro ⟨flagged, content, rfl⟩
        exact ⟨second, ⟨flagged, rfl, rfl⟩, content⟩
      · rintro ⟨_, ⟨flagged, rfl, rfl⟩, content⟩
        exact ⟨flagged, content, rfl⟩

theorem maybeRecord_yields_iff {source : Source} {flag : Bool} {result : Option α}
    (apart : value.NamesApart) :
    ((maybeRecord inner).decode source "MaybeOwned").Yields value (flag, result, ()) ↔
      ∃ given, value.GivesFlagged (.bool flag) given ∧ inner.ReadsOptional given result := by
  rw [Record.decode_yields_iff (by rw [maybeRecord_names]; decide)]
  constructor
  · rintro (⟨members, rfl, gives⟩ | ⟨items, rfl, gives⟩)
    · obtain ⟨flagged, reads⟩ := (maybeRecord_gives_iff (apart rfl)).mp gives
      exact ⟨_, .byName flagged, reads⟩
    · obtain ⟨content, rfl, reads⟩ := maybeRecord_givesInOrder_iff.mp gives
      exact ⟨_, .inOrder _ _, reads⟩
  · rintro ⟨_, flagged | ⟨_, content⟩, reads⟩
    · exact .inl ⟨_, rfl, (maybeRecord_gives_iff (apart rfl)).mpr ⟨flagged, reads⟩⟩
    · exact .inr ⟨_, rfl, maybeRecord_givesInOrder_iff.mpr ⟨content, rfl, reads⟩⟩

end

section

variable {source : Source} {levels : Nat} {decoder : Nat → Decoder α} {value : Json}

theorem maybe_yields_none_iff (apart : value.NamesApart) :
    (maybe source (levels + 1) decoder).Yields value none ↔ value = .null ∨
      ∃ given, value.GivesFlagged (.bool false) given ∧
        ∃ result, (decoder levels).ReadsOptional given result := by
  rw [maybe_yields_iff]
  constructor
  · rintro ⟨owned, found, whole⟩
    rcases optional_yields_iff.mp found with ⟨null, _⟩ | ⟨_, ⟨flag, result, ⟨⟩⟩, yields, rfl⟩
    · exact .inl null
    · obtain ⟨given, gives, reads⟩ := (maybeRecord_yields_iff apart).mp yields
      cases flag with
      | false => exact .inr ⟨given, gives, result, reads⟩
      | true =>
          obtain ⟨filled, rfl⟩ := whole
          cases filled
  · rintro (rfl | ⟨given, gives, result, reads⟩)
    · exact ⟨none, optional_yields_iff.mpr (.inl ⟨rfl, rfl⟩), rfl⟩
    · have yields : ((maybeRecord _).decode source _).Yields value (false, result, ()) :=
        (maybeRecord_yields_iff apart).mpr ⟨given, gives, reads⟩
      exact ⟨_, optional_yields_iff.mpr (.inr ⟨gives.ne_null, _, yields, rfl⟩), rfl⟩

theorem maybe_yields_some_iff (apart : value.NamesApart) {result : α} :
    (maybe source (levels + 1) decoder).Yields value (some result) ↔
      ∃ given, value.GivesFlagged (.bool true) given ∧
        (decoder levels).ReadsOptional given (some result) := by
  rw [maybe_yields_iff]
  constructor
  · rintro ⟨owned, found, whole⟩
    rcases optional_yields_iff.mp found with ⟨_, rfl⟩ | ⟨_, ⟨flag, content, ⟨⟩⟩, yields, rfl⟩
    · simp at whole
    · obtain ⟨given, gives, reads⟩ := (maybeRecord_yields_iff apart).mp yields
      cases flag with
      | false => simp at whole
      | true =>
          obtain ⟨_, rfl⟩ := whole
          exact ⟨given, gives, reads⟩
  · rintro ⟨given, gives, reads⟩
    have yields : ((maybeRecord _).decode source _).Yields value (true, some result, ()) :=
      (maybeRecord_yields_iff apart).mpr ⟨given, gives, reads⟩
    exact ⟨_, optional_yields_iff.mpr (.inr ⟨gives.ne_null, _, yields, rfl⟩), rfl, rfl⟩

theorem FollowsPresence.of_ok {inner : Decoder α} {decoded : Except ReadError (Option α)}
    (nothing : decoded = .ok none ↔ value = .null ∨ ∃ given,
      value.GivesFlagged (.bool false) given ∧ ∃ result, inner.ReadsOptional given result)
    (something : ∀ result, decoded = .ok (some result) ↔ ∃ given,
      value.GivesFlagged (.bool true) given ∧ inner.ReadsOptional given (some result)) :
    inner.FollowsPresence value decoded where
  nothing := by simpa only [exists_readsOptional_iff] using nothing
  something result := by
    rw [something result]
    constructor
    · rintro ⟨given, gives, reads⟩
      obtain ⟨content, rfl, good⟩ := readsOptional_some_iff.mp reads
      exact ⟨content, gives, good⟩
    · rintro ⟨content, gives, good⟩
      exact ⟨_, gives, readsOptional_some_iff.mpr ⟨content, rfl, good⟩⟩
  refused := by
    -- what is neither nothing nor something is refused
    have refused : (∃ error, decoded = .error error) ↔
        decoded ≠ .ok none ∧ ∀ result, decoded ≠ .ok (some result) := by
      rcases decoded with error | _ | result <;> simp
    simp only [refused, ne_eq, nothing, something, not_or, not_exists, not_and, and_assoc]
    refine and_congr_right fun _ => ⟨fun bad flag given gives => ?_, fun bad => ⟨?_, ?_⟩⟩
    · cases flag with
      | false => exact .inr (not_readsOptional_iff.mp (bad.1 given gives))
      | true =>
          have worthless := not_readsOptional_some_iff.mp fun result => bad.2 result given gives
          simpa using worthless
    · intro given gives
      exact not_readsOptional_iff.mpr (by simpa using bad false given gives)
    · intro result given gives
      exact not_readsOptional_some_iff.mpr (by simpa using bad true given gives) result

theorem maybe_followsPresence (apart : value.NamesApart) :
    (decoder levels).FollowsPresence value
      (maybe source (levels + 1) decoder (Scan.ofJson value)) :=
  .of_ok (maybe_yields_none_iff apart) fun _ => maybe_yields_some_iff apart

theorem ofText_followsPresence {text : String} (parsed : Json.parse text = .ok value)
    (apart : value.NamesApart) :
    (decoder (levelLimit - 1)).FollowsPresence value
      (ofText (fun levels => maybe source levels decoder) text) := by
  rw [ofText_eq parsed]
  exact maybe_followsPresence apart

theorem namesApart_encodeMaybe (encode : α → Json) (result : Option α) :
    (encodeMaybe encode result).NamesApart := by
  cases result with
  | none =>
      rintro _ ⟨⟩
      change ["present"].Nodup
      decide
  | some result =>
      rintro _ ⟨⟩
      change ["present", "value"].Nodup
      decide

theorem maybe_yields_encodeMaybe {encode : α → Json} {result : Option α}
    (comesBack : ∀ content ∈ result, (decoder levels).Yields (encode content) content ∧
      encode content ≠ .null) :
    (maybe source (levels + 1) decoder).Yields (encodeMaybe encode result) result := by
  have follows : (decoder levels).FollowsPresence (encodeMaybe encode result)
      (maybe source (levels + 1) decoder (Scan.ofJson (encodeMaybe encode result))) :=
    maybe_followsPresence (namesApart_encodeMaybe encode result)
  cases result with
  | none => exact follows.nothing.mpr (.inr ⟨none, .byName rfl, .inl rfl⟩)
  | some content =>
      obtain ⟨yields, notNull⟩ := comesBack content rfl
      exact (follows.something content).mpr ⟨encode content, .byName rfl, notNull, yields⟩

end

/--
A value of any type that may be present is nothing, something or refused by its three layers, in a
value and in a text, and what is written comes back if its content does.
-/
theorem maybe_follows_presence (source : Source) (levels : Nat) (decoder : Nat → Decoder α)
    (encode : α → Json) :
    (∀ value, value.DistinctKeys → (decoder levels).FollowsPresence value
      (maybe source (levels + 1) decoder (Scan.ofJson value))) ∧
    (∀ text value, Json.parse text = .ok value → value.DistinctKeys →
      (decoder (levelLimit - 1)).FollowsPresence value
        (ofText (fun levels => maybe source levels decoder) text)) ∧
    ∀ result : Option α, (∀ content ∈ result, (decoder levels).Yields (encode content) content ∧
      encode content ≠ .null) →
      (maybe source (levels + 1) decoder).Yields (encodeMaybe encode result) result :=
  ⟨fun _ distinct => maybe_followsPresence distinct.namesApart,
    fun _ _ parsed distinct => ofText_followsPresence parsed distinct.namesApart,
    fun _ comesBack => maybe_yields_encodeMaybe comesBack⟩

def idleContent : Json := .object [("value", .string "a"), ("present", .bool false)]

theorem clean_idleContent : idleContent.Clean :=
  Json.clean_object ["value", "present"] (by decide)
    (.cons (Json.clean_string "a") (.cons (Json.clean_bool false) .nil))

theorem maybe_follows_presence_idleContent :
    (string.Yields (.string "a") "a" ∧ Json.string "a" ≠ .null) ∧ idleContent.DistinctKeys ∧
      string.FollowsPresence idleContent
        (maybe .text 1 (fun _ => string) (Scan.ofJson idleContent)) ∧
      Json.parse idleContent.render = .ok idleContent ∧
      string.FollowsPresence idleContent
        (ofText (fun levels => maybe .text levels fun _ => string) idleContent.render) ∧
      (maybe .text 1 fun _ => string).Yields (encodeMaybe .string (some "a")) (some "a") := by
  have comesBack : string.Yields (.string "a") "a" ∧ Json.string "a" ≠ .null :=
    ⟨string_yields_iff.mpr rfl, nofun⟩
  have distinct := clean_idleContent.distinct
  have parsed := Json.parse_render clean_idleContent.exact (by decide)
  have follows := maybe_follows_presence .text 0 (fun _ => string) .string
  refine ⟨comesBack, distinct, follows.1 _ distinct, parsed, follows.2.1 _ _ parsed distinct,
    follows.2.2 (some "a") ?_⟩
  rintro _ ⟨⟩
  exact comesBack

end Decoder

end TestDelegation
