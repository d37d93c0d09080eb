import Mathlib.Data.List.Permutation
import TestDelegation.Proofs.Codec.Likeness
import TestDelegation.Proofs.Payload.Decoders

/-!
Decoders make the same of a value in a text and of its like, once a codec has sorted and walked
it. Main statement: `detail_yields_iff_of_alike`. Each record asks for the members of its fields
only, and a codec that drops nothing but markers keeps these.
-/

namespace TestDelegation

/-- A codec that excludes no kind of value that a payload's record asks for. -/
def Codec.DropsMarkersOnly (codec : Codec) : Prop :=
  ∀ kind, codec.isExcluded kind = true → kind = .serializableMarker

theorem Codec.DropsMarkersOnly.drops_eq_false {codec : Codec} (markers : codec.DropsMarkersOnly)
    {key : String} (other : fieldKind? key ≠ some .serializableMarker) (keysAreFields : Bool) :
    codec.drops keysAreFields key = false := by
  rw [Codec.drops, Bool.and_eq_false_iff]
  right
  cases kind : fieldKind? key with
  | none => rfl
  | some kind_ =>
      rw [Option.any_some, ← Bool.not_eq_true]
      intro excluded
      exact other (kind.trans (congrArg some (markers kind_ excluded)))

open Codec (Alike)

variable {α β σ : Type} {codec : Codec} {keysAreFields : Bool} {levels : Nat}

/-- Two decoders, of a value in a text and of its like, that make the same of every value. -/
def Decoder.Agree (codec : Codec) (keysAreFields : Bool) (levels : Nat)
    (left right : Decoder α) : Prop :=
  ∀ ⦃value other : Json⦄, value.depth ≤ levels → Alike codec keysAreFields value other →
    ∀ {result : α}, left.Yields value result ↔ right.Yields other result

namespace Decoder

theorem string_agree : Agree codec keysAreFields levels string string := by
  intro value other _ alike result
  rw [string_yields_iff, string_yields_iff, alike.eq_iff rfl]

theorem boolean_agree : Agree codec keysAreFields levels boolean boolean := by
  intro value other _ alike result
  rw [boolean_yields_iff, boolean_yields_iff, alike.eq_iff rfl]

theorem word_agree (bits : Nat) : Agree codec keysAreFields levels (word bits) (word bits) := by
  intro value other _ alike result
  rw [word_yields_iff, word_yields_iff, alike.eq_iff rfl]

theorem optional_agree {left right : Decoder α}
    (agree : Agree codec keysAreFields levels left right) :
    Agree codec keysAreFields levels (optional left) (optional right) := by
  intro value other fits alike result
  rw [optional_yields_iff, optional_yields_iff, ne_eq, ne_eq, alike.eq_iff rfl]
  simp only [agree fits alike]

theorem opening_agree {expected : Expected} {left right : Nat → Decoder α}
    (agree : ∀ inner < levels,
      Agree codec keysAreFields (inner + 1) (left inner) (right inner)) :
    Agree codec keysAreFields levels (opening expected left levels)
      (opening expected right levels) := by
  intro value other fits alike result
  cases levels with
  | zero => exact iff_of_false not_opening_zero_yields not_opening_zero_yields
  | succ inner => exact agree inner (Nat.lt_succ_self inner) fits alike

theorem list_agree {left right : Decoder α} (agree : Agree codec true levels left right) :
    Agree codec keysAreFields (levels + 1) (list left) (list right) := by
  intro value other fits alike result
  rw [list_yields_iff, list_yields_iff]
  cases alike with
  | array image each =>
      rename_i items
      rw [Json.depth_array_le_succ_iff] at fits
      have same : List.Forall₂ left.Yields items result ↔
          List.Forall₂ right.Yields (items.map image) result :=
        forall₂_map_iff fun item found _ => agree (fits item found) (each item found)
      simp [same]
  | _ => simp

theorem listAt_agree {left right : Nat → Decoder α}
    (agree : ∀ inner < levels, Agree codec true inner (left inner) (right inner)) :
    Agree codec keysAreFields levels (listAt left levels) (listAt right levels) :=
  opening_agree fun inner below => list_agree (agree inner below)

end Decoder

/-- Members of an object that is no deeper than the levels left, and what a walk makes of them. -/
structure WalkedMembers (codec : Codec) (levels : Nat) (members others : List (String × Json))
    (image : String × Json → Json) : Prop where
  fits : ∀ member ∈ members, member.2.depth ≤ levels
  each : ∀ member ∈ members, codec.drops true member.1 = false →
    Alike codec (fieldsBelow true member.1) member.2 (image member)
  same : others.Perm ((members.filter fun member => !codec.drops true member.1).map
    fun member => (member.1, image member))

structure Field.Agree (codec : Codec) (levels : Nat) (left right : Field α) : Prop where
  names : right.names = left.names
  absent : right.absent = left.absent
  mayBeCut : right.mayBeCut = left.mayBeCut
  decoder : ∀ key ∈ left.names,
    Decoder.Agree codec (fieldsBelow true key) levels left.decoder right.decoder

inductive Record.Agree (codec : Codec) (levels : Nat) :
    {σ α : Type} → Record σ α → Record σ α → Prop
  | done : Agree codec levels .done .done
  | field {α σ β : Type} {left right : Field α} {leftTail rightTail : Record σ β} :
      left.Agree codec levels right → Agree codec levels leftTail rightTail →
      Agree codec levels (.field left leftTail) (.field right rightTail)

theorem Field.agree_required {name : String} {aliases : List String} {left right : Decoder α}
    (other : methodMapField ∉ name :: aliases)
    (agree : Decoder.Agree codec true levels left right) :
    (required name aliases left).Agree codec levels (required name aliases right) := by
  refine ⟨rfl, rfl, rfl, fun key named => ?_⟩
  rw [fieldsBelow_of_ne fun same => other (same ▸ named)]
  exact agree

theorem Field.agree_defaulted {name : String} {aliases : List String} {left right : Decoder α}
    {value : α} (other : methodMapField ∉ name :: aliases)
    (agree : Decoder.Agree codec true levels left right) :
    (defaulted name aliases left value).Agree codec levels
      (defaulted name aliases right value) := by
  refine ⟨rfl, rfl, rfl, fun key named => ?_⟩
  rw [fieldsBelow_of_ne fun same => other (same ▸ named)]
  exact agree

namespace Field.Agree

variable {left right : Field α} {value : α}

theorem given_iff (agree : left.Agree codec levels right)
    (kept : ∀ key ∈ left.names, codec.drops true key = false)
    {members others : List (String × Json)} {image : String × Json → Json}
    (walked : WalkedMembers codec levels members others image) :
    left.Given members value ↔ right.Given others value := by
  have asked : right.answersTo = left.answersTo := by
    funext key
    rw [Bool.eq_iff_iff, answersTo_iff, answersTo_iff, agree.names]
  have answered : (right.answers others).Perm
      ((left.answers members).map fun member => (member.1, image member)) := by
    rw [answers, asked]
    exact Alike.perm_filter walked.same fun key named => kept key (answersTo_iff.mp named)
  have yields : ∀ member, left.answers members = [member] →
      (left.decoder.Yields member.2 value ↔ right.decoder.Yields (image member) value) := by
    intro member one
    have answers : member ∈ left.answers members := by simp [one]
    obtain ⟨found, named⟩ := List.mem_filter.mp answers
    rw [answersTo_iff] at named
    exact agree.decoder member.1 named (walked.fits member found)
      (walked.each member found (kept member.1 named))
  constructor
  · rintro (⟨none_, absent⟩ | ⟨member, one, yielded⟩)
    · rw [none_, List.map_nil, List.perm_nil] at answered
      exact .inl ⟨answered, agree.absent.trans absent⟩
    · have sole := answered
      rw [one, List.map_singleton, List.perm_singleton] at sole
      exact .inr ⟨_, sole, (yields member one).mp yielded⟩
  · rintro (⟨none_, absent⟩ | ⟨other, one, yielded⟩)
    · rw [none_, List.nil_perm, List.map_eq_nil_iff] at answered
      exact .inl ⟨answered, agree.absent.symm.trans absent⟩
    · rw [one, List.singleton_perm, eq_comm, List.map_eq_singleton_iff] at answered
      obtain ⟨member, sole, rfl⟩ := answered
      exact .inr ⟨member, sole, (yields member sole).mpr yielded⟩

end Field.Agree

/-- Names that tell their fields apart, none of them of a marker or of a method map. -/
structure PlainNames (names : List String) : Prop where
  apart : names.Nodup
  asked : ∀ key ∈ names, fieldKind? key ≠ some .serializableMarker
  other : methodMapField ∉ names

instance (names : List String) : Decidable (PlainNames names) :=
  decidable_of_iff (names.Nodup ∧ (∀ key ∈ names, fieldKind? key ≠ some .serializableMarker) ∧
    methodMapField ∉ names)
    ⟨fun ⟨apart, asked, other⟩ => ⟨apart, asked, other⟩,
      fun ⟨apart, asked, other⟩ => ⟨apart, asked, other⟩⟩

namespace Record.Agree

variable {left right : Record σ α}

theorem names_eq (agree : left.Agree codec levels right) : right.names = left.names := by
  induction agree with
  | done => rfl
  | field head _ ih => rw [Record.names, Record.names, head.names, ih]

theorem gives_iff (agree : left.Agree codec levels right)
    (kept : ∀ key ∈ left.names, codec.drops true key = false)
    {members others : List (String × Json)} {image : String × Json → Json}
    (walked : WalkedMembers codec levels members others image) {values : α} :
    left.Gives members values ↔ right.Gives others values := by
  induction agree with
  | done => exact Iff.rfl
  | field head _ ih =>
      obtain ⟨headKept, tailKept⟩ := List.forall_mem_append.mp kept
      exact and_congr (head.given_iff headKept walked) (ih tailKept)

theorem givesInOrder_iff (agree : left.Agree codec levels right)
    (other : methodMapField ∉ left.names) {items : List Json} {image : Json → Json}
    (fits : ∀ item ∈ items, item.depth ≤ levels)
    (each : ∀ item ∈ items, Alike codec true item (image item)) (values : α) :
    left.GivesInOrder items values ↔ right.GivesInOrder (items.map image) values := by
  induction agree generalizing items with
  | done => simp [GivesInOrder]
  | field head _ ih =>
      rename_i left _ _ _ _
      obtain ⟨value, values⟩ := values
      rw [Record.names, List.mem_append, not_or] at other
      cases items with
      | nil =>
          have rest := ih other.2 fits each values
          rw [List.map_nil] at rest
          simp only [List.map_nil, GivesInOrder, head.absent, head.mayBeCut, rest]
      | cons item items =>
          obtain ⟨itemFits, restFit⟩ := List.forall_mem_cons.mp fits
          obtain ⟨itemAlike, restAlike⟩ := List.forall_mem_cons.mp each
          have named : left.name ∈ left.names := List.mem_cons_self
          have agree := head.decoder left.name named
          rw [fieldsBelow_of_ne fun same => other.1 (same ▸ named)] at agree
          exact and_congr (agree itemFits itemAlike) (ih other.2 restFit restAlike values)

theorem decode (agree : left.Agree codec levels right) (markers : codec.DropsMarkersOnly)
    {leftSource rightSource : Source} {name : String} (plain : PlainNames left.names) :
    Decoder.Agree codec true (levels + 1) (left.decode leftSource name)
      (right.decode rightSource name) := by
  intro value other fits alike result
  have kept : ∀ key ∈ left.names, codec.drops true key = false :=
    fun key named => markers.drops_eq_false (plain.asked key named) true
  rw [Record.decode_yields_iff plain.apart,
    Record.decode_yields_iff (agree.names_eq ▸ plain.apart)]
  cases alike with
  | array image each =>
      rw [Json.depth_array_le_succ_iff] at fits
      simp [agree.givesInOrder_iff plain.other fits each]
  | object image each same =>
      rw [Json.depth_object_le_succ_iff] at fits
      simp [agree.gives_iff kept ⟨fits, each, same⟩]
  | _ => simp

end Record.Agree

namespace Decoder

theorem onlyText?_eq_some_iff {key text : String} {members : List (String × Json)} :
    onlyText? key members = some text ↔ (Field.required key [] string).Given members text := by
  have asked : (Field.required key [] string).answers members =
      members.filter fun member => member.1 == key := by
    simp [Field.answers, Field.answersTo, Field.required]
  rw [Field.Given, asked, onlyText?]
  split
  · rename_i found
    simp [found, Field.required, string_yields_iff]
  · rename_i other
    simp only [Field.required, reduceCtorEq, and_false, false_or, false_iff, not_exists, not_and,
      string_yields_iff]
    rintro ⟨name, _⟩ found rfl
    exact other name text found

theorem onlyText?_eq {key : String} (kept : codec.drops true key = false)
    (other : key ≠ methodMapField) {members others : List (String × Json)}
    {image : String × Json → Json} (walked : WalkedMembers codec levels members others image) :
    onlyText? key members = onlyText? key others := by
  have agree : (Field.required key [] string).Agree codec levels (Field.required key [] string) :=
    Field.agree_required (by simpa using other.symm) string_agree
  have names : ∀ name ∈ (Field.required key [] string).names, codec.drops true name = false := by
    simpa [Field.names, Field.required] using kept
  refine Option.ext fun text => ?_
  rw [onlyText?_eq_some_iff, onlyText?_eq_some_iff, agree.given_iff names walked]

theorem annotationOfJson?_array_eq_some_iff {items : List Json} {mark : Annotation} :
    annotationOfJson? (.array items) = some mark ↔ items = [.string mark.annotationType] := by
  constructor
  · intro found
    unfold annotationOfJson? at found
    split at found
    · rename_i same
      simp at same
    · rename_i same
      simp at same
    · rename_i text same
      obtain rfl := Json.array.inj same
      simp only [Option.some.injEq] at found
      rw [← found]
    · simp at found
  · rintro rfl
    rfl

theorem annotationValue_agree (markers : codec.DropsMarkersOnly) :
    Agree codec true levels (annotationValue levels) (annotationValue levels) := by
  intro value other fits alike result
  have form : annotationOfJson? value = annotationOfJson? other := by
    cases alike with
    | array image each =>
        refine Option.ext fun mark => ?_
        rw [annotationOfJson?_array_eq_some_iff, annotationOfJson?_array_eq_some_iff]
        constructor
        · rintro rfl
          have first := (each _ List.mem_cons_self).eq_iff rfl |>.mp rfl
          rw [List.map_singleton, first]
        · intro mapped
          obtain ⟨item, rfl, text⟩ := List.map_eq_singleton_iff.mp mapped
          rw [(each item List.mem_cons_self).eq_iff rfl |>.mpr text]
    | object image each same =>
        obtain ⟨levels, rfl, within⟩ := Json.object_fits fits
        have kept : codec.drops true "annotationType" = false :=
          markers.drops_eq_false (by decide) true
        simp only [annotationOfJson?, onlyText?_eq kept (by decide) ⟨within, each, same⟩]
    | _ => rfl
  rw [annotationValue_yields_iff, annotationValue_yields_iff, form]
  exact and_congr_left fun _ => iff_of_true fits (alike.depth_le fits)

theorem classLiteralValue_agree (markers : codec.DropsMarkersOnly) :
    Agree codec true levels (classLiteralValue levels) (classLiteralValue levels) := by
  intro value other fits alike result
  have form : classLiteralOfJson? value = classLiteralOfJson? other := by
    cases alike with
    | object image each same =>
        obtain ⟨levels, rfl, within⟩ := Json.object_fits fits
        have kept : codec.drops true "name" = false :=
          markers.drops_eq_false (by decide) true
        simp only [classLiteralOfJson?, onlyText?_eq kept (by decide) ⟨within, each, same⟩]
    | _ => rfl
  rw [classLiteralValue_yields_iff, classLiteralValue_yields_iff, form]
  exact and_congr_left fun _ => iff_of_true fits (alike.depth_le fits)

theorem longCounter_agree :
    Agree codec keysAreFields levels (longCounter levels) (longCounter levels) := by
  intro value other _ alike result
  rw [longCounter_yields_iff, longCounter_yields_iff, alike.eq_iff rfl]
  refine or_congr_right (exists_congr fun text => ?_)
  rw [alike.eq_iff rfl]

theorem integerCounter_agree :
    Agree codec keysAreFields levels (integerCounter levels) (integerCounter levels) := by
  intro value other fits alike result
  rw [integerCounter_yields_iff, integerCounter_yields_iff]
  exact exists_congr fun long => and_congr_left fun _ => longCounter_agree fits alike

theorem perm_forall₂_perm_iff {ι : Type} {relates : ι → α → Prop} {items others : List ι}
    (same : items.Perm others) {target : List α} :
    (∃ results, List.Forall₂ relates items results ∧ results.Perm target) ↔
      ∃ results, List.Forall₂ relates others results ∧ results.Perm target := by
  have moved : ∀ {first second : List ι}, first.Perm second →
      (∃ results, List.Forall₂ relates first results ∧ results.Perm target) →
      ∃ results, List.Forall₂ relates second results ∧ results.Perm target := by
    rintro first second same ⟨results, each, listed⟩
    obtain ⟨results', each', listed'⟩ := List.perm_comp_forall₂ same.symm each
    exact ⟨results', each', listed'.trans listed⟩
  exact ⟨moved same, moved same.symm⟩

theorem uniqueMap_agree {left right : Decoder α} (agree : Agree codec true levels left right) :
    Agree codec false (levels + 1) (uniqueMap left) (uniqueMap right) := by
  intro value other fits alike result
  rw [uniqueMap_yields_iff, uniqueMap_yields_iff]
  cases alike with
  | object image each same =>
      rename_i members others
      rw [Json.depth_object_le_succ_iff] at fits
      have all : (members.filter fun member => !codec.drops false member.1) = members := by
        simp [Codec.drops]
      rw [all] at same
      have entries : ∀ entries, List.Forall₂ left.YieldsEntry members entries ↔
          List.Forall₂ right.YieldsEntry
            (members.map fun member => (member.1, image member)) entries := by
        intro entries
        refine forall₂_map_iff fun member found entry => and_congr_right fun _ => ?_
        exact agree (fits member found) (each member found rfl)
      simp [entries, perm_forall₂_perm_iff same]
  | _ => simp

theorem uniqueMapAt_agree {left right : Nat → Decoder α}
    (agree : ∀ inner < levels, Agree codec true inner (left inner) (right inner)) :
    Agree codec false levels (uniqueMapAt left levels) (uniqueMapAt right levels) :=
  opening_agree fun inner below => uniqueMap_agree (agree inner below)

theorem maybe_agree (markers : codec.DropsMarkersOnly) {leftSource rightSource : Source}
    {left right : Nat → Decoder α}
    (agree : ∀ inner < levels, Agree codec true inner (left inner) (right inner)) :
    Agree codec true levels (maybe leftSource levels left) (maybe rightSource levels right) := by
  intro value other fits alike result
  have record : ∀ inner < levels, (maybeRecord (left inner)).Agree codec inner
      (maybeRecord (right inner)) := fun inner below =>
    .field (Field.agree_required (by decide) boolean_agree) <|
    .field ⟨rfl, rfl, rfl, fun key named => by
      rw [fieldsBelow_of_ne (by rintro rfl; simp [Field.names, methodMapField] at named)]
      exact optional_agree (agree inner below)⟩ .done
  have opened : Agree codec true levels
      (opening (.record "MaybeOwned") (fun inner =>
        (maybeRecord (left inner)).decode leftSource "MaybeOwned") levels)
      (opening (.record "MaybeOwned") (fun inner =>
        (maybeRecord (right inner)).decode rightSource "MaybeOwned") levels) :=
    opening_agree fun inner below =>
      (record inner below).decode markers (by rw [maybeRecord_names]; decide)
  rw [maybe_yields_iff, maybe_yields_iff]
  exact exists_congr fun found => and_congr_left fun _ => optional_agree opened fits alike

theorem frame_agree (markers : codec.DropsMarkersOnly) {leftSource rightSource : Source} :
    Agree codec true levels (frame leftSource levels) (frame rightSource levels) := by
  intro value other fits alike result
  cases levels with
  | zero => exact iff_of_false not_opening_zero_yields not_opening_zero_yields
  | succ levels =>
      have record : frameRecord.Agree codec levels frameRecord :=
        .field (Field.agree_required (by decide) string_agree) <|
        .field (Field.agree_required (by decide) string_agree) <|
        .field (Field.agree_defaulted (by decide) (optional_agree string_agree)) <|
        .field (Field.agree_defaulted (by decide) (word_agree 32)) .done
      rw [frame_yields_iff, frame_yields_iff]
      exact record.decode markers (by rw [frameRecord_names]; decide) fits alike

theorem cause_agree (markers : codec.DropsMarkersOnly) {leftSource rightSource : Source} :
    Agree codec true levels (cause leftSource levels) (cause rightSource levels) := by
  induction levels with
  | zero =>
      intro value other _ _ result
      exact iff_of_false not_noLevel_yields not_noLevel_yields
  | succ levels ih =>
      intro value other fits alike result
      have record : (causeRecord leftSource levels (cause leftSource levels)).Agree codec levels
          (causeRecord rightSource levels (cause rightSource levels)) :=
        .field (Field.agree_defaulted (by decide) (optional_agree string_agree)) <|
        .field (Field.agree_defaulted (by decide) (optional_agree string_agree)) <|
        .field (Field.agree_defaulted (by decide)
          (listAt_agree fun _ _ => frame_agree markers)) <|
        .field (Field.agree_defaulted (by decide) (optional_agree ih)) .done
      rw [cause_yields_iff, cause_yields_iff]
      exact record.decode markers (by rw [causeRecord_names]; decide) fits alike

theorem description_agree (markers : codec.DropsMarkersOnly) {leftSource rightSource : Source} :
    Agree codec true levels (description leftSource levels) (description rightSource levels) := by
  induction levels using Nat.strongRecOn with
  | ind levels ih =>
      intro value other fits alike result
      cases levels with
      | zero => exact iff_of_false not_noLevel_yields not_noLevel_yields
      | succ levels =>
          have record : (descriptionRecord levels
              (listAt (description leftSource) levels)).Agree codec levels
              (descriptionRecord levels (listAt (description rightSource) levels)) :=
            .field (Field.agree_defaulted (by decide) string_agree) <|
            .field (Field.agree_defaulted (by decide)
              (listAt_agree fun _ _ => annotationValue_agree markers)) <|
            .field (Field.agree_defaulted (by decide)
              (optional_agree (classLiteralValue_agree markers))) <|
            .field (Field.agree_defaulted (by decide)
              (listAt_agree fun inner below => ih inner (by omega))) .done
          rw [description_yields_iff, description_yields_iff]
          exact record.decode markers (by rw [descriptionRecord_names]; decide) fits alike

theorem failure_agree (markers : codec.DropsMarkersOnly) {leftSource rightSource : Source} :
    Agree codec true levels (failure leftSource levels) (failure rightSource levels) := by
  intro value other fits alike result
  cases levels with
  | zero => exact iff_of_false not_opening_zero_yields not_opening_zero_yields
  | succ levels =>
      have record : (failureRecord leftSource levels).Agree codec levels
          (failureRecord rightSource levels) :=
        .field (Field.agree_defaulted (by decide) (optional_agree (description_agree markers))) <|
        .field (Field.agree_required (by decide) (cause_agree markers)) .done
      rw [failure_yields_iff, failure_yields_iff]
      exact record.decode markers (by rw [failureRecord_names]; decide) fits alike

theorem summary_agree (markers : codec.DropsMarkersOnly) {leftSource rightSource : Source} :
    Agree codec true levels (summary leftSource levels) (summary rightSource levels) := by
  intro value other fits alike result
  cases levels with
  | zero => exact iff_of_false not_opening_zero_yields not_opening_zero_yields
  | succ levels =>
      have record : (summaryRecord leftSource levels).Agree codec levels
          (summaryRecord rightSource levels) :=
        .field (Field.agree_defaulted (by decide) integerCounter_agree) <|
        .field (Field.agree_defaulted (by decide) integerCounter_agree) <|
        .field (Field.agree_defaulted (by decide) longCounter_agree) <|
        .field (Field.agree_defaulted (by decide) longCounter_agree) <|
        .field (Field.agree_defaulted (by decide)
          (listAt_agree fun _ _ => failure_agree markers)) .done
      rw [summary_yields_iff, summary_yields_iff]
      exact record.decode markers (by rw [summaryRecord_names]; decide) fits alike

/-- The whole payload; in an array the method map would be taken for an object of fields. -/
theorem detail_yields_iff_of_alike (markers : codec.DropsMarkersOnly)
    {leftSource rightSource : Source} {value other : Json}
    (notArray : ∀ items, value ≠ .array items) (fits : value.depth ≤ levels)
    (alike : Alike codec true value other) {result : ResultDetail} :
    (detail leftSource levels).Yields value result ↔
      (detail rightSource levels).Yields other result := by
  cases levels with
  | zero => exact iff_of_false not_opening_zero_yields not_opening_zero_yields
  | succ levels =>
      have record : (detailRecord leftSource levels).Agree codec levels
          (detailRecord rightSource levels) :=
        .field (Field.agree_defaulted (by decide) (optional_agree string_agree)) <|
        .field (Field.agree_defaulted (by decide)
          (maybe_agree markers fun _ _ => summary_agree markers)) <|
        .field (Field.agree_required (by decide) (listAt_agree fun _ _ => string_agree)) <|
        .field (Field.agree_required (by decide) (listAt_agree fun _ _ => string_agree)) <|
        .field ⟨rfl, rfl, rfl, fun key named => by
          obtain rfl : key = methodMapField := List.mem_singleton.mp named
          exact uniqueMapAt_agree fun _ _ => failure_agree markers⟩ .done
      have kept : ∀ key ∈ (detailRecord leftSource levels).names,
          codec.drops true key = false := fun key named =>
        markers.drops_eq_false (by revert key; rw [detailRecord_names]; decide) true
      rw [detail_yields_iff, detail_yields_iff,
        Record.decode_yields_iff (by rw [detailRecord_names]; decide),
        Record.decode_yields_iff (by rw [detailRecord_names]; decide)]
      cases alike with
      | array image each => exact absurd rfl (notArray _)
      | object image each same =>
          rw [Json.depth_object_le_succ_iff] at fits
          simp [record.gives_iff kept ⟨fits, each, same⟩]
      | _ => simp

end Decoder

end TestDelegation
