import TestDelegation.Proofs.Payload.Spelling

/-!
Every spelling of a payload decodes to that payload, from a text and from a value read before.
Main statement: `detail_yields_of_spelled`. Each record is a step of the same shape: its levels
are enough for its members, and each field is given by the member that spells it.
-/

namespace TestDelegation

variable {α : Type}

theorem Field.answers_eq_membersNamed (field : Field α) (members : List (String × Json)) :
    field.answers members = membersNamed field.names members := by
  refine List.filter_congr fun member _ => ?_
  rw [Bool.eq_iff_iff, answersTo_iff, List.contains_iff_mem]

theorem Field.given_of_spelled {field : Field α} {members : List (String × Json)}
    {leftOut : Prop} {spells : Json → Prop} {value : α}
    (spelled : SpellsField field.names members leftOut spells)
    (absent : leftOut → field.absent = some value)
    (present : ∀ member ∈ members, spells member.2 → field.decoder.Yields member.2 value) :
    field.Given members value := by
  rw [SpellsField, ← answers_eq_membersNamed] at spelled
  rcases spelled with ⟨none_, leftOut⟩ | ⟨member, one, spelled⟩
  · exact .inl ⟨none_, absent leftOut⟩
  · have found : member ∈ members := by
      have answered : member ∈ field.answers members := by simp [one]
      exact (List.mem_filter.mp answered).1
    exact .inr ⟨member, one, present member found spelled⟩

theorem SignedWord.some_zero_eq {bits : Nat} {word : SignedWord bits} (zero : word.toInt = 0) :
    some (SignedWord.zero bits) = some word :=
  congrArg some (toInt_injective zero.symm)

namespace Decoder

theorem optional_yields_of_spelled {decoder : Decoder α} {spells : α → Json → Prop}
    {result : Option α} {value : Json} (spelled : SpellsOption spells result value)
    (present : ∀ inner, spells inner value → value ≠ .null ∧ decoder.Yields value inner) :
    (optional decoder).Yields value result := by
  cases result with
  | none => exact optional_yields_iff.mpr (.inl ⟨spelled, rfl⟩)
  | some inner =>
      obtain ⟨notNull, yields⟩ := present inner spelled
      exact optional_yields_iff.mpr (.inr ⟨notNull, inner, yields, rfl⟩)

theorem optional_text_yields_of_spelled {result : Option String} {value : Json}
    (spelled : SpellsOption SpellsText result value) :
    (optional string).Yields value result := by
  refine optional_yields_of_spelled spelled ?_
  rintro inner rfl
  exact ⟨by simp, string_yields_iff.mpr rfl⟩

theorem forall₂_yields_of_spelled {decoder : Decoder α} {spells : α → Json → Prop}
    {results : List α} {items : List Json} (spelled : List.Forall₂ spells results items)
    (each : ∀ item ∈ items, ∀ result, spells result item → decoder.Yields item result) :
    List.Forall₂ decoder.Yields items results := by
  induction spelled with
  | nil => exact .nil
  | cons first _ ih =>
      obtain ⟨firstYields, restYield⟩ := List.forall_mem_cons.mp each
      exact .cons (firstYields _ first) (ih restYield)

theorem listAt_yields_of_spelled {decoder : Nat → Decoder α} {spells : α → Json → Prop}
    {levels : Nat} {results : List α} {value : Json} (fits : value.depth ≤ levels)
    (spelled : SpellsList spells results value)
    (each : ∀ inner < levels, ∀ item : Json, item.depth ≤ inner → ∀ result, spells result item →
      (decoder inner).Yields item result) :
    (listAt decoder levels).Yields value results := by
  obtain ⟨items, rfl, spelled⟩ := spelled
  obtain ⟨levels, rfl, within⟩ := Json.array_fits fits
  refine list_yields_iff.mpr ⟨items, rfl, forall₂_yields_of_spelled spelled ?_⟩
  exact fun item member => each levels (Nat.lt_succ_self levels) item (within item member)

theorem frame_yields_of_spelled {source : Source} {levels : Nat} {frame : StackFrame}
    {value : Json} (fits : value.depth ≤ levels) (spelled : frame.SpelledBy value) :
    (Decoder.frame source levels).Yields value frame := by
  obtain ⟨members, rfl, declaringClass, methodName, fileName, lineNumber⟩ := spelled
  obtain ⟨levels, rfl, _⟩ := Json.object_fits fits
  rw [frame_yields_iff, Record.decode_yields_iff (by rw [frameRecord_names]; decide)]
  refine .inl ⟨members, rfl, ?_, ?_, ?_, ?_, trivial⟩
  · exact Field.given_of_spelled declaringClass False.elim
      fun _ _ spelled => string_yields_iff.mpr spelled
  · exact Field.given_of_spelled methodName False.elim
      fun _ _ spelled => string_yields_iff.mpr spelled
  · exact Field.given_of_spelled fileName (fun absent => congrArg some absent.symm)
      fun _ _ spelled => optional_text_yields_of_spelled spelled
  · exact Field.given_of_spelled lineNumber SignedWord.some_zero_eq
      fun _ _ spelled => word_yields_iff.mpr spelled

theorem inner_spelled {outer : Thrown} {nested : List Thrown} {value : Json}
    (spelled : outer.SpelledBy nested value) :
    ∃ members, value = .object members ∧ outer.SpelledByMembers members ∧
      SpellsField ["cause"] members ((⟨outer, nested⟩ : FailureCause).inner? = none)
        (SpellsOption FailureCause.SpelledBy (⟨outer, nested⟩ : FailureCause).inner?) := by
  cases nested with
  | nil =>
      obtain ⟨members, whole, fields, cause⟩ := spelled
      exact ⟨members, whole, fields,
        by simpa [SpellsField, FailureCause.inner?, SpellsOption] using cause⟩
  | cons inner nested =>
      obtain ⟨members, whole, fields, cause⟩ := spelled
      exact ⟨members, whole, fields,
        by simpa [SpellsField, FailureCause.inner?, SpellsOption, FailureCause.SpelledBy]
          using cause⟩

theorem cause_yields_of_spelled {source : Source} {levels : Nat} {cause : FailureCause}
    {value : Json} (fits : value.depth ≤ levels) (spelled : cause.SpelledBy value) :
    (Decoder.cause source levels).Yields value cause := by
  induction levels generalizing cause value with
  | zero =>
      obtain ⟨members, rfl, _⟩ := inner_spelled spelled
      simp [Json.depth] at fits
  | succ levels ih =>
      obtain ⟨members, rfl, ⟨exceptionType, message, stackTrace⟩, inner⟩ := inner_spelled spelled
      rw [Json.depth_object_le_succ_iff] at fits
      rw [cause_yields_iff, Record.decode_yields_iff (by rw [causeRecord_names]; decide)]
      refine .inl ⟨members, rfl, ?_, ?_, ?_, ?_, trivial⟩
      · exact Field.given_of_spelled exceptionType (fun absent => congrArg some absent.symm)
          fun _ _ spelled => optional_text_yields_of_spelled spelled
      · exact Field.given_of_spelled message (fun absent => congrArg some absent.symm)
          fun _ _ spelled => optional_text_yields_of_spelled spelled
      · exact Field.given_of_spelled stackTrace (fun empty => congrArg some empty.symm)
          fun member found spelled => listAt_yields_of_spelled (fits member found) spelled
            fun _ _ _ fits _ spelled => frame_yields_of_spelled fits spelled
      · refine Field.given_of_spelled inner (fun absent => congrArg some absent.symm)
          fun member found spelled => optional_yields_of_spelled spelled fun inner spelled => ?_
        refine ⟨?_, ih (fits member found) spelled⟩
        obtain ⟨_, object, _⟩ := inner_spelled spelled
        simp [object]

theorem onlyText?_of_spelled {key name : String} {members : List (String × Json)}
    (spelled : SpellsField [key] members False (SpellsText name)) :
    onlyText? key members = some name := by
  have same : (members.filter fun member => member.1 == key) = membersNamed [key] members := by
    refine List.filter_congr fun member _ => ?_
    rw [Bool.eq_iff_iff, List.contains_iff_mem, List.mem_singleton, beq_iff_eq]
  obtain ⟨_, impossible⟩ | ⟨⟨_, value⟩, one, rfl⟩ := spelled
  · exact impossible.elim
  · simp only [onlyText?, same, one]

theorem annotationValue_yields_of_spelled {levels : Nat} {mark : Annotation} {value : Json}
    (fits : value.depth ≤ levels) (spelled : mark.SpelledBy value) :
    (annotationValue levels).Yields value mark := by
  refine annotationValue_yields_iff.mpr ⟨fits, ?_⟩
  obtain rfl | ⟨members, rfl, spelled⟩ := spelled
  · rfl
  · simp [annotationOfJson?, onlyText?_of_spelled spelled]

theorem classLiteralValue_yields_of_spelled {levels : Nat} {literal : ClassLiteral} {value : Json}
    (fits : value.depth ≤ levels) (spelled : literal.SpelledBy value) :
    (classLiteralValue levels).Yields value literal := by
  refine classLiteralValue_yields_iff.mpr ⟨fits, ?_⟩
  obtain rfl | ⟨members, rfl, spelled⟩ := spelled
  · rfl
  · simp [classLiteralOfJson?, onlyText?_of_spelled spelled]

theorem ne_null_of_spellsName {key name : String} {value : Json}
    (spelled : SpellsName key name value) : value ≠ .null := by
  obtain rfl | ⟨members, rfl, _⟩ := spelled
  · simp
  · simp

theorem counterOfText?_eq_some_iff {text : String} {word : SignedWord 64} :
    counterOfText? text = some word ↔ Text.SpellsCounter text word.toInt := by
  rw [counterOfText?, ← Text.integerOfChars?_trimChars_iff]
  constructor
  · intro counted
    obtain ⟨value, spelled, found⟩ := Option.bind_eq_some_iff.mp counted
    rw [spelled, SignedWord.ofInt?_eq_some_iff.mp found]
  · intro spelled
    exact Option.bind_eq_some_iff.mpr ⟨_, spelled, SignedWord.ofInt?_eq_some_iff.mpr rfl⟩

theorem longCounter_yields_iff_counted {levels : Nat} {word : SignedWord 64} {value : Json} :
    (longCounter levels).Yields value word ↔ word.CountedBy value := by
  simp only [longCounter_yields_iff, counterOfText?_eq_some_iff, SignedWord.CountedBy]

theorem integerCounter_yields_iff_counted {levels : Nat} {word : SignedWord 32} {value : Json} :
    (integerCounter levels).Yields value word ↔ word.CountedBy value := by
  simp only [integerCounter_yields_iff, longCounter_yields_iff_counted, SignedWord.CountedBy]
  constructor
  · rintro ⟨long, counted, same⟩
    rwa [same] at counted
  · intro counted
    obtain ⟨long, same⟩ := word.exists_wider (show 32 ≤ 64 by decide)
    exact ⟨long, by rwa [same], same⟩

theorem description_yields_of_spelled {source : Source} {levels : Nat}
    {described : RemoteDescription} {value : Json} (fits : value.depth ≤ levels)
    (spelled : described.SpelledBy value) :
    (description source levels).Yields value described := by
  induction levels using Nat.strongRecOn generalizing described value with
  | ind levels ih =>
      obtain ⟨members, rfl, displayName, annotations, testClass, children⟩ :=
        RemoteDescription.spelledBy_iff.mp spelled
      obtain ⟨levels, rfl, within⟩ := Json.object_fits fits
      rw [description_yields_iff,
        Record.decode_yields_iff (by rw [descriptionRecord_names]; decide)]
      refine .inl ⟨members, rfl, ?_, ?_, ?_, ?_, trivial⟩
      · exact Field.given_of_spelled displayName (fun empty => congrArg some empty.symm)
          fun _ _ spelled => string_yields_iff.mpr spelled
      · exact Field.given_of_spelled annotations (fun empty => congrArg some empty.symm)
          fun member found spelled => listAt_yields_of_spelled (within member found) spelled
            fun _ _ _ fits _ spelled => annotationValue_yields_of_spelled fits spelled
      · refine Field.given_of_spelled testClass (fun absent => congrArg some absent.symm)
          fun member found spelled => optional_yields_of_spelled spelled
            fun literal spelled => ⟨ne_null_of_spellsName spelled, ?_⟩
        exact classLiteralValue_yields_of_spelled (within member found) spelled
      · exact Field.given_of_spelled children (fun empty => congrArg some empty.symm)
          fun member found spelled => listAt_yields_of_spelled (within member found) spelled
            fun inner below _ fits _ spelled => ih inner (by omega) fits spelled

theorem failure_yields_of_spelled {source : Source} {levels : Nat} {failed : RemoteFailure}
    {value : Json} (fits : value.depth ≤ levels) (spelled : failed.SpelledBy value) :
    (failure source levels).Yields value failed := by
  obtain ⟨members, rfl, described, caused⟩ := spelled
  obtain ⟨levels, rfl, within⟩ := Json.object_fits fits
  rw [failure_yields_iff, Record.decode_yields_iff (by rw [failureRecord_names]; decide)]
  refine .inl ⟨members, rfl, ?_, ?_, trivial⟩
  · refine Field.given_of_spelled described (fun absent => congrArg some absent.symm)
      fun member found spelled => optional_yields_of_spelled spelled fun inner spelled => ?_
    refine ⟨?_, description_yields_of_spelled (within member found) spelled⟩
    obtain ⟨_, object, _⟩ := RemoteDescription.spelledBy_iff.mp spelled
    simp [object]
  · exact Field.given_of_spelled caused False.elim
      fun member found spelled => cause_yields_of_spelled (within member found) spelled

theorem summary_yields_of_spelled {source : Source} {levels : Nat} {counts : RunSummary}
    {value : Json} (fits : value.depth ≤ levels) (spelled : counts.SpelledBy value) :
    (summary source levels).Yields value counts := by
  obtain ⟨members, rfl, count, ignoreCount, runTime, startTime, failures⟩ := spelled
  obtain ⟨levels, rfl, within⟩ := Json.object_fits fits
  rw [summary_yields_iff, Record.decode_yields_iff (by rw [summaryRecord_names]; decide)]
  refine .inl ⟨members, rfl, ?_, ?_, ?_, ?_, ?_, trivial⟩
  · exact Field.given_of_spelled count SignedWord.some_zero_eq
      fun _ _ spelled => integerCounter_yields_iff_counted.mpr spelled
  · exact Field.given_of_spelled ignoreCount SignedWord.some_zero_eq
      fun _ _ spelled => integerCounter_yields_iff_counted.mpr spelled
  · exact Field.given_of_spelled runTime SignedWord.some_zero_eq
      fun _ _ spelled => longCounter_yields_iff_counted.mpr spelled
  · exact Field.given_of_spelled startTime SignedWord.some_zero_eq
      fun _ _ spelled => longCounter_yields_iff_counted.mpr spelled
  · exact Field.given_of_spelled failures (fun empty => congrArg some empty.symm)
      fun member found spelled => listAt_yields_of_spelled (within member found) spelled
        fun _ _ _ fits _ spelled => failure_yields_of_spelled fits spelled

theorem owned_summary_yields_of_spelled {source : Source} {levels : Nat}
    {members : List (String × Json)} {present : Bool} {inner : Option RunSummary} {leftOut : Prop}
    (fits : (Json.object members).depth ≤ levels)
    (presentSpelled : SpellsField ["present"] members False (· = .bool present))
    (valueSpelled : SpellsField ["value"] members leftOut (SpellsOption RunSummary.SpelledBy inner))
    (absent : leftOut → inner = none) :
    (optional (opening (.record "MaybeOwned") (fun inner =>
      (maybeRecord (summary source inner)).decode source "MaybeOwned") levels)).Yields
      (.object members) (some (present, inner, ())) := by
  obtain ⟨levels, rfl, within⟩ := Json.object_fits fits
  refine optional_yields_iff.mpr (.inr ⟨by simp, _, ?_, rfl⟩)
  rw [opening_succ_yields_iff, Record.decode_yields_iff (by rw [maybeRecord_names]; decide)]
  refine .inl ⟨members, rfl, ?_, ?_, trivial⟩
  · exact Field.given_of_spelled presentSpelled False.elim
      fun _ _ spelled => boolean_yields_iff.mpr spelled
  · refine Field.given_of_spelled valueSpelled (fun out => congrArg some (absent out).symm)
      fun member found spelled => optional_yields_of_spelled spelled fun inner spelled => ?_
    refine ⟨?_, summary_yields_of_spelled (within member found) spelled⟩
    obtain ⟨_, object, _⟩ := spelled
    simp [object]

theorem maybe_summary_yields_of_spelled {source : Source} {levels : Nat}
    {counts : Option RunSummary} {value : Json} (fits : value.depth ≤ levels)
    (spelled : RunSummary.MaybeSpelledBy counts value) :
    (maybe source levels (summary source)).Yields value counts := by
  rw [maybe_yields_iff]
  cases counts with
  | none =>
      obtain rfl | ⟨members, rfl, present, value⟩ := spelled
      · exact ⟨none, optional_yields_iff.mpr (.inl ⟨rfl, rfl⟩), rfl⟩
      · obtain ⟨inner, spelled⟩ : ∃ inner, SpellsField ["value"] members (inner = none)
            (SpellsOption RunSummary.SpelledBy inner) := by
          obtain ⟨none_, _⟩ | ⟨member, one, empty | ⟨counts, spelled⟩⟩ := value
          · exact ⟨none, .inl ⟨none_, rfl⟩⟩
          · exact ⟨none, .inr ⟨member, one, empty⟩⟩
          · exact ⟨some counts, .inr ⟨member, one, spelled⟩⟩
        exact ⟨_, owned_summary_yields_of_spelled fits present spelled id, rfl⟩
  | some counts =>
      obtain ⟨members, rfl, present, value⟩ := spelled
      exact ⟨_, @owned_summary_yields_of_spelled source levels members true (some counts) False fits
        present value False.elim, rfl, rfl⟩

theorem uniqueMapAt_yields_of_spelled {decoder : Nat → Decoder α} {spells : α → Json → Prop}
    {levels : Nat} {map : SortedMap α} {value : Json} (fits : value.depth ≤ levels)
    (spelled : SpellsMap spells map value)
    (each : ∀ inner < levels, ∀ item : Json, item.depth ≤ inner → ∀ result, spells result item →
      (decoder inner).Yields item result) :
    (uniqueMapAt decoder levels).Yields value map := by
  obtain ⟨members, entries, rfl, same, spelled⟩ := spelled
  obtain ⟨levels, rfl, within⟩ := Json.object_fits fits
  refine uniqueMap_yields_iff.mpr ⟨members, entries, rfl, ?_, same⟩
  clear same fits
  induction spelled with
  | nil => exact .nil
  | cons first _ ih =>
      obtain ⟨firstFits, restFit⟩ := List.forall_mem_cons.mp within
      refine .cons ⟨first.1.symm, ?_⟩ (ih restFit)
      exact each levels (Nat.lt_succ_self levels) _ firstFits _ first.2

theorem detail_yields_of_spelled {source : Source} {levels : Nat} {result : ResultDetail}
    {value : Json} (fits : value.depth ≤ levels) (spelled : result.SpelledBy value) :
    (detail source levels).Yields value result := by
  obtain ⟨members, rfl, classname, testResult, passed, ignored, failed⟩ := spelled
  obtain ⟨levels, rfl, within⟩ := Json.object_fits fits
  rw [detail_yields_iff, Record.decode_yields_iff (by rw [detailRecord_names]; decide)]
  refine .inl ⟨members, rfl, ?_, ?_, ?_, ?_, ?_, trivial⟩
  · exact Field.given_of_spelled classname (fun absent => congrArg some absent.symm)
      fun _ _ spelled => optional_text_yields_of_spelled spelled
  · exact Field.given_of_spelled testResult (fun absent => congrArg some absent.symm)
      fun member found spelled => maybe_summary_yields_of_spelled (within member found) spelled
  · exact Field.given_of_spelled passed False.elim
      fun member found spelled => listAt_yields_of_spelled (within member found) spelled
        fun _ _ _ _ _ spelled => string_yields_iff.mpr spelled
  · exact Field.given_of_spelled ignored False.elim
      fun member found spelled => listAt_yields_of_spelled (within member found) spelled
        fun _ _ _ _ _ spelled => string_yields_iff.mpr spelled
  · exact Field.given_of_spelled failed False.elim
      fun member found spelled => uniqueMapAt_yields_of_spelled (within member found) spelled
        fun _ _ _ fits _ spelled => failure_yields_of_spelled fits spelled

end Decoder

end TestDelegation
