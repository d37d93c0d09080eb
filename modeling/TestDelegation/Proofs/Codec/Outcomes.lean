import TestDelegation.Proofs.Codec.Decoding
import TestDelegation.Proofs.Codec.Kinds
import TestDelegation.Proofs.Outcome
import TestDelegation.Proofs.Payload.Acceptance
import TestDelegation.Proofs.Text.ByteOrder

/-!
Sets of outcomes through their texts. Main statement: `decode_render`. The payload of a set tells
that it has no summary, which is the one field a codec may drop or refuse; everything else comes
back with any codec.
-/

namespace TestDelegation

/-- A payload as it is made from a set of outcomes. -/
structure ResultDetail.OutcomesOnly (detail : ResultDetail) : Prop where
  testResult : detail.testResult = none
  described : ∀ entry ∈ detail.failedMethods.entries, entry.2.description = none

theorem OutcomeSet.outcomesOnly_toDetail (set : OutcomeSet) (classname : Option String) :
    (set.toDetail classname).OutcomesOnly := by
  refine ⟨rfl, fun entry found => ?_⟩
  have failed := (SortedMap.entries_foldl_insert
    (fun cause => (⟨none, cause⟩ : RemoteFailure)) set.failed).trans
    (sortedEntries_map _ set.distinctNames_failed)
  rw [toDetail, failed] at found
  obtain ⟨_, _, rfl⟩ := List.mem_map.mp found
  rfl

theorem SpellsField.filter {names : List String} {members : List (String × Json)} {leftOut : Prop}
    {spells : Json → Prop} (keep : String → Bool)
    (spelled : SpellsField names members leftOut spells)
    (kept : leftOut ∨ ∀ name ∈ names, keep name = true) :
    SpellsField names (members.filter fun member => keep member.1) leftOut spells := by
  have swapped : membersNamed names (members.filter fun member => keep member.1) =
      (membersNamed names members).filter fun member => keep member.1 := by
    simp [membersNamed, List.filter_filter, Bool.and_comm]
  rw [SpellsField, swapped]
  obtain ⟨none_, leftOut⟩ | ⟨member, one, spelled⟩ := spelled
  · exact .inl ⟨by simp [none_], leftOut⟩
  · by_cases stays : keep member.1 = true
    · exact .inr ⟨member, by simp [one, stays], spelled⟩
    · rcases kept with leftOut | kept
      · exact .inl ⟨by simp [one, stays], leftOut⟩
      · have named : member ∈ membersNamed names members := by simp [one]
        have listed := (List.mem_filter.mp named).2
        exact absurd (kept member.1 (List.contains_iff_mem.mp listed)) stays

namespace ResultDetail

variable {detail : ResultDetail} {codec : Codec}

theorem SpelledBy.filter {members : List (String × Json)} (keep : String → Bool)
    (spelled : detail.SpelledBy (.object members)) (absent : detail.testResult = none)
    (kept : ∀ name, fieldKind? name = none → keep name = true) :
    detail.SpelledBy (.object (members.filter fun member => keep member.1)) := by
  obtain ⟨_, same, classname, testResult, passed, ignored, failed⟩ := spelled
  obtain rfl := Json.object.inj same
  have plain : ∀ names : List String, (∀ name ∈ names, fieldKind? name = none) →
      ∀ name ∈ names, keep name = true := fun names plain name named => kept name (plain name named)
  exact ⟨_, rfl, classname.filter keep (.inr (plain _ (by decide))),
    testResult.filter keep (.inl absent), passed.filter keep (.inr (plain _ (by decide))),
    ignored.filter keep (.inr (plain _ (by decide))),
    failed.filter keep (.inr (plain _ (by decide)))⟩

theorem OutcomesOnly.members (plain : detail.OutcomesOnly) :
    ∃ members, detail.encode = .object members ∧
      ("testResult", .object [("present", .bool false)]) ∈ members ∧
      ∀ member ∈ members, member.2.KindFree (fieldsBelow true member.1) ∧
        (member.1 = "testResult" ∨ fieldKind? member.1 = none) := by
  have texts : ∀ names : List String, (Json.array (names.map .string)).KindFree true :=
    fun names => Json.kindFree_array_map fun name _ => .string name
  have absent : (Json.object [("present", .bool false)]).KindFree true :=
    Json.kindFree_object ["present"] (by decide) (.cons (.bool false) .nil)
  refine ⟨_, rfl, ?_, ?_⟩
  · simp [plain.testResult, encodeMaybe]
  · intro member found
    simp only [List.mem_append, List.mem_cons, List.not_mem_nil, or_false] at found
    obtain named | rfl | rfl | rfl | rfl := found
    · cases classname : detail.classname with
      | none => simp [optionalMember, classname] at named
      | some name =>
          obtain rfl : member = ("classname", .string name) := by
            simpa [optionalMember, classname] using named
          exact ⟨.string name, .inr rfl⟩
    · rw [plain.testResult, fieldsBelow_of_ne (by decide)]
      exact ⟨absent, .inl rfl⟩
    · dsimp only
      rw [fieldsBelow_of_ne (by decide)]
      exact ⟨texts detail.passedMethods, .inr rfl⟩
    · dsimp only
      rw [fieldsBelow_of_ne (by decide)]
      exact ⟨texts detail.ignoredMethods, .inr rfl⟩
    · change Json.KindFree (fieldsBelow true methodMapField) _ ∧ _
      rw [fieldsBelow_methodMapField]
      refine ⟨SortedMap.kindFree_encode fun entry found => ?_, .inr rfl⟩
      obtain ⟨_, description, cause⟩ := entry
      obtain rfl : description = none := plain.described _ found
      exact RemoteFailure.kindFree_encode cause

theorem OutcomesOnly.lacks_iff (plain : detail.OutcomesOnly) {missing : MissingAdapter} :
    Codec.Lacks codec missing true detail.encode ↔
      (codec.hasAdapter .maybe = false ∧ codec.isExcluded .maybe = false) ∧
        missing = ⟨"testResult", .maybe⟩ := by
  obtain ⟨members, encoded, present, each⟩ := plain.members
  have kind : fieldKind? "testResult" = some .maybe := rfl
  rw [encoded, Codec.lacks_object_iff]
  constructor
  · rintro ⟨member, found, stays, stops⟩
    obtain ⟨free, sort⟩ := each member found
    rcases stops with stops | lacks
    · rcases sort with named | kindless
      · simp only [named, Codec.drops, kind, Bool.true_and, Option.any_some] at stays
        simp only [named, Codec.missingAdapter?, kind, if_true] at stops
        split at stops
        · simp at stops
        · rename_i noAdapter
          rw [Bool.not_eq_true] at noAdapter
          exact ⟨⟨noAdapter, stays⟩, (Option.some.inj stops).symm⟩
      · rw [Codec.missingAdapter?_eq_none_of_kindless fun _ => kindless] at stops
        simp at stops
    · exact absurd lacks free.not_lacks
  · rintro ⟨⟨noAdapter, stays⟩, rfl⟩
    refine .intro _ ⟨present, ?_, .inl ?_⟩
    · simp [Codec.drops, kind, stays]
    · simp [Codec.missingAdapter?, kind, noAdapter]

theorem OutcomesOnly.yields_kept (plain : detail.OutcomesOnly) {levels : Nat}
    (fits : detail.encode.depth ≤ levels) :
    (Decoder.detail .value levels).Yields (codec.kept true detail.encode.sorted) detail := by
  obtain ⟨members, encoded, _, each⟩ := plain.members
  have alike : Codec.Alike codec true detail.encode (codec.kept true detail.encode.sorted) :=
    Codec.alike_kept_sorted detail.clean_encode.distinct
  have spelled := detail.spelledBy_encode
  rw [encoded] at alike spelled fits ⊢
  have left := spelled.filter (fun key => !codec.drops true key) plain.testResult
    fun name kindless => by
      rw [Codec.drops_eq_false_of_kindless fun _ => kindless]
      rfl
  have fitsLeft := Json.depth_filter_le (fun member => !codec.drops true member.1) fits
  have yields := @Decoder.detail_yields_of_spelled .text _ _ _ fitsLeft left
  exact (Decoder.detail_yields_iff_of_alike Codec.empty_dropsMarkersOnly (by simp) fitsLeft
    (alike.of_kindFree fun member found => (each member found).1)).mp yields

theorem OutcomesOnly.decodeDetail_render (plain : detail.OutcomesOnly)
    (fits : detail.encode.depth ≤ levelLimit) :
    codec.decodeDetail detail.render =
      if codec.hasAdapter .maybe || codec.isExcluded .maybe then .ok detail
      else .error (.noAdapter "testResult" .maybe) := by
  have parsed := Json.parse_render detail.clean_encode.exact fits
  have checked : checkMethodMap detail.render = .ok () :=
    checkMethodMap_eq_ok parsed detail.spelledBy_encode.ne_array
      (Decoder.detail_yields_of_spelled fits detail.spelledBy_encode)
  have lacks : ∀ missing, Codec.Lacks codec missing true detail.encode.sorted ↔
      (codec.hasAdapter .maybe = false ∧ codec.isExcluded .maybe = false) ∧
        missing = ⟨"testResult", .maybe⟩ := fun missing =>
    (Codec.lacks_sorted_iff detail.clean_encode.distinct).trans plain.lacks_iff
  split
  · rename_i passes
    refine (Codec.decodeDetail_eq_ok_iff parsed).mpr ⟨checked, fun missing stopped => ?_,
      plain.yields_kept fits⟩
    obtain ⟨⟨noAdapter, stays⟩, _⟩ := (lacks missing).mp stopped
    simp [noAdapter, stays] at passes
  · rename_i stops
    rw [Bool.not_eq_true, Bool.or_eq_false_iff] at stops
    rcases Codec.prune_cases codec true detail.encode.sorted with
      ⟨_, free⟩ | ⟨missing, stopped, found⟩
    · exact absurd ((lacks _).mpr ⟨stops, rfl⟩) (free _)
    · obtain ⟨_, rfl⟩ := (lacks missing).mp found
      exact Codec.decodeDetail_eq_noAdapter parsed checked stopped

end ResultDetail

namespace OutcomeSet

/--
A set comes back with its failed methods in byte order of their names, unless its text opens too
many levels or the codec can neither decode nor drop the field of the summary.
-/
theorem decode_render (set : OutcomeSet) (classname : Option String) (codec : Codec) :
    codec.decode (set.render classname) =
      (if levelLimit < (set.toDetail classname).encode.depth then
        .error (.notJson (codec.wording (set.render classname) (.text .malformed)))
      else if codec.hasAdapter .maybe || codec.isExcluded .maybe then .ok set.regrouped
      else .error (.noAdapter "testResult" .maybe)) ∧
    (sortedEntries set.failed).Perm set.failed ∧
    Text.InByteOrder ((sortedEntries set.failed).map Prod.fst) ∧
    set.regrouped.outcomes = set.grouped (sortedEntries set.failed) ∧
    set.regrouped.partitions = set.partitions := by
  refine ⟨?_, perm_sortedEntries set.distinctNames_failed,
    Text.inByteOrder_of_strictlySorted (strictlySorted_sortedEntries _), rfl,
    partitions_eq_of_perm (perm_regrouped set)⟩
  have plain := set.outcomesOnly_toDetail classname
  rw [Codec.decode, render]
  by_cases deep : levelLimit < (set.toDetail classname).encode.depth
  · have broken : Json.parse (set.toDetail classname).render = .error .malformed :=
      Json.parse_render_of_deep (set.toDetail classname).clean_encode.exact deep
    rw [if_pos deep, Codec.decodeDetail_eq_notJson broken, error_bind]
  · rw [if_neg deep, plain.decodeDetail_render (Nat.not_lt.mp deep)]
    split
    · rw [ok_bind, ofDetail_toDetail]
      rfl
    · rw [error_bind]

end OutcomeSet

end TestDelegation
