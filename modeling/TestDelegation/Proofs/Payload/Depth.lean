import TestDelegation.Payload.Encoder
import TestDelegation.Proofs.Outcome
import TestDelegation.Proofs.Payload.Positions

/-!
Levels of what was decoded, once it is encoded again. Main statement: `Decoder.depth_toDetail_le`.
The payload of a decoded set opens no more levels than the value that the set was decoded from.
-/

namespace TestDelegation

variable {α : Type}

theorem optionalMember_fits_iff {key : String} {encode : α → Json} {value : Option α}
    {levels : Nat} : (∀ member ∈ optionalMember key encode value, member.2.depth ≤ levels) ↔
      ∀ inner, value = some inner → (encode inner).depth ≤ levels := by
  cases value with
  | none => simp [optionalMember]
  | some inner => simp [optionalMember]

theorem listMember_fits_iff {key : String} {encode : α → Json} {items : List α} {levels : Nat} :
    (∀ member ∈ listMember key encode items, member.2.depth ≤ levels) ↔
      (items ≠ [] → (Json.array (items.map encode)).depth ≤ levels) := by
  cases items with
  | nil => simp [listMember]
  | cons first rest => simp [listMember]

theorem FailureCause.encode_eq (cause : FailureCause) :
    cause.encode = .object (cause.outer.members ++
      optionalMember "cause" FailureCause.encode cause.inner?) := by
  obtain ⟨outer, _ | ⟨inner, nested⟩⟩ := cause
  · simp [encode, Thrown.encode, inner?, optionalMember]
  · rfl

theorem Record.opens_of_decode {σ : Type} {record : Record σ α} {source : Source} {name : String}
    {value : Json} {values : α} (yields : (record.decode source name).Yields value values) :
    ∃ inner, value.depth = inner + 1 ∧ ∀ names index given,
      Json.FieldValue names index value given → given.depth ≤ inner := by
  have below : ∀ inner, value.depth = inner + 1 → ∀ names index given,
      Json.FieldValue names index value given → given.depth ≤ inner :=
    fun inner opened names index given found => found.depth_le (Nat.le_of_eq opened)
  cases value with
  | array items => exact ⟨_, rfl, below _ rfl⟩
  | object members => exact ⟨_, rfl, below _ rfl⟩
  | _ =>
      refine absurd yields ?_
      simpa [Decoder.Yields, Scan.ofJson, decode] using Decoder.wrongType_ne_ok

namespace Decoder

/-- What is decoded is encoded no deeper. -/
def NeverDeeper (decoder : Decoder α) (encode : α → Json) : Prop :=
  ∀ value result, decoder.Yields value result → (encode result).depth ≤ value.depth

variable {source : Source} {levels : Nat}

theorem string_neverDeeper : NeverDeeper string .string := fun _ _ _ => Nat.zero_le _

theorem listAt_neverDeeper {decoder : Nat → Decoder α} {encode : α → Json}
    (each : ∀ levels, NeverDeeper (decoder levels) encode) :
    NeverDeeper (listAt decoder levels) fun results => .array (results.map encode) := by
  intro value results yields
  cases levels with
  | zero => exact absurd yields not_opening_zero_yields
  | succ levels =>
      obtain ⟨items, rfl, related⟩ := list_yields_iff.mp yields
      obtain ⟨inner, opened, within⟩ := Json.array_fits (Nat.le_refl (Json.array items).depth)
      rw [opened, Json.depth_array_le_succ_iff]
      refine List.forall_mem_map.mpr fun result listed => ?_
      obtain ⟨item, found, yields⟩ := exists_mem_of_forall₂ related listed
      exact Nat.le_trans (each levels item result yields) (within item found)

theorem uniqueMapAt_neverDeeper {decoder : Nat → Decoder α} {encode : α → Json}
    (each : ∀ levels, NeverDeeper (decoder levels) encode) :
    NeverDeeper (uniqueMapAt decoder levels) (SortedMap.encode encode) := by
  intro value map yields
  cases levels with
  | zero => exact absurd yields not_opening_zero_yields
  | succ levels =>
      obtain ⟨members, entries, rfl, related, same⟩ := uniqueMap_yields_iff.mp yields
      obtain ⟨inner, opened, within⟩ := Json.object_fits (Nat.le_refl (Json.object members).depth)
      rw [opened, SortedMap.encode, Json.depth_object_le_succ_iff]
      refine List.forall_mem_map.mpr fun entry listed => ?_
      obtain ⟨member, found, yields⟩ := exists_mem_of_forall₂ related (same.mem_iff.mpr listed)
      exact Nat.le_trans (each levels member.2 entry.2 yields.2) (within member found)

theorem frame_neverDeeper : NeverDeeper (frame source levels) StackFrame.encode := by
  intro value result yields
  cases levels with
  | zero => exact absurd yields not_opening_zero_yields
  | succ levels =>
      obtain ⟨inner, opened, _⟩ := Record.opens_of_decode (frame_yields_iff.mp yields)
      have flat : result.encode.depth ≤ 0 + 1 := by
        rw [StackFrame.encode, Json.depth_object_le_succ_iff]
        simp only [List.forall_mem_append, optionalMember_fits_iff, List.forall_mem_cons]
        simp [Json.depth, SignedWord.encode, Json.integer]
      omega

theorem cause_neverDeeper : NeverDeeper (cause source levels) FailureCause.encode := by
  induction levels with
  | zero => exact fun value result yields => absurd yields not_noLevel_yields
  | succ levels ih =>
      intro value result yields
      have decoded := cause_yields_iff.mp yields
      obtain ⟨inner, opened, below⟩ := Record.opens_of_decode decoded
      obtain ⟨_, _, frames, nested, _⟩ :=
        Record.reads_of_decode (by rw [causeRecord_names]; decide) decoded
      have framesFit : result.outer.stackTrace ≠ [] →
          (Json.array (result.outer.stackTrace.map StackFrame.encode)).depth ≤ inner := by
        intro listed
        obtain absent | ⟨given, placed, found⟩ := frames
        · exact absurd (Option.some.inj absent).symm listed
        · exact Nat.le_trans (listAt_neverDeeper (fun _ => frame_neverDeeper) _ _ found)
            (below _ _ given placed)
      have nestedFits : ∀ cause, result.inner? = some cause → cause.encode.depth ≤ inner := by
        intro cause present
        rw [present] at nested
        obtain absent | ⟨given, placed, found⟩ := nested
        · cases absent
        · exact Nat.le_trans (ih _ _ (yields_of_optional found)) (below _ _ given placed)
      rw [opened, FailureCause.encode_eq, Json.depth_object_le_succ_iff, Thrown.members]
      simp only [List.forall_mem_append, optionalMember_fits_iff, listMember_fits_iff]
      refine ⟨⟨⟨?_, ?_⟩, framesFit⟩, nestedFits⟩
      · exact fun _ _ => Nat.zero_le inner
      · exact fun _ _ => Nat.zero_le inner

theorem failure_neverDeeper :
    NeverDeeper (failure source levels) fun failure =>
      RemoteFailure.encode ⟨none, failure.cause⟩ := by
  intro value result yields
  cases levels with
  | zero => exact absurd yields not_opening_zero_yields
  | succ levels =>
      have decoded := failure_yields_iff.mp yields
      obtain ⟨inner, opened, below⟩ := Record.opens_of_decode decoded
      obtain ⟨_, absent | ⟨given, placed, found⟩, _⟩ :=
        Record.reads_of_decode (by rw [failureRecord_names]; decide) decoded
      · cases absent
      · have fits : result.cause.encode.depth ≤ inner :=
          Nat.le_trans (cause_neverDeeper _ _ found) (below _ _ given placed)
        rw [opened]
        refine Json.depth_object_le_succ_iff.mpr ?_
        simpa [optionalMember] using fits

end Decoder

theorem OutcomeSet.failedMethods_toDetail {detail : ResultDetail} {set : OutcomeSet}
    (made : ofDetail detail = .ok set) (classname : Option String) :
    (set.toDetail classname).failedMethods =
      detail.failedMethods.map fun failure => ⟨none, failure.cause⟩ := by
  have inOrder := strictlySorted_map (fun failure => (⟨none, failure.cause⟩ : RemoteFailure))
    detail.failedMethods.sorted
  apply SortedMap.ext
  rw [toDetail, SortedMap.entries_foldl_insert fun cause => (⟨none, cause⟩ : RemoteFailure),
    failed_of_ofDetail made, List.map_map]
  exact sortedEntries_eq_of_perm (List.Perm.refl _) inOrder

theorem Decoder.depth_toDetail_le {source : Source} {levels : Nat} {value : Json}
    {detail : ResultDetail} {set : OutcomeSet}
    (yields : (Decoder.detail source levels).Yields value detail)
    (made : OutcomeSet.ofDetail detail = .ok set) (classname : Option String) :
    (set.toDetail classname).encode.depth ≤ value.depth := by
  cases levels with
  | zero => exact absurd yields not_opening_zero_yields
  | succ levels =>
      have decoded := detail_yields_iff.mp yields
      obtain ⟨inner, opened, below⟩ := Record.opens_of_decode decoded
      obtain ⟨_, _, passed, _, methods, _⟩ :=
        Record.reads_of_decode (by rw [detailRecord_names]; decide) decoded
      have second : 1 ≤ inner := by
        obtain absent | ⟨given, placed, found⟩ := passed
        · cases absent
        · have texts : (Json.array (detail.passedMethods.map .string)).depth ≤ given.depth :=
            listAt_neverDeeper (fun _ => string_neverDeeper) _ _ found
          have fits := below _ _ given placed
          rw [Json.depth] at texts
          omega
      have failures : ((set.toDetail classname).failedMethods.encode
          RemoteFailure.encode).depth ≤ inner := by
        obtain absent | ⟨given, placed, found⟩ := methods
        · cases absent
        · have fits := uniqueMapAt_neverDeeper (fun _ => failure_neverDeeper) _ _ found
          rw [OutcomeSet.failedMethods_toDetail made, SortedMap.map, SortedMap.encode, List.map_map]
          exact Nat.le_trans fits (below _ _ given placed)
      have flat : ∀ names : List String, (Json.array (names.map .string)).depth ≤ inner := by
        intro names
        refine Nat.le_trans (Json.depth_array_le_succ_iff.mpr ?_) second
        exact List.forall_mem_map.mpr fun _ _ => Nat.le_refl 0
      have absence : (Json.object [("present", .bool false)]).depth ≤ inner :=
        Nat.le_trans (by decide) second
      rw [opened, ResultDetail.encode, Json.depth_object_le_succ_iff]
      simp only [List.forall_mem_append, optionalMember_fits_iff, List.forall_mem_cons]
      exact ⟨fun _ _ => Nat.zero_le inner, absence, flat _, flat _, failures, by simp⟩

end TestDelegation
