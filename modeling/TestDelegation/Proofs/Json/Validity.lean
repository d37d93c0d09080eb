import Mathlib.Data.Set.List
import TestDelegation.Proofs.Json.Structure

/-!
Texts that are JSON by their syntax. Main statement: `exists_parse_eq_ok_iff`. Such a text need not
spell a value: a number may be beyond the range of floating point numbers, and a string or a key
may hold one half of a surrogate pair.
-/

namespace TestDelegation

namespace Scan

def depth : Scan → Nat
  | .array items _ => depthItems items + 1
  | .object members _ => depthMembers members + 1
  | _ => 0
where
  depthItems : List Scan → Nat
    | [] => 0
    | item :: rest => max item.depth (depthItems rest)
  depthMembers : List (Except Fault String × Scan) → Nat
    | [] => 0
    | (_, item) :: rest => max item.depth (depthMembers rest)

/-- Whether something holds of a scan and of all that stand within it. -/
def every (holds : Scan → Bool) : Scan → Bool
  | .array items stop => holds (.array items stop) && everyItem holds items
  | .object members stop => holds (.object members stop) && everyMember holds members
  | scan => holds scan
where
  everyItem (holds : Scan → Bool) : List Scan → Bool
    | [] => true
    | item :: rest => item.every holds && everyItem holds rest
  everyMember (holds : Scan → Bool) : List (Except Fault String × Scan) → Bool
    | [] => true
    | (_, item) :: rest => item.every holds && everyMember holds rest

/-- Whether the number or the string here, or each key of the object here, has a value. -/
def hasValue : Scan → Bool
  | .number value => value.isOk
  | .string text => text.isOk
  | .object members _ => members.all fun member => member.1.isOk
  | _ => true

def keysApart : Scan → Bool
  | .object members _ => (members.filterMap fun member => member.1.toOption).Nodup
  | _ => true

def isArray : Scan → Bool
  | .array _ _ => true
  | _ => false

variable {holds : Scan → Bool}

theorem every_array_iff {items : List Scan} {stop : Option Break} :
    (array items stop).every holds = true ↔
      holds (array items stop) = true ∧ ∀ item ∈ items, item.every holds = true := by
  rw [every, Bool.and_eq_true]
  refine and_congr_right' ?_
  induction items with
  | nil => simp [every.everyItem]
  | cons first rest ih => simp [every.everyItem, ih]

theorem every_object_iff {members : List (Except Fault String × Scan)} {stop : Option Break} :
    (object members stop).every holds = true ↔
      holds (object members stop) = true ∧ ∀ member ∈ members, member.2.every holds = true := by
  rw [every, Bool.and_eq_true]
  refine and_congr_right' ?_
  induction members with
  | nil => simp [every.everyMember]
  | cons first rest ih => simp [every.everyMember, ih]

theorem skipItems_eq_none_iff {items : List Scan} :
    skip.skipItems items = none ↔ ∀ item ∈ items, item.skip = none := by
  induction items with
  | nil => simp [skip.skipItems]
  | cons first rest ih => simp [skip.skipItems, ih]

theorem skipMembers_eq_none_iff {members : List (Except Fault String × Scan)} :
    skip.skipMembers members = none ↔ ∀ member ∈ members, member.2.skip = none := by
  induction members with
  | nil => simp [skip.skipMembers]
  | cons first rest ih => simp [skip.skipMembers, ih]

theorem depth_ofJson (value : Json) : (ofJson value).depth = value.depth := by
  induction value using Json.induct with
  | array items ih =>
      rw [ofJson, depth, Json.depth, ofItems_eq_map]
      congr 1
      induction items with
      | nil => rfl
      | cons first rest later =>
          obtain ⟨firstSame, restSame⟩ := List.forall_mem_cons.mp ih
          rw [List.map_cons, depth.depthItems, Json.depth.depthItems, firstSame, later restSame]
  | object members ih =>
      rw [ofJson, depth, Json.depth, ofMembers_eq_map]
      congr 1
      induction members with
      | nil => rfl
      | cons first rest later =>
          obtain ⟨firstSame, restSame⟩ := List.forall_mem_cons.mp ih
          rw [List.map_cons, depth.depthMembers, Json.depth.depthMembers, firstSame,
            later restSame]
  | _ => rfl

theorem keysApart_ofJson_iff {value : Json} :
    (ofJson value).every keysApart = true ↔ value.DistinctKeys := by
  induction value using Json.induct with
  | null => simp [ofJson, every, keysApart, Json.DistinctKeys.null]
  | bool _ => simp [ofJson, every, keysApart, Json.DistinctKeys.bool]
  | number _ => simp [ofJson, every, keysApart, Json.DistinctKeys.number]
  | string _ => simp [ofJson, every, keysApart, Json.DistinctKeys.string]
  | array items ih =>
      rw [ofJson, every_array_iff, ofItems_eq_map, List.forall_mem_map, forall₂_congr ih,
        Json.distinctKeys_array_iff]
      exact and_iff_right rfl
  | object members ih =>
      have named : (members.map fun member => (Except.ok member.1, ofJson member.2)).filterMap
          (fun member => (member.1 : Except Fault String).toOption) = members.map Prod.fst := by
        simp [List.filterMap_map, Except.toOption]
      rw [ofJson, every_object_iff, ofMembers_eq_map, List.forall_mem_map, forall₂_congr ih,
        keysApart, named, decide_eq_true_iff, Json.distinctKeys_object_iff]

theorem every_hasValue_ofJson (value : Json) : (ofJson value).every hasValue = true := by
  induction value using Json.induct with
  | array items ih =>
      rw [ofJson, every_array_iff, ofItems_eq_map]
      exact ⟨rfl, List.forall_mem_map.mpr ih⟩
  | object members ih =>
      rw [ofJson, every_object_iff, ofMembers_eq_map]
      exact ⟨by simp [hasValue, Except.isOk, Except.toBool], List.forall_mem_map.mpr ih⟩
  | _ => rfl

theorem exists_eq_ofJson {scan : Scan} (skipped : scan.skip = none)
    (spelled : scan.every hasValue = true) : ∃ value, scan = ofJson value := by
  induction scan using Scan.induct with
  | null => exact ⟨.null, rfl⟩
  | bool value => exact ⟨.bool value, rfl⟩
  | number value =>
      obtain ⟨numeral, rfl⟩ := isOk_iff.mp spelled
      exact ⟨.number numeral, rfl⟩
  | string text =>
      obtain ⟨value, rfl⟩ := isOk_iff.mp spelled
      exact ⟨.string value, rfl⟩
  | array items stop ih =>
      simp only [skip, Option.or_eq_none_iff, Option.map_eq_none_iff,
        skipItems_eq_none_iff] at skipped
      obtain ⟨skipped, rfl⟩ := skipped
      have spelled := (every_array_iff.mp spelled).2
      have each : items ∈ Set.range (List.map ofJson) := by
        rw [Set.range_list_map]
        intro item found
        obtain ⟨value, same⟩ := ih item found (skipped item found) (spelled item found)
        exact ⟨value, same.symm⟩
      obtain ⟨values, rfl⟩ := each
      exact ⟨.array values, by rw [ofJson, ofItems_eq_map]⟩
  | object members stop ih =>
      simp only [skip, Option.or_eq_none_iff, Option.map_eq_none_iff,
        skipMembers_eq_none_iff] at skipped
      obtain ⟨skipped, rfl⟩ := skipped
      rw [every_object_iff, hasValue, List.all_eq_true] at spelled
      have each : members ∈ Set.range
          (List.map fun member : String × Json => (Except.ok member.1, ofJson member.2)) := by
        rw [Set.range_list_map]
        intro member found
        obtain ⟨key, item⟩ := member
        obtain ⟨name, rfl⟩ := isOk_iff.mp (spelled.1 _ found)
        obtain ⟨value, rfl⟩ := ih _ found (skipped _ found) (spelled.2 _ found)
        exact ⟨(name, value), rfl⟩
      obtain ⟨values, rfl⟩ := each
      exact ⟨.object values, by rw [ofJson, ofMembers_eq_map]⟩
  | broken stop => simp [skip] at skipped

theorem exists_eq_ofJson_iff {scan : Scan} :
    (∃ value, scan = ofJson value) ↔ scan.skip = none ∧ scan.every hasValue = true := by
  constructor
  · rintro ⟨value, rfl⟩
    exact ⟨skip_ofJson value, every_hasValue_ofJson value⟩
  · rintro ⟨skipped, spelled⟩
    exact exists_eq_ofJson skipped spelled

end Scan

namespace Json

/-- A reader that only skips gets through the text, and no level is beyond the limit. -/
structure Valid (text : String) : Prop where
  skipped : (scan text).value.skip = none
  whole : (scan text).trailing = false
  fits : (scan text).value.depth ≤ levelLimit

variable {text : String} {value : Json}

theorem valid_of_parse (parsed : parse text = .ok value) : Valid text := by
  obtain ⟨scanned, fits⟩ := parse_eq_ok_iff.mp parsed
  refine ⟨?_, ?_, ?_⟩
  · rw [scanned, Scan.skip_ofJson]
  · rw [scanned]
  · rwa [scanned, Scan.depth_ofJson]

theorem exists_parse_eq_ok_iff (valid : Valid text) :
    (∃ value, parse text = .ok value) ↔ (scan text).value.every Scan.hasValue = true := by
  constructor
  · rintro ⟨value, parsed⟩
    obtain ⟨scanned, _⟩ := parse_eq_ok_iff.mp parsed
    exact (Scan.exists_eq_ofJson_iff.mp ⟨value, congrArg Document.value scanned⟩).2
  · intro spelled
    obtain ⟨value, same⟩ := Scan.exists_eq_ofJson_iff.mpr ⟨valid.skipped, spelled⟩
    refine ⟨value, parse_eq_ok_iff.mpr ⟨?_, ?_⟩⟩
    · rw [← same, ← valid.whole]
    · rw [← Scan.depth_ofJson, ← same]
      exact valid.fits

theorem keysApart_of_parse_iff (parsed : parse text = .ok value) :
    (scan text).value.every Scan.keysApart = true ↔ value.DistinctKeys := by
  rw [(parse_eq_ok_iff.mp parsed).1]
  exact Scan.keysApart_ofJson_iff

theorem exists_parse_of_spelled (valid : Valid text)
    (spelled : (scan text).value.every Scan.hasValue = true)
    (distinct : (scan text).value.every Scan.keysApart = true) :
    ∃ value, parse text = .ok value ∧ value.DistinctKeys := by
  obtain ⟨value, parsed⟩ := (exists_parse_eq_ok_iff valid).mpr spelled
  exact ⟨value, parsed, (keysApart_of_parse_iff parsed).mp distinct⟩

theorem exists_parse_eq_error (valid : Valid text)
    (spoiled : (scan text).value.every Scan.hasValue = false) :
    ∃ fault, parse text = .error fault := by
  cases parsed : parse text with
  | error fault => exact ⟨fault, rfl⟩
  | ok value =>
      have spelled := (exists_parse_eq_ok_iff valid).mp ⟨value, parsed⟩
      exact absurd (spelled.symm.trans spoiled) nofun

end Json

end TestDelegation
