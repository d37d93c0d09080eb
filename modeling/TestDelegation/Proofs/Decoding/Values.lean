import Mathlib.Data.List.Forall2
import TestDelegation.Decoding.Basic
import TestDelegation.Proofs.Json.Structure
import TestDelegation.Proofs.SortedMap

/-!
What the decoders of single values make of a JSON value that stands in the text as a whole.
-/

namespace TestDelegation

namespace Decoder

/-- The decoder makes this result of a value. -/
def Yields {α : Type} (decoder : Decoder α) (value : Json) (result : α) : Prop :=
  decoder (Scan.ofJson value) = .ok result

variable {α : Type}

theorem wrongType_ne_ok {expected : Expected} {scan : Scan} {result : α} :
    wrongType expected scan ≠ .ok result := by
  cases scan with
  | number value => cases value <;> simp [wrongType, mismatched, broken]
  | string text => cases text <;> simp [wrongType, mismatched, broken]
  | _ => simp [wrongType, mismatched, broken]

theorem not_noLevel_yields {expected : Expected} {value : Json} {result : α} :
    ¬Yields (noLevel expected) value result := by
  cases value with
  | array items =>
      simp only [Yields, Scan.ofJson, noLevel]
      split
      · simp [broken]
      · exact wrongType_ne_ok
  | object members =>
      simp only [Yields, Scan.ofJson, noLevel]
      split
      · simp [broken]
      · exact wrongType_ne_ok
  | _ => simpa [Yields, Scan.ofJson, noLevel] using wrongType_ne_ok

theorem string_yields_iff {value : Json} {result : String} :
    string.Yields value result ↔ value = .string result := by
  cases value with
  | string text => simp [Yields, Scan.ofJson, string]
  | _ => simpa [Yields, Scan.ofJson, string] using wrongType_ne_ok

theorem boolean_yields_iff {value : Json} {result : Bool} :
    boolean.Yields value result ↔ value = .bool result := by
  cases value with
  | bool text => simp [Yields, Scan.ofJson, boolean]
  | _ => simpa [Yields, Scan.ofJson, boolean] using wrongType_ne_ok

theorem optional_yields_iff {decoder : Decoder α} {value : Json} {result : Option α} :
    (optional decoder).Yields value result ↔
      (value = .null ∧ result = none) ∨
      (value ≠ .null ∧ ∃ inner, decoder.Yields value inner ∧ some inner = result) := by
  cases value with
  | null => simp [Yields, Scan.ofJson, optional, eq_comm]
  | _ => simp [Yields, Scan.ofJson, optional, map_eq_ok_iff]

theorem ignored_yields (value : Json) : ignored.Yields value () := by
  simp [Yields, ignored, Scan.skip_ofJson]

theorem anything_ofJson (levels : Nat) (value : Json) :
    anything levels (Scan.ofJson value) =
      if value.depth ≤ levels then .ok value else broken .malformed := by
  by_cases fits : value.depth ≤ levels
  · simp [anything, Scan.read_ofJson, fits]
  · simp [anything, Scan.read_ofJson, fits]

theorem items_map_eq_ok_iff {decoder : Decoder α} {values : List Json} {results : List α} :
    items decoder (values.map Scan.ofJson) = .ok results ↔
      List.Forall₂ decoder.Yields values results := by
  induction values generalizing results with
  | nil => simp [items, eq_comm]
  | cons value values ih =>
      simp only [List.map_cons, items, bind_eq_ok_iff, pure_eq_ok_iff, ih, List.forall₂_cons_left_iff]
      constructor
      · rintro ⟨first, yields, rest, each, rfl⟩
        exact ⟨first, rest, yields, each, rfl⟩
      · rintro ⟨first, rest, yields, each, rfl⟩
        exact ⟨first, yields, rest, each, rfl⟩

theorem list_yields_iff {decoder : Decoder α} {value : Json} {results : List α} :
    (list decoder).Yields value results ↔
      ∃ items, value = .array items ∧ List.Forall₂ decoder.Yields items results := by
  cases value with
  | array items =>
      simp [Yields, Scan.ofJson, list, Scan.ofItems_eq_map, bind_eq_ok_iff,
        items_map_eq_ok_iff, finish]
  | _ => simpa [Yields, Scan.ofJson, list] using wrongType_ne_ok

def YieldsEntry (decoder : Decoder α) (member : String × Json) (entry : String × α) : Prop :=
  member.1 = entry.1 ∧ decoder.Yields member.2 entry.2

theorem uniqueMembers_eq_ok_iff {decoder : Decoder α} {members : List (String × Json)}
    {map result : SortedMap α} :
    uniqueMembers decoder map
        (members.map fun member => (.ok member.1, Scan.ofJson member.2)) = .ok result ↔
      ∃ entries, List.Forall₂ decoder.YieldsEntry members entries ∧
        (entries ++ map.entries).Perm result.entries := by
  induction members generalizing map with
  | nil =>
      simp only [List.map_nil, uniqueMembers, Except.ok.injEq, List.forall₂_nil_left_iff,
        exists_eq_left, List.nil_append]
      constructor
      · rintro rfl
        exact List.Perm.refl _
      · exact SortedMap.eq_of_perm
  | cons member members ih =>
      obtain ⟨key, value⟩ := member
      simp only [List.map_cons, uniqueMembers, List.forall₂_cons_left_iff]
      constructor
      · intro found
        split at found
        · simp [mismatched] at found
        · rename_i fresh
          rw [Bool.not_eq_true] at fresh
          obtain ⟨first, yields, later⟩ := bind_eq_ok_iff.mp found
          obtain ⟨entries, each, same⟩ := ih.mp later
          refine ⟨(key, first) :: entries, ⟨(key, first), entries, ⟨rfl, yields⟩, each, rfl⟩, ?_⟩
          have inserted := (SortedMap.perm_insert fresh first).append_left entries
          exact (List.perm_middle.symm.trans inserted.symm).trans same
      · rintro ⟨_, ⟨⟨_, first⟩, entries, ⟨rfl, yields⟩, each, rfl⟩, same⟩
        have fresh : map.contains key = false := by
          have distinct := distinctNames_of_perm same
            (distinctNames_of_strictlySorted result.sorted)
          simp only [DistinctNames, List.cons_append, List.map_cons, List.map_append,
            List.nodup_cons, List.mem_append, not_or, ← SortedMap.contains_eq_true_iff,
            Bool.not_eq_true] at distinct
          exact distinct.1.2
        have inserted := (SortedMap.perm_insert fresh first).append_left entries
        rw [if_neg (by simp [fresh])]
        refine bind_eq_ok_iff.mpr ⟨first, yields, ih.mpr ⟨entries, each, ?_⟩⟩
        exact (inserted.trans List.perm_middle).trans same

theorem uniqueMap_yields_iff {decoder : Decoder α} {value : Json} {result : SortedMap α} :
    (uniqueMap decoder).Yields value result ↔
      ∃ members entries, value = .object members ∧
        List.Forall₂ decoder.YieldsEntry members entries ∧ entries.Perm result.entries := by
  cases value with
  | object members =>
      simp [Yields, Scan.ofJson, uniqueMap, Scan.ofMembers_eq_map, bind_eq_ok_iff,
        uniqueMembers_eq_ok_iff, finish, SortedMap.empty]
  | _ => simpa [Yields, Scan.ofJson, uniqueMap] using wrongType_ne_ok

theorem opening_succ_yields_iff {expected : Expected} {decoder : Nat → Decoder α} {levels : Nat}
    {value : Json} {result : α} :
    (opening expected decoder (levels + 1)).Yields value result ↔
      (decoder levels).Yields value result := Iff.rfl

theorem not_opening_zero_yields {expected : Expected} {decoder : Nat → Decoder α} {value : Json}
    {result : α} : ¬(opening expected decoder 0).Yields value result :=
  not_noLevel_yields

end Decoder

namespace SignedWord

variable {bits : Nat}

theorem toInt_injective {first second : SignedWord bits} (same : first.toInt = second.toInt) :
    first = second :=
  Subtype.ext same

theorem ofInt?_eq_some_iff {value : Int} {word : SignedWord bits} :
    ofInt? bits value = some word ↔ value = word.toInt := by
  simp only [ofInt?]
  constructor
  · intro found
    split at found
    · exact congrArg toInt (Option.some.inj found)
    · simp at found
  · rintro rfl
    have inRange : -signedLimit bits ≤ word.toInt ∧ word.toInt < signedLimit bits := word.property
    exact dif_pos inRange

theorem exists_wider {wide : Nat} (word : SignedWord bits) (wider : bits ≤ wide) :
    ∃ other : SignedWord wide, other.toInt = word.toInt := by
  have limits : signedLimit bits ≤ signedLimit wide :=
    Int.ofNat_le.mpr (Nat.pow_le_pow_right (by decide) (Nat.sub_le_sub_right wider 1))
  obtain ⟨value, lower, upper⟩ := word
  exact ⟨⟨value, by omega, by omega⟩, rfl⟩

end SignedWord

theorem Decoder.word_yields_iff {bits : Nat} {value : Json} {result : SignedWord bits} :
    (word bits).Yields value result ↔ value = .integer result.toInt := by
  cases value with
  | number numeral =>
      cases numeral with
      | integer value =>
          simp only [Yields, Scan.ofJson, word, Json.integer, Json.number.injEq,
            Numeral.integer.injEq, ← SignedWord.ofInt?_eq_some_iff]
          cases SignedWord.ofInt? bits value with
          | none => simp [mismatched]
          | some found => simp
      | real value => simpa [Yields, Scan.ofJson, word, Json.integer] using wrongType_ne_ok
  | _ => simpa [Yields, Scan.ofJson, word, Json.integer] using wrongType_ne_ok

end TestDelegation
