import TestDelegation.Proofs.Json.Literals
import TestDelegation.Proofs.Json.Structure

/-!
A printed value scans back to itself. Main statement: `parse_render`. Floating point numbers stand
outside of it: they are printed in their fewest digits, but read with two roundings.
-/

namespace TestDelegation.Json

open Decimal

/-- Values whose numbers are integers of 64 bits, signed or unsigned. -/
inductive Exact : Json → Prop
  | null : Exact .null
  | bool (value : Bool) : Exact (.bool value)
  | integer {value : Int} : -(Nat.pow 2 63 : Int) ≤ value → value < unsignedLimit →
      Exact (.number (.integer value))
  | string (value : String) : Exact (.string value)
  | array {items : List Json} : (∀ item ∈ items, Exact item) → Exact (.array items)
  | object {members : List (String × Json)} : (∀ member ∈ members, Exact member.2) →
      Exact (.object members)

/-- With fuel for its length a printed value is scanned whole, up to what follows it. -/
def ScansBack (value : Json) : Prop :=
  ∀ fuel rest, 2 * value.chars.length ≤ fuel → EndsNumber rest →
    scanValue fuel (value.chars ++ rest) = (Scan.ofJson value, some rest)

theorem endsNumber_comma (rest : List Char) : EndsNumber (',' :: rest) := by
  simp [EndsNumber, isDigit]

theorem endsNumber_bracket (rest : List Char) : EndsNumber (']' :: rest) := by
  simp [EndsNumber, isDigit]

theorem endsNumber_brace (rest : List Char) : EndsNumber ('\x7d' :: rest) := by
  simp [EndsNumber, isDigit]

theorem dropSpaces_of_head (first : Char) (shown : isSpace first = false) (rest : List Char) :
    dropSpaces (first :: rest) = first :: rest := by
  simp [dropSpaces, shown]

theorem isSpace_of_isDigit {char : Char} (digit : isDigit char) : isSpace char = false := by
  simp only [isSpace, Bool.or_eq_false_iff, beq_eq_false_iff_ne]
  refine ⟨⟨⟨?_, ?_⟩, ?_⟩, ?_⟩
  all_goals
    rintro rfl
    simp [isDigit] at digit

theorem scanValue_digits {fuel : Nat} {value : Nat} {rest : List Char} (enough : 0 < fuel)
    (fits : value < unsignedLimit) (ended : EndsNumber rest) :
    scanValue fuel (digits value ++ rest) = (.number (.ok (.integer value)), some rest) := by
  obtain ⟨fuel, rfl⟩ := Nat.exists_eq_succ_of_ne_zero (Nat.ne_of_gt enough)
  have scanned := scanNumber_digits false value ended
  obtain ⟨first, later, written⟩ := List.exists_cons_of_ne_nil (digits_ne_nil value)
  have digit : isDigit first := isDigit_head_digits written
  rw [numeral_of_digits fits] at scanned
  rw [written, List.cons_append] at scanned ⊢
  rw [Nat.succ_eq_add_one, scanValue, dropSpaces_of_head _ (isSpace_of_isDigit digit)]
  split
  case h_9 same =>
    obtain ⟨rfl, rfl⟩ := List.cons.inj same
    simp [digit, scanned, ofNumber]
  case h_1 same => simp at same
  all_goals
    rename_i same
    obtain ⟨rfl, rfl⟩ := List.cons.inj same
    simp [isDigit] at digit

theorem scansBack_null : ScansBack .null := by
  intro fuel rest enough _
  obtain ⟨fuel, rfl⟩ := Nat.exists_eq_succ_of_ne_zero (Nat.ne_of_gt (Nat.lt_of_lt_of_le
    (by decide) enough))
  simp [chars, scanValue, dropSpaces, isSpace, scanWord, Scan.ofJson]

theorem scansBack_bool (value : Bool) : ScansBack (.bool value) := by
  intro fuel rest enough _
  cases value with
  | true =>
      obtain ⟨fuel, rfl⟩ := Nat.exists_eq_succ_of_ne_zero (Nat.ne_of_gt (Nat.lt_of_lt_of_le
        (by decide) enough))
      simp [chars, scanValue, dropSpaces, isSpace, scanWord, Scan.ofJson]
  | false =>
      obtain ⟨fuel, rfl⟩ := Nat.exists_eq_succ_of_ne_zero (Nat.ne_of_gt (Nat.lt_of_lt_of_le
        (by decide) enough))
      simp [chars, scanValue, dropSpaces, isSpace, scanWord, Scan.ofJson]

theorem scansBack_integer {value : Int} (low : -(Nat.pow 2 63 : Int) ≤ value)
    (high : value < unsignedLimit) : ScansBack (.number (.integer value)) := by
  intro fuel rest enough ended
  cases value with
  | ofNat value =>
      have written : (Json.number (.integer (.ofNat value))).chars = digits value := rfl
      have positive : 0 < (digits value).length :=
        List.length_pos_iff.mpr (digits_ne_nil value)
      rw [written] at enough ⊢
      have fits : value < unsignedLimit := Int.ofNat_lt.mp high
      rw [scanValue_digits (by omega) fits ended]
      rfl
  | negSucc value =>
      have written : (Json.number (.integer (.negSucc value))).chars = '-' :: digits (value + 1) :=
        rfl
      rw [written] at enough ⊢
      rw [List.length_cons] at enough
      obtain ⟨fuel, rfl⟩ := Nat.exists_eq_succ_of_ne_zero (show fuel ≠ 0 by omega)
      have fits : value + 1 ≤ Nat.pow 2 63 := by
        have cast : Int.negSucc value = -((value : Int) + 1) := Int.negSucc_eq value
        omega
      rw [List.cons_append, Nat.succ_eq_add_one, scanValue, dropSpaces_of_head _ (by decide)]
      simp only [scanNumber_digits true (value + 1) ended,
        numeral_of_negative_digits (Nat.succ_pos value) fits, ofNumber]
      rfl

theorem length_le_length_flatMap_escapedChar (chars : List Char) :
    chars.length ≤ (chars.flatMap escapedChar).length := by
  induction chars with
  | nil => simp
  | cons char chars ih =>
      have some : 0 < (escapedChar char).length := by
        rcases escapedChar_cases char with ⟨_, written, _⟩ | ⟨_, written⟩ | ⟨written, _⟩ <;>
          simp [written]
      simp only [List.flatMap_cons, List.length_append, List.length_cons]
      omega

theorem scanString_stringChars (fuel : Nat) (text : String)
    (enough : 2 * (stringChars text).length ≤ fuel + 1) (rest : List Char) :
    ∃ later, stringChars text ++ rest = '"' :: later ∧
      scanString fuel later = .ok (.ok text, rest) := by
  refine ⟨text.toList.flatMap escapedChar ++ '"' :: rest, by simp [stringChars], ?_⟩
  have longer := length_le_length_flatMap_escapedChar text.toList
  simp only [stringChars, List.length_append, List.length_cons, List.length_nil] at enough
  exact scanString_flatMap (by omega) rest

theorem scansBack_string (text : String) : ScansBack (.string text) := by
  intro fuel rest enough _
  rw [chars] at enough ⊢
  have positive : 0 < (stringChars text).length := by simp [stringChars]
  obtain ⟨fuel, rfl⟩ := Nat.exists_eq_succ_of_ne_zero (show fuel ≠ 0 by omega)
  obtain ⟨later, written, scanned⟩ := scanString_stringChars _ text enough rest
  rw [written, Nat.succ_eq_add_one, scanValue, dropSpaces_of_head _ (by decide)]
  simp only [scanned]
  rfl

theorem head_chars {value : Json} (exact : value.Exact) :
    ∃ first later, value.chars = first :: later ∧ isSpace first = false ∧ first ≠ ']' := by
  cases exact with
  | null => exact ⟨'n', _, rfl, by decide, by decide⟩
  | bool value =>
      cases value with
      | true => exact ⟨'t', _, rfl, by decide, by decide⟩
      | false => exact ⟨'f', _, rfl, by decide, by decide⟩
  | @integer value _ _ =>
      cases value with
      | ofNat value =>
          obtain ⟨first, later, written⟩ := List.exists_cons_of_ne_nil (digits_ne_nil value)
          have digit : isDigit first := isDigit_head_digits written
          refine ⟨first, later, written, isSpace_of_isDigit digit, ?_⟩
          rintro rfl
          simp [isDigit] at digit
      | negSucc value => exact ⟨'-', _, rfl, by decide, by decide⟩
  | string text => exact ⟨'"', _, rfl, by decide, by decide⟩
  | array _ => exact ⟨'[', _, rfl, by decide, by decide⟩
  | object _ => exact ⟨'\x7b', _, rfl, by decide, by decide⟩

theorem scanItems_itemsChars {first : Json} {later : List Json}
    (each : ∀ item ∈ first :: later, item.ScansBack) (fuel : Nat)
    (enough : 2 * (chars.itemsChars (first :: later)).length < fuel) (rest : List Char) :
    scanItems fuel (chars.itemsChars (first :: later) ++ ']' :: rest) =
      ((first :: later).map Scan.ofJson, none, some rest) := by
  induction later generalizing first fuel with
  | nil =>
      obtain ⟨fuel, rfl⟩ := Nat.exists_eq_succ_of_ne_zero (show fuel ≠ 0 by omega)
      have scanned := each first (by simp) fuel (']' :: rest)
      simp only [chars.itemsChars, chars.laterItemsChars, List.append_nil] at enough ⊢
      rw [Nat.succ_eq_add_one, scanItems, scanned (by omega) (endsNumber_bracket rest)]
      simp [dropSpaces_of_head ']' (by decide)]
  | cons second later ih =>
      obtain ⟨fuel, rfl⟩ := Nat.exists_eq_succ_of_ne_zero (show fuel ≠ 0 by omega)
      have written : chars.itemsChars (first :: second :: later) =
          first.chars ++ ',' :: chars.itemsChars (second :: later) := rfl
      rw [written, List.length_append, List.length_cons] at enough
      have scanned := each first (by simp) fuel
        (',' :: (chars.itemsChars (second :: later) ++ ']' :: rest)) (by omega)
        (endsNumber_comma _)
      have next := ih (fun item member => each item (List.mem_cons_of_mem _ member)) fuel
        (by omega)
      rw [written, List.append_assoc, List.cons_append, Nat.succ_eq_add_one, scanItems, scanned]
      simp [dropSpaces_of_head ',' (by decide), next]

theorem scansBack_array {items : List Json} (exact : ∀ item ∈ items, item.Exact)
    (each : ∀ item ∈ items, item.ScansBack) : ScansBack (.array items) := by
  intro fuel rest enough _
  cases items with
  | nil =>
      obtain ⟨fuel, rfl⟩ := Nat.exists_eq_succ_of_ne_zero (Nat.ne_of_gt (Nat.lt_of_lt_of_le
        (by decide) enough))
      simp [chars, chars.itemsChars, scanValue, dropSpaces, isSpace, Scan.ofJson,
        Scan.ofItems_eq_map]
  | cons first later =>
      have written : (Json.array (first :: later)).chars ++ rest =
          '[' :: (chars.itemsChars (first :: later) ++ ']' :: rest) := by
        simp [chars]
      have length : (Json.array (first :: later)).chars.length =
          (chars.itemsChars (first :: later)).length + 2 := by
        simp [chars]
      obtain ⟨fuel, rfl⟩ := Nat.exists_eq_succ_of_ne_zero (show fuel ≠ 0 by omega)
      have scanned := scanItems_itemsChars each fuel (by omega) rest
      obtain ⟨head, tail, headWritten, shown, notBracket⟩ := head_chars (exact first (by simp))
      have front : chars.itemsChars (first :: later) ++ ']' :: rest =
          head :: (tail ++ (chars.laterItemsChars later ++ ']' :: rest)) := by
        simp [chars.itemsChars, headWritten]
      rw [front] at scanned
      rw [written, front, Nat.succ_eq_add_one, scanValue, dropSpaces_of_head _ (by decide)]
      simp only [dropSpaces_of_head _ shown]
      split
      · rename_i same
        simp at same
      · rename_i same
        exact absurd (List.cons.inj same).1 notBracket
      · simp [scanned, Scan.ofJson, Scan.ofItems_eq_map]

theorem scanned_member {value : Json} (scans : value.ScansBack) (key : String) (fuel : Nat)
    {after : List Char} (enough : 2 * ((stringChars key).length + value.chars.length) ≤ fuel)
    (ended : EndsNumber after) :
    ∃ quoted, stringChars key ++ ':' :: (value.chars ++ after) = '"' :: quoted ∧
      scanString fuel quoted = .ok (.ok key, ':' :: (value.chars ++ after)) ∧
      afterColon (':' :: (value.chars ++ after)) = .ok (value.chars ++ after) ∧
      scanValue fuel (value.chars ++ after) = (Scan.ofJson value, some after) := by
  obtain ⟨quoted, written, scanned⟩ := scanString_stringChars fuel key (by omega)
    (':' :: (value.chars ++ after))
  refine ⟨quoted, written, scanned, ?_, scans fuel after (by omega) ended⟩
  simp [afterColon, dropSpaces_of_head ':' (by decide)]

theorem scanMembers_membersChars {first : String × Json} {later : List (String × Json)}
    (each : ∀ member ∈ first :: later, member.2.ScansBack) (fuel : Nat)
    (enough : 2 * (chars.membersChars (first :: later)).length < fuel) (rest : List Char) :
    scanMembers fuel (chars.membersChars (first :: later) ++ '\x7d' :: rest) =
      ((first :: later).map fun member => (.ok member.1, Scan.ofJson member.2), none,
        some rest) := by
  induction later generalizing first fuel with
  | nil =>
      obtain ⟨key, value⟩ := first
      obtain ⟨fuel, rfl⟩ := Nat.exists_eq_succ_of_ne_zero (show fuel ≠ 0 by omega)
      have scans : value.ScansBack := each (key, value) List.mem_cons_self
      have written : chars.membersChars [(key, value)] =
          stringChars key ++ ':' :: value.chars := by
        simp [chars.membersChars, chars.laterMembersChars]
      rw [written, List.length_append, List.length_cons] at enough
      obtain ⟨quoted, keyWritten, keyScanned, colon, scanned⟩ :=
        scanned_member scans key fuel (by omega) (endsNumber_brace rest)
      rw [written, List.append_assoc, List.cons_append, Nat.succ_eq_add_one, keyWritten,
        scanMembers, dropSpaces_of_head _ (by decide)]
      simp [keyScanned, colon, scanned, dropSpaces_of_head '\x7d' (by decide)]
  | cons second later ih =>
      obtain ⟨key, value⟩ := first
      obtain ⟨fuel, rfl⟩ := Nat.exists_eq_succ_of_ne_zero (show fuel ≠ 0 by omega)
      have scans : value.ScansBack := each (key, value) List.mem_cons_self
      have written : chars.membersChars ((key, value) :: second :: later) =
          stringChars key ++ ':' :: (value.chars ++
            ',' :: chars.membersChars (second :: later)) := by
        simp [chars.membersChars, chars.laterMembersChars]
      rw [written] at enough
      simp only [List.length_append, List.length_cons] at enough
      have next := ih (fun member found => each member (List.mem_cons_of_mem _ found)) fuel
        (by omega)
      obtain ⟨quoted, keyWritten, keyScanned, colon, scanned⟩ :=
        scanned_member scans key fuel (by omega) (endsNumber_comma _)
      rw [written, List.append_assoc, List.cons_append, List.append_assoc, List.cons_append,
        Nat.succ_eq_add_one, keyWritten, scanMembers, dropSpaces_of_head _ (by decide)]
      simp [keyScanned, colon, scanned, dropSpaces_of_head ',' (by decide), next]

theorem scansBack_object {members : List (String × Json)}
    (each : ∀ member ∈ members, member.2.ScansBack) : ScansBack (.object members) := by
  intro fuel rest enough _
  cases members with
  | nil =>
      obtain ⟨fuel, rfl⟩ := Nat.exists_eq_succ_of_ne_zero (Nat.ne_of_gt (Nat.lt_of_lt_of_le
        (by decide) enough))
      simp [chars, chars.membersChars, scanValue, dropSpaces, isSpace, Scan.ofJson,
        Scan.ofMembers_eq_map]
  | cons first later =>
      have written : (Json.object (first :: later)).chars ++ rest =
          '\x7b' :: (chars.membersChars (first :: later) ++ '\x7d' :: rest) := by
        simp [chars]
      have length : (Json.object (first :: later)).chars.length =
          (chars.membersChars (first :: later)).length + 2 := by
        simp [chars]
      obtain ⟨fuel, rfl⟩ := Nat.exists_eq_succ_of_ne_zero (show fuel ≠ 0 by omega)
      have scanned := scanMembers_membersChars each fuel (by omega) rest
      obtain ⟨tail, front⟩ : ∃ tail,
          chars.membersChars (first :: later) ++ '\x7d' :: rest = '"' :: tail := by
        simp [chars.membersChars, stringChars]
      rw [front] at scanned
      rw [written, front, Nat.succ_eq_add_one, scanValue, dropSpaces_of_head _ (by decide)]
      simp [dropSpaces_of_head '"' (by decide), scanned, Scan.ofJson,
        Scan.ofMembers_eq_map]

theorem scansBack_of_exact {value : Json} (exact : value.Exact) : value.ScansBack := by
  induction exact with
  | null => exact scansBack_null
  | bool value => exact scansBack_bool value
  | integer low high => exact scansBack_integer low high
  | string text => exact scansBack_string text
  | array exact ih => exact scansBack_array exact ih
  | object _ ih => exact scansBack_object ih

theorem scan_render {value : Json} (exact : value.Exact) :
    scan value.render = ⟨Scan.ofJson value, false⟩ := by
  have scanned := scansBack_of_exact exact (2 * value.chars.length + 2) [] (by omega) trivial
  rw [List.append_nil] at scanned
  simp [scan, render, scanChars, scanned, dropSpaces]

theorem parse_render {value : Json} (exact : value.Exact) (fits : value.depth ≤ levelLimit) :
    parse value.render = .ok value :=
  parse_eq_ok_iff.mpr ⟨scan_render exact, fits⟩

theorem parse_render_of_deep {value : Json} (exact : value.Exact)
    (deep : levelLimit < value.depth) : parse value.render = .error .malformed := by
  have beyond : ¬value.depth ≤ levelLimit := by omega
  simp [parse, scan_render exact, Document.read, Scan.read_ofJson, beyond, error_bind]

end TestDelegation.Json
