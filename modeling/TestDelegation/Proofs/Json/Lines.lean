import TestDelegation.Proofs.Json.RoundTrip
import TestDelegation.Proofs.Text.Lines

/-!
Printed values as lines of a text. Main statements: `not_holdsLineFeed_render`, a printed value
stands on one line, and `value?_render`, a line is read back at whatever depth.
-/

namespace TestDelegation

def Shown (chars : List Char) : Prop := ∀ char ∈ chars, 0x20 ≤ char.toNat

instance (chars : List Char) : Decidable (Shown chars) := List.decidableBAll _ _

namespace Shown

variable {first second chars : List Char} {char : Char}

theorem append (before : Shown first) (after : Shown second) : Shown (first ++ second) :=
  List.forall_mem_append.mpr ⟨before, after⟩

theorem cons (head : 0x20 ≤ char.toNat) (tail : Shown chars) : Shown (char :: chars) :=
  List.forall_mem_cons.mpr ⟨head, tail⟩

theorem of_subset (shown : Shown second) (within : first ⊆ second) : Shown first :=
  fun char listed => shown char (within listed)

theorem flatMap {α : Type} {items : List α} {text : α → List Char}
    (each : ∀ item ∈ items, Shown (text item)) : Shown (items.flatMap text) := by
  intro char listed
  obtain ⟨item, member, written⟩ := List.mem_flatMap.mp listed
  exact each item member char written

end Shown

namespace Decimal

theorem shown_digits (value : Nat) : Shown (digits value) := by
  intro char listed
  have digit := isDigit_of_mem_digits listed
  simp only [isDigit, Bool.and_eq_true, decide_eq_true_eq] at digit
  have low : '0'.toNat ≤ char.toNat := digit.1
  exact Nat.le_trans (by decide) low

theorem shown_zeros (count : Nat) : Shown (List.replicate count '0') := by
  intro char listed
  obtain ⟨_, rfl⟩ := List.mem_replicate.mp listed
  decide

theorem shown_padded (width value : Nat) : Shown (padded width value) :=
  (shown_zeros _).append (shown_digits value)

theorem shown_integerChars (value : Int) : Shown (integerChars value) := by
  cases value with
  | ofNat value => exact shown_digits value
  | negSucc value => exact (shown_digits _).cons (by decide)

theorem shown_positional (number : DecimalNumber) : Shown number.positional := by
  rw [DecimalNumber.positional]
  by_cases whole : 0 ≤ number.exponent
  · rw [if_pos whole]
    by_cases zero : (number.significand == 0) = true
    · rw [if_pos zero]
      decide
    · rw [if_neg zero]
      exact (shown_digits _).append (shown_zeros _)
  · rw [if_neg whole]
    have all := shown_padded ((-number.exponent).toNat + 1) number.significand
    refine Shown.append ?_ (Shown.cons (by decide) ?_)
    · exact all.of_subset (List.take_subset _ _)
    · exact all.of_subset (List.drop_subset _ _)

theorem shown_scientific (number : DecimalNumber) : Shown number.scientific := by
  have all := shown_digits number.significand
  rw [DecimalNumber.scientific]
  refine Shown.append (Shown.append (Shown.append ?_ ?_) ?_) (shown_padded _ _)
  · exact all.of_subset (List.take_subset _ _)
  · split
    · exact nofun
    · exact (all.of_subset (List.drop_subset _ _)).cons (by decide)
  · split
    · decide
    · decide

theorem shown_jsonChars (number : Binary64) : Shown number.jsonChars := by
  rw [Binary64.jsonChars]
  refine Shown.append ?_ ?_
  · cases number.negative with
    | true => decide
    | false => decide
  · split
    · refine (shown_positional _).append ?_
      split
      · decide
      · decide
    · exact shown_scientific _

end Decimal

namespace Json

theorem shown_escapedChar (char : Char) : Shown (escapedChar char) := by
  have hexes : ∀ digit < 16, 0x20 ≤ (Text.hexDigit digit).toNat := by decide
  rcases escapedChar_cases char with
    ⟨letter, written, _, known⟩ | ⟨control, written⟩ | ⟨written, _, _, shown⟩
  · have letters : ∀ code < 0x20, simpleEscape? (Char.ofNat code) = none := by decide
    rw [written]
    refine Shown.cons (by decide) (Shown.cons (Nat.not_lt.mp fun low => ?_) nofun)
    have unknown := letters letter.toNat low
    rw [Char.ofNat_toNat, known] at unknown
    cases unknown
  · rw [written]
    have high := hexes (char.toNat / 16) (by omega)
    have low := hexes (char.toNat % 16) (by omega)
    exact Shown.cons (by decide) (Shown.cons (by decide) (Shown.cons (by decide)
      (Shown.cons (by decide) (Shown.cons high (Shown.cons low nofun)))))
  · rw [written]
    exact Shown.cons (Nat.not_lt.mp shown) nofun

theorem shown_stringChars (text : String) : Shown (stringChars text) := by
  have inner := Shown.flatMap fun char (_ : char ∈ text.toList) => shown_escapedChar char
  exact Shown.append (Shown.cons (by decide) inner) (by decide)

theorem shown_laterItemsChars {items : List Json} (each : ∀ item ∈ items, Shown item.chars) :
    Shown (chars.laterItemsChars items) := by
  induction items with
  | nil => exact nofun
  | cons item rest ih =>
      obtain ⟨first, later⟩ := List.forall_mem_cons.mp each
      exact Shown.append (first.cons (by decide)) (ih later)

theorem shown_laterMembersChars {members : List (String × Json)}
    (each : ∀ member ∈ members, Shown member.2.chars) :
    Shown (chars.laterMembersChars members) := by
  induction members with
  | nil => exact nofun
  | cons member rest ih =>
      obtain ⟨key, value⟩ := member
      obtain ⟨first, later⟩ := List.forall_mem_cons.mp each
      have named := (shown_stringChars key).append (first.cons (by decide : 0x20 ≤ ':'.toNat))
      exact Shown.append (Shown.cons (by decide) named) (ih later)

theorem shown_chars (value : Json) : Shown value.chars := by
  induction value using Json.induct with
  | null => decide
  | bool value =>
      cases value with
      | true => decide
      | false => decide
  | number value =>
      cases value with
      | integer value => exact Decimal.shown_integerChars value
      | real value => exact Decimal.shown_jsonChars value
  | string text => exact shown_stringChars text
  | array items ih =>
      refine Shown.append (Shown.cons (by decide) ?_) (by decide)
      cases items with
      | nil => exact nofun
      | cons first later =>
          obtain ⟨head, tail⟩ := List.forall_mem_cons.mp ih
          exact head.append (shown_laterItemsChars tail)
  | object members ih =>
      refine Shown.append (Shown.cons (by decide) ?_) (by decide)
      cases members with
      | nil => exact nofun
      | cons first later =>
          obtain ⟨key, value⟩ := first
          obtain ⟨head, tail⟩ := List.forall_mem_cons.mp ih
          have named := (shown_stringChars key).append (head.cons (by decide : 0x20 ≤ ':'.toNat))
          exact named.append (shown_laterMembersChars tail)

theorem not_holdsLineFeed_render (value : Json) : ¬Text.HoldsLineFeed value.render := by
  intro feed
  rw [Text.HoldsLineFeed, render, String.toList_ofList] at feed
  exact absurd (value.shown_chars '\n' feed) (by decide)

theorem length_chars_le_laterItemsChars {items : List Json} {item : Json} (listed : item ∈ items) :
    item.chars.length ≤ (chars.laterItemsChars items).length := by
  induction items with
  | nil => cases listed
  | cons first rest ih =>
      simp only [chars.laterItemsChars, List.length_append, List.length_cons]
      rcases List.mem_cons.mp listed with rfl | later
      · omega
      · have below := ih later
        omega

theorem length_chars_le_laterMembersChars {members : List (String × Json)} {member : String × Json}
    (listed : member ∈ members) :
    member.2.chars.length ≤ (chars.laterMembersChars members).length := by
  induction members with
  | nil => cases listed
  | cons first rest ih =>
      simp only [chars.laterMembersChars, List.length_append, List.length_cons]
      rcases List.mem_cons.mp listed with rfl | later
      · omega
      · have below := ih later
        omega

theorem depth_le_length_chars (value : Json) : value.depth ≤ value.chars.length := by
  induction value using Json.induct with
  | null => exact Nat.zero_le _
  | bool _ => exact Nat.zero_le _
  | number _ => exact Nat.zero_le _
  | string _ => exact Nat.zero_le _
  | array items ih =>
      have opened : (Json.array items).chars.length = (chars.itemsChars items).length + 1 + 1 := by
        simp [chars]
      rw [opened, depth_array_le_succ_iff]
      intro item listed
      have within := length_chars_le_laterItemsChars listed
      have longer : (chars.laterItemsChars items).length ≤ (chars.itemsChars items).length + 1 := by
        cases items with
        | nil => exact Nat.zero_le _
        | cons first later => simp [chars.itemsChars, chars.laterItemsChars]
      have below := ih item listed
      omega
  | object members ih =>
      have opened : (Json.object members).chars.length =
          (chars.membersChars members).length + 1 + 1 := by
        simp [chars]
      rw [opened, depth_object_le_succ_iff]
      intro member listed
      have within := length_chars_le_laterMembersChars listed
      have longer :
          (chars.laterMembersChars members).length ≤ (chars.membersChars members).length + 1 := by
        cases members with
        | nil => exact Nat.zero_le _
        | cons first later => simp [chars.membersChars, chars.laterMembersChars]
      have below := ih member listed
      omega

/-- The value that a text spells, at whatever depth; `parse` has a limit. -/
def value? (text : String) : Option Json :=
  let document := scan text
  if document.trailing then none
  else (document.value.read (levelLimit + text.toList.length)).toOption

theorem parse_eq_ok_iff_value? {text : String} {value : Json} :
    parse text = .ok value ↔ value? text = some value ∧ value.depth ≤ levelLimit := by
  have read_iff : ∀ levels, ((scan text).value.read levels).toOption = some value ↔
      (scan text).value = Scan.ofJson value ∧ value.depth ≤ levels := by
    intro levels
    rw [← Scan.read_eq_ok_iff]
    cases (scan text).value.read levels with
    | error _ => exact iff_of_false nofun nofun
    | ok found => simp [Except.toOption]
  rw [parse_eq_ok_iff, value?]
  cases trailing : (scan text).trailing with
  | true =>
      refine iff_of_false ?_ nofun
      rintro ⟨whole, _⟩
      rw [whole] at trailing
      cases trailing
  | false =>
      rw [if_neg Bool.false_ne_true, read_iff]
      constructor
      · rintro ⟨whole, fits⟩
        rw [whole]
        exact ⟨⟨rfl, Nat.le_add_right_of_le fits⟩, fits⟩
      · rintro ⟨⟨whole, _⟩, fits⟩
        exact ⟨by rw [← whole, ← trailing], fits⟩

theorem value?_render {value : Json} (exact : value.Exact) :
    value? value.render = some value := by
  have depth := value.depth_le_length_chars
  have fits : value.depth ≤ levelLimit + value.render.toList.length := by
    rw [render, String.toList_ofList]
    omega
  rw [value?, scan_render exact]
  dsimp only
  rw [Scan.read_ofJson, if_pos fits]
  rfl

end Json

end TestDelegation
