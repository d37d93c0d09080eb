import TestDelegation.Json.Printer
import TestDelegation.Json.Scanner
import TestDelegation.Proofs.Decimal.Digits
import TestDelegation.Proofs.Success

/-!
Printed strings and integers scan back to themselves, whatever follows them in the text.
-/

namespace TestDelegation.Json

open Decimal

theorem hexValue?_hexDigit {digit : Nat} (small : digit < 16) :
    hexValue? (Text.hexDigit digit) = some digit := by
  have all : ∀ digit < 16, hexValue? (Text.hexDigit digit) = some digit := by decide
  exact all digit small

theorem readHex_control {code : Nat} (small : code < 0x20) (rest : List Char) :
    readHex ('0' :: '0' :: Text.hexDigit (code / 16) :: Text.hexDigit (code % 16) :: rest) =
      .ok (code, rest) := by
  have zero : hexValue? '0' = some 0 := by decide
  simp only [readHex, zero, hexValue?_hexDigit (show code / 16 < 16 by omega),
    hexValue?_hexDigit (show code % 16 < 16 by omega)]
  have whole : ((0 * 16 + 0) * 16 + code / 16) * 16 + code % 16 = code := by omega
  rw [whole]

theorem escapedChar_cases (char : Char) :
    (∃ letter, escapedChar char = ['\\', letter] ∧ letter ≠ 'u' ∧
      simpleEscape? letter = some char) ∨
    (char.toNat < 0x20 ∧ escapedChar char =
      ['\\', 'u', '0', '0', Text.hexDigit (char.toNat / 16), Text.hexDigit (char.toNat % 16)]) ∨
    (escapedChar char = [char] ∧ char ≠ '"' ∧ char ≠ '\\' ∧ ¬char.toNat < 0x20) := by
  simp only [escapedChar, beq_iff_eq]
  split
  · rename_i quote
    subst quote
    exact .inl ⟨'"', rfl, by decide, by decide⟩
  split
  · rename_i backslash
    subst backslash
    exact .inl ⟨'\\', rfl, by decide, by decide⟩
  split
  · rename_i backspace
    subst backspace
    exact .inl ⟨'b', rfl, by decide, by decide⟩
  split
  · rename_i formFeed
    subst formFeed
    exact .inl ⟨'f', rfl, by decide, by decide⟩
  split
  · rename_i lineFeed
    subst lineFeed
    exact .inl ⟨'n', rfl, by decide, by decide⟩
  split
  · rename_i carriageReturn
    subst carriageReturn
    exact .inl ⟨'r', rfl, by decide, by decide⟩
  split
  · rename_i tab
    subst tab
    exact .inl ⟨'t', rfl, by decide, by decide⟩
  split
  · rename_i control
    exact .inr (.inl ⟨control, rfl⟩)
  · rename_i notQuote notBackslash _ _ _ _ _ notControl
    exact .inr (.inr ⟨rfl, notQuote, notBackslash, notControl⟩)

theorem readEscape_letter {letter char : Char} (notCode : letter ≠ 'u')
    (known : simpleEscape? letter = some char) (rest : List Char) :
    readEscape (letter :: rest) = .ok (char, rest) := by
  unfold readEscape
  split
  · rename_i same
    simp at same
  · rename_i same
    exact absurd (List.cons.inj same).1 notCode
  · rename_i same
    obtain ⟨rfl, rfl⟩ := List.cons.inj same
    simp [known]

theorem readEscape_control {char : Char} (control : char.toNat < 0x20) (rest : List Char) :
    readEscape ('u' :: '0' :: '0' :: Text.hexDigit (char.toNat / 16) ::
      Text.hexDigit (char.toNat % 16) :: rest) = .ok (char, rest) := by
  have notTrailing : isTrailingSurrogate char.toNat = false := by
    simp only [isTrailingSurrogate, Bool.and_eq_false_iff, decide_eq_false_iff_not]
    omega
  have notLeading : isLeadingSurrogate char.toNat = false := by
    simp only [isLeadingSurrogate, Bool.and_eq_false_iff, decide_eq_false_iff_not]
    omega
  simp [readEscape, readHex_control control, notTrailing, notLeading, bind, Except.bind, pure,
    Except.pure]

theorem skipEscape_letter {letter char : Char} (notCode : letter ≠ 'u')
    (known : simpleEscape? letter = some char) (rest : List Char) :
    skipEscape (letter :: rest) = .ok rest := by
  unfold skipEscape
  split
  · rename_i same
    simp at same
  · rename_i same
    exact absurd (List.cons.inj same).1 notCode
  · rename_i same
    obtain ⟨rfl, rfl⟩ := List.cons.inj same
    simp [known]

theorem readString_escapedChar (fuel : Nat) (char : Char) (rest : List Char) :
    readString (fuel + 1) (escapedChar char ++ rest) =
      (readString fuel rest).map fun read => (char :: read.1, read.2) := by
  rcases escapedChar_cases char with
    ⟨letter, written, notCode, known⟩ | ⟨control, written⟩ | ⟨written, notQuote, notBackslash, shown⟩
  · rw [written]
    simp only [List.cons_append, List.nil_append, readString, Char.reduceBEq, Bool.false_eq_true,
      if_false, if_true, readEscape_letter notCode known, ok_bind]
    cases readString fuel rest <;> rfl
  · rw [written]
    simp only [List.cons_append, List.nil_append, readString, Char.reduceBEq, Bool.false_eq_true,
      if_false, if_true, readEscape_control control, ok_bind]
    cases readString fuel rest <;> rfl
  · rw [written]
    simp only [List.cons_append, List.nil_append, readString, beq_iff_eq, notQuote, notBackslash,
      shown, if_false]
    cases readString fuel rest <;> rfl

theorem skipString_escapedChar (fuel : Nat) (char : Char) (rest : List Char) :
    skipString (fuel + 1) (escapedChar char ++ rest) = skipString fuel rest := by
  rcases escapedChar_cases char with
    ⟨letter, written, notCode, known⟩ | ⟨control, written⟩ | ⟨written, notQuote, notBackslash, shown⟩
  · rw [written]
    simp only [List.cons_append, List.nil_append, skipString, Char.reduceBEq, Bool.false_eq_true,
      if_false, if_true, skipEscape_letter notCode known, ok_bind]
  · rw [written]
    simp only [List.cons_append, List.nil_append, skipString, Char.reduceBEq, Bool.false_eq_true,
      if_false, if_true, skipEscape, readHex_control control]
    rfl
  · rw [written]
    simp only [List.cons_append, List.nil_append, skipString, beq_iff_eq, notQuote, notBackslash,
      shown, if_false]

theorem readString_flatMap {fuel : Nat} {chars : List Char} (enough : chars.length < fuel)
    (rest : List Char) :
    readString fuel (chars.flatMap escapedChar ++ '"' :: rest) = .ok (chars, rest) := by
  induction chars generalizing fuel with
  | nil =>
      obtain ⟨fuel, rfl⟩ := Nat.exists_eq_succ_of_ne_zero (Nat.ne_of_gt enough)
      simp [readString]
  | cons char chars ih =>
      obtain ⟨fuel, rfl⟩ := Nat.exists_eq_succ_of_ne_zero (Nat.ne_of_gt (Nat.zero_lt_of_lt enough))
      rw [List.flatMap_cons, List.append_assoc, Nat.succ_eq_add_one, readString_escapedChar,
        ih (by simpa using enough)]
      rfl

theorem skipString_flatMap {fuel : Nat} {chars : List Char} (enough : chars.length < fuel)
    (rest : List Char) :
    skipString fuel (chars.flatMap escapedChar ++ '"' :: rest) = .ok rest := by
  induction chars generalizing fuel with
  | nil =>
      obtain ⟨fuel, rfl⟩ := Nat.exists_eq_succ_of_ne_zero (Nat.ne_of_gt enough)
      simp [skipString]
  | cons char chars ih =>
      obtain ⟨fuel, rfl⟩ := Nat.exists_eq_succ_of_ne_zero (Nat.ne_of_gt (Nat.zero_lt_of_lt enough))
      rw [List.flatMap_cons, List.append_assoc, Nat.succ_eq_add_one, skipString_escapedChar,
        ih (by simpa using enough)]

theorem scanString_flatMap {fuel : Nat} {text : String} (enough : text.toList.length < fuel)
    (rest : List Char) :
    scanString fuel (text.toList.flatMap escapedChar ++ '"' :: rest) = .ok (.ok text, rest) := by
  simp [scanString, readString_flatMap enough, skipString_flatMap enough, Except.map]

/-- What may follow a number without being taken for a part of it. -/
def EndsNumber : List Char → Prop
  | [] => True
  | char :: _ => isDigit char = false ∧ char ≠ '.' ∧ char ≠ 'e' ∧ char ≠ 'E'

theorem takeWhile_digits (value : Nat) {rest : List Char} (ended : EndsNumber rest) :
    (digits value ++ rest).takeWhile isDigit = digits value := by
  rw [List.takeWhile_append_of_pos fun _ => isDigit_of_mem_digits]
  cases rest with
  | nil => simp
  | cons char rest => simp [ended.1]

theorem dropWhile_digits (value : Nat) {rest : List Char} (ended : EndsNumber rest) :
    (digits value ++ rest).dropWhile isDigit = rest := by
  rw [List.dropWhile_append_of_pos fun _ => isDigit_of_mem_digits]
  cases rest with
  | nil => simp
  | cons char rest => simp [ended.1]

theorem scanNumber_digits (negative : Bool) (value : Nat) {rest : List Char}
    (ended : EndsNumber rest) :
    scanNumber negative (digits value ++ rest) =
      .ok (NumberText.numeral ⟨negative, digits value, [], false, []⟩, rest) := by
  obtain ⟨first, later, written⟩ := List.exists_cons_of_ne_nil (digits_ne_nil value)
  have firstDigit : isDigit first = true := isDigit_head_digits written
  have taken := takeWhile_digits value ended
  have dropped := dropWhile_digits value ended
  have noLeadingZero : (first == '0' && (later ++ rest).head?.any isDigit) = false := by
    by_cases zero : first = '0'
    · subst zero
      rw [tail_eq_nil_of_leading_zero written]
      cases rest with
      | nil => simp
      | cons char rest => simp [ended.1]
    · simp [zero]
  rw [written] at taken dropped ⊢
  rw [List.cons_append] at taken dropped ⊢
  simp only [scanNumber, firstDigit, noLeadingZero, taken, dropped, Bool.not_true,
    Bool.false_eq_true, if_false]
  cases rest with
  | nil => rfl
  | cons char rest =>
      obtain ⟨_, notPoint, notLower, notUpper⟩ := ended
      simp only [bind, Except.bind, pure, Except.pure]
      split
      · rename_i same
        exact absurd (List.cons.inj same).1 notPoint
      · rename_i same
        exact absurd (List.cons.inj same).1 notLower
      · rename_i same
        exact absurd (List.cons.inj same).1 notUpper
      · rfl

theorem numeral_of_digits {value : Nat} (fits : value < unsignedLimit) :
    NumberText.numeral ⟨false, digits value, [], false, []⟩ = .ok (.integer value) := by
  simp [NumberText.numeral, valueOfDigits_digits, fits]

theorem numeral_of_negative_digits {value : Nat} (positive : 0 < value)
    (fits : value ≤ Nat.pow 2 63) :
    NumberText.numeral ⟨true, digits value, [], false, []⟩ = .ok (.integer (-value)) := by
  have below : value < unsignedLimit := Nat.lt_of_le_of_lt fits (by decide)
  have notZero : (value != 0) = true := by simp; omega
  have inRange : decide (value ≤ Nat.pow 2 63) = true := decide_eq_true fits
  simp only [NumberText.numeral, valueOfDigits_digits, below, notZero, inRange]
  rfl

end TestDelegation.Json
