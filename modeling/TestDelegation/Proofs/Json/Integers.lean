import Mathlib.Data.List.Induction
import Mathlib.Data.List.TakeWhile
import TestDelegation.Proofs.Json.RoundTrip

/-!
Integers in a JSON text. Main statement: `parse_eq_integer_iff`. An integer of 64 bits is written in
one way only, so a number that is read as an integer stands there in its decimal digits; a fraction,
an exponent, a leading zero or minus zero make something else of it.
-/

namespace TestDelegation

namespace Decimal

theorem integerChars_neg {magnitude : Nat} (positive : 0 < magnitude) :
    integerChars (-(magnitude : Int)) = '-' :: digits magnitude := by
  obtain ⟨smaller, rfl⟩ := Nat.exists_eq_succ_of_ne_zero (Nat.ne_of_gt positive)
  rfl

theorem valueOfDigits_singleton (char : Char) : valueOfDigits [char] = digitValue char := by
  simp [valueOfDigits]

theorem digitValue_lt {char : Char} (digit : isDigit char) : digitValue char < 10 := by
  simp only [isDigit, Bool.and_eq_true, decide_eq_true_eq] at digit
  have upper : char.toNat ≤ 0x39 := digit.2
  simp only [digitValue]
  omega

theorem digitChar_digitValue {char : Char} (digit : isDigit char) :
    digitChar (digitValue char) = char := by
  simp only [isDigit, Bool.and_eq_true, decide_eq_true_eq] at digit
  have lower : 0x30 ≤ char.toNat := digit.1
  rw [digitChar, digitValue, Nat.add_sub_cancel' lower, Char.ofNat_toNat]

theorem digitValue_pos {char : Char} (digit : isDigit char) (notZero : char ≠ '0') :
    0 < digitValue char := by
  refine Nat.pos_of_ne_zero fun zero => notZero ?_
  rw [← digitChar_digitValue digit, zero]
  rfl

theorem valueOfDigits_pos {first : Char} {later : List Char} (digit : isDigit first)
    (notZero : first ≠ '0') : 0 < valueOfDigits (first :: later) := by
  induction later using List.reverseRecOn with
  | nil => simpa [valueOfDigits_singleton] using digitValue_pos digit notZero
  | append_singleton front last ih =>
      rw [← List.cons_append, valueOfDigits_append_singleton]
      omega

theorem digits_valueOfDigits {chars : List Char} (filled : chars ≠ [])
    (each : ∀ char ∈ chars, isDigit char) (plain : chars.head? = some '0' → chars = ['0']) :
    digits (valueOfDigits chars) = chars := by
  -- on the digits from the front, since `digits` takes the last one off
  induction chars using List.reverseRecOn with
  | nil => exact absurd rfl filled
  | append_singleton front last ih =>
      have digit := each last (by simp)
      have small := digitValue_lt digit
      cases front with
      | nil =>
          rw [List.nil_append, valueOfDigits_singleton, digits_of_lt small,
            digitChar_digitValue digit]
      | cons first later =>
          have firstDigit := each first (by simp)
          have notZero : first ≠ '0' := by
            rintro rfl
            simpa using plain rfl
          have positive := @valueOfDigits_pos first later firstDigit notZero
          have shorter := ih (by simp)
            (fun char member => each char (List.mem_append_left _ member)) (by simp [notZero])
          have quotient : (valueOfDigits (first :: later) * 10 + digitValue last) / 10 =
              valueOfDigits (first :: later) := by omega
          have remainder : (valueOfDigits (first :: later) * 10 + digitValue last) % 10 =
              digitValue last := by omega
          rw [valueOfDigits_append_singleton, digits_of_ge (by omega), quotient, remainder, shorter,
            digitChar_digitValue digit]

end Decimal

namespace Json

open Decimal

theorem real_ne_integer (text : NumberText) (value : Int) : text.real ≠ .ok (.integer value) := by
  rw [NumberText.real]
  dsimp only
  split <;> simp

theorem numeral_eq_integer_iff {text : NumberText} {value : Int} :
    text.numeral = .ok (.integer value) ↔
      text.fraction = [] ∧ text.exponent = [] ∧
        ((text.negative = false ∧ value = valueOfDigits text.whole ∧
            valueOfDigits text.whole < unsignedLimit) ∨
          (text.negative = true ∧ value = -(valueOfDigits text.whole : Int) ∧
            0 < valueOfDigits text.whole ∧ valueOfDigits text.whole ≤ Nat.pow 2 63)) := by
  obtain ⟨negative, whole, fraction, exponentNegative, exponent⟩ := text
  have never := real_ne_integer ⟨negative, whole, fraction, exponentNegative, exponent⟩ value
  cases fraction with
  | cons _ _ => simpa [NumberText.numeral] using never
  | nil =>
      cases exponent with
      | cons _ _ => simpa [NumberText.numeral] using never
      | nil =>
          have below : Nat.pow 2 63 < unsignedLimit := by decide
          simp only [NumberText.numeral, List.isEmpty_nil, Bool.true_and, true_and]
          generalize valueOfDigits whole = magnitude
          generalize Nat.pow 2 63 = limit at below ⊢
          by_cases fits : magnitude < unsignedLimit
          · cases negative with
            | false => simp [fits, eq_comm (b := value)]
            | true =>
                by_cases signed : magnitude ≠ 0 ∧ magnitude ≤ limit
                · simp [fits, signed, Nat.pos_iff_ne_zero, eq_comm (b := value)]
                · simp [fits, signed, Nat.pos_iff_ne_zero, never]
          · have large : ¬magnitude ≤ limit := by omega
            simp [fits, large, never]

theorem scanExponent_exponent {text after : NumberText} {chars rest : List Char}
    (scanned : scanExponent text chars = .ok (after, rest)) : after.exponent ≠ [] := by
  simp only [scanExponent] at scanned
  split at scanned
  · cases scanned
  · rename_i digit later begins
    split at scanned
    · rename_i shown
      simp only [Except.ok.injEq, Prod.mk.injEq] at scanned
      obtain ⟨rfl, _⟩ := scanned
      rw [begins]
      simp [shown]
    · cases scanned

theorem scanFraction_fraction {text after : NumberText} {chars rest : List Char}
    (scanned : scanFraction text chars = .ok (after, rest)) :
    after.fraction ≠ [] ∨ after.exponent ≠ [] := by
  cases chars with
  | nil => cases scanned
  | cons digit later =>
      by_cases shown : isDigit digit = true
      · simp only [scanFraction, shown, if_true] at scanned
        split at scanned
        · exact .inr (scanExponent_exponent scanned)
        · exact .inr (scanExponent_exponent scanned)
        · simp only [Except.ok.injEq, Prod.mk.injEq] at scanned
          obtain ⟨rfl, _⟩ := scanned
          exact .inl (by simp [shown])
      · simp [scanFraction, shown] at scanned

theorem read_ne_integer {scanned : Except Break (NumberText × List Char)} {value : Int}
    {rest : List Char} (marked : ∀ {after left}, scanned = .ok (after, left) →
      after.fraction ≠ [] ∨ after.exponent ≠ []) :
    (scanned >>= fun found => pure (found.1.numeral, found.2)) ≠
      .ok (.ok (.integer value), rest) := by
  intro read
  obtain ⟨⟨text, left⟩, found, same⟩ := bind_eq_ok_iff.mp read
  obtain ⟨integer, _⟩ := Prod.mk.inj (pure_eq_ok_iff.mp same)
  obtain ⟨noFraction, noExponent, _⟩ := numeral_eq_integer_iff.mp integer
  rcases marked found with fraction | exponent
  · exact fraction noFraction
  · exact exponent noExponent

theorem takeWhile_isDigit_eq_digits {first : Char} {later : List Char} (digit : isDigit first)
    (noZeros : ¬(first == '0' && later.head?.any isDigit) = true) :
    (first :: later).takeWhile isDigit =
      digits (valueOfDigits ((first :: later).takeWhile isDigit)) := by
  refine (digits_valueOfDigits (by simp [digit]) (fun char => List.mem_takeWhile_imp) ?_).symm
  rw [List.takeWhile_cons_of_pos digit, List.head?_cons, Option.some.injEq]
  rintro rfl
  cases later with
  | nil => rfl
  | cons second later => simp_all

theorem scanNumber_eq_integer {negative : Bool} {chars rest : List Char} {value : Int}
    (scanned : scanNumber negative chars = .ok (.ok (.integer value), rest)) :
    ∃ magnitude : Nat, chars = digits magnitude ++ rest ∧
      ((negative = false ∧ value = magnitude ∧ magnitude < unsignedLimit) ∨
        (negative = true ∧ value = -(magnitude : Int) ∧ 0 < magnitude ∧
          magnitude ≤ Nat.pow 2 63)) := by
  cases chars with
  | nil => cases scanned
  | cons first later =>
      by_cases digit : isDigit first = true
      · by_cases zeros : (first == '0' && later.head?.any isDigit) = true
        · simp [scanNumber, digit, zeros] at scanned
          cases scanned
        · simp only [scanNumber, digit, zeros, Bool.not_true, Bool.false_eq_true, if_false]
            at scanned
          split at scanned
          · exact absurd scanned (read_ne_integer fun found => scanFraction_fraction found)
          · exact absurd scanned (read_ne_integer fun found => .inr (scanExponent_exponent found))
          · exact absurd scanned (read_ne_integer fun found => .inr (scanExponent_exponent found))
          · rw [ok_bind] at scanned
            obtain ⟨integer, rfl⟩ := Prod.mk.inj (pure_eq_ok_iff.mp scanned)
            obtain ⟨_, _, signed⟩ := numeral_eq_integer_iff.mp integer
            refine ⟨valueOfDigits ((first :: later).takeWhile isDigit), ?_, signed⟩
            rw [← takeWhile_isDigit_eq_digits digit zeros, List.takeWhile_append_dropWhile]
      · simp [scanNumber, digit] at scanned
        cases scanned

theorem scanWord_ne_number {value : Scan} {number : Except Fault Numeral}
    (other : value ≠ .number number) (word chars : List Char) (rest : Option (List Char)) :
    scanWord value word chars ≠ (.number number, rest) := by
  induction word generalizing chars with
  | nil => simp [scanWord, other]
  | cons expected word ih =>
      cases chars with
      | nil => simp [scanWord]
      | cons char chars =>
          rw [scanWord]
          split
          · exact ih chars
          · simp

theorem ofNumber_eq_integer {scanned : Except Break (Except Fault Numeral × List Char)}
    {value : Int} {rest : Option (List Char)}
    (found : ofNumber scanned = (.number (.ok (.integer value)), rest)) :
    ∃ left, rest = some left ∧ scanned = .ok (.ok (.integer value), left) := by
  rcases scanned with stop | ⟨number, left⟩
  · simp [ofNumber] at found
  · simp only [ofNumber, Prod.mk.injEq, Scan.number.injEq] at found
    exact ⟨left, found.2.symm, by rw [found.1]⟩

theorem scanValue_eq_integer {fuel : Nat} {chars : List Char} {value : Int}
    {rest : Option (List Char)}
    (scanned : scanValue fuel chars = (.number (.ok (.integer value)), rest)) :
    ∃ left, rest = some left ∧ dropSpaces chars = integerChars value ++ left ∧
      -(Nat.pow 2 63 : Int) ≤ value ∧ value < unsignedLimit := by
  cases fuel with
  | zero => simp [scanValue] at scanned
  | succ fuel =>
      rw [scanValue] at scanned
      split at scanned
      case h_1 => simp at scanned
      case h_2 => exact absurd scanned (scanWord_ne_number (by simp) _ _ _)
      case h_3 => exact absurd scanned (scanWord_ne_number (by simp) _ _ _)
      case h_4 => exact absurd scanned (scanWord_ne_number (by simp) _ _ _)
      case h_5 => split at scanned <;> simp at scanned
      case h_6 => split at scanned <;> simp at scanned
      case h_7 => split at scanned <;> simp at scanned
      case h_8 begins =>
        obtain ⟨left, rfl, number⟩ := ofNumber_eq_integer scanned
        obtain ⟨magnitude, rfl, ⟨impossible, _⟩ | ⟨_, rfl, positive, small⟩⟩ :=
          scanNumber_eq_integer number
        · cases impossible
        · refine ⟨left, rfl, ?_, by omega, by omega⟩
          rw [begins, integerChars_neg positive, List.cons_append]
      case h_9 begins =>
        split at scanned
        · obtain ⟨left, rfl, number⟩ := ofNumber_eq_integer scanned
          obtain ⟨magnitude, written, ⟨_, rfl, fits⟩ | ⟨impossible, _⟩⟩ :=
            scanNumber_eq_integer number
          · exact ⟨left, rfl, begins.trans written, by omega, by omega⟩
          · cases impossible
        · simp at scanned

def Spaces (chars : List Char) : Prop := ∀ char ∈ chars, isSpace char = true

/-- The text is the integer in its decimal digits, between spaces. -/
def WritesInteger (text : String) (value : Int) : Prop :=
  ∃ before after, text.toList = before ++ integerChars value ++ after ∧
    Spaces before ∧ Spaces after

theorem dropSpaces_eq_nil_iff {chars : List Char} : dropSpaces chars = [] ↔ Spaces chars := by
  simp [dropSpaces, Spaces]

theorem dropSpaces_append {before : List Char} (spaces : Spaces before) (chars : List Char) :
    dropSpaces (before ++ chars) = dropSpaces chars :=
  List.dropWhile_append_of_pos spaces

theorem scanValue_append {before : List Char} (spaces : Spaces before) (fuel : Nat)
    (chars : List Char) : scanValue fuel (before ++ chars) = scanValue fuel chars := by
  cases fuel with
  | zero => simp [scanValue]
  | succ fuel => rw [scanValue, dropSpaces_append spaces, scanValue]

theorem Spaces.endsNumber {chars : List Char} (spaces : Spaces chars) : EndsNumber chars := by
  cases chars with
  | nil => trivial
  | cons char later =>
      have space := spaces char (by simp)
      simp only [isSpace, Bool.or_eq_true, beq_iff_eq] at space
      rcases space with ((rfl | rfl) | rfl) | rfl <;> simp [EndsNumber, isDigit]

theorem parse_eq_integer_iff {text : String} {value : Int} :
    parse text = .ok (.integer value) ↔
      WritesInteger text value ∧ -(Nat.pow 2 63 : Int) ≤ value ∧ value < unsignedLimit := by
  rw [parse_eq_ok_iff, scan, scanChars]
  constructor
  · rintro ⟨scanned, _⟩
    split at scanned
    · rename_i found
      rw [Document.mk.injEq] at scanned
      rw [scanned.1] at found
      obtain ⟨left, none_, _⟩ := scanValue_eq_integer found
      cases none_
    · rename_i found
      rw [Document.mk.injEq] at scanned
      rw [scanned.1] at found
      obtain ⟨left, same, shown, low, high⟩ := scanValue_eq_integer found
      obtain rfl := Option.some.inj same
      have spaces : Spaces _ := dropSpaces_eq_nil_iff.mp (by simpa using scanned.2)
      refine ⟨⟨text.toList.takeWhile isSpace, _, ?_, fun char => List.mem_takeWhile_imp, spaces⟩,
        low, high⟩
      rw [List.append_assoc, ← shown, dropSpaces, List.takeWhile_append_dropWhile]
  · rintro ⟨⟨before, after, written, spacesBefore, spacesAfter⟩, low, high⟩
    have chars : (Json.number (.integer value)).chars = integerChars value := rfl
    have scanned := scansBack_integer low high (2 * text.toList.length + 2) after
      (by simp only [written, chars, List.length_append]; omega) spacesAfter.endsNumber
    rw [chars, ← scanValue_append spacesBefore, ← List.append_assoc, ← written] at scanned
    refine ⟨?_, by simp [Json.integer, depth]⟩
    rw [scanned]
    simp [dropSpaces_eq_nil_iff.mpr spacesAfter, Json.integer]

end Json

end TestDelegation
