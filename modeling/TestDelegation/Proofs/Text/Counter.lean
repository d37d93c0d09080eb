import TestDelegation.Decimal.Digits
import TestDelegation.Proofs.Text.Trim

/-!
Integers in a text, with a sign or without, between blanks.
-/

namespace TestDelegation

namespace Decimal

/-- Digits after an optional sign, and the integer they stand for. -/
def SpellsInteger (chars : List Char) (value : Int) : Prop :=
  ∃ digits : List Char, digits ≠ [] ∧ (∀ char ∈ digits, isDigit char) ∧
    ((chars = digits ∧ value = valueOfDigits digits) ∨
      (chars = '+' :: digits ∧ value = valueOfDigits digits) ∨
      (chars = '-' :: digits ∧ value = -(valueOfDigits digits : Int)))

theorem natOfDigits?_eq_some_iff {chars : List Char} {value : Nat} :
    natOfDigits? chars = some value ↔
      chars ≠ [] ∧ (∀ char ∈ chars, isDigit char) ∧ valueOfDigits chars = value := by
  simp only [natOfDigits?, Bool.and_eq_true, Bool.not_eq_true', List.isEmpty_eq_false_iff,
    List.all_eq_true]
  split
  · rename_i spelled
    rw [Option.some.injEq]
    exact ⟨fun same => ⟨spelled.1, spelled.2, same⟩, fun whole => whole.2.2⟩
  · rename_i notSpelled
    simp only [reduceCtorEq, false_iff]
    exact fun spelled => notSpelled ⟨spelled.1, spelled.2.1⟩

theorem toNat_of_isDigit {char : Char} (digit : isDigit char) :
    0x30 ≤ char.toNat ∧ char.toNat ≤ 0x39 := by
  simp only [isDigit, Bool.and_eq_true, decide_eq_true_eq] at digit
  exact digit

theorem integerOfChars?_of_spelled {chars : List Char} {value : Int}
    (spelled : SpellsInteger chars value) : integerOfChars? chars = some value := by
  obtain ⟨digits, some, each, ⟨rfl, rfl⟩ | ⟨rfl, rfl⟩ | ⟨rfl, rfl⟩⟩ := spelled
  · have read := natOfDigits?_eq_some_iff.mpr ⟨some, each, rfl⟩
    cases chars with
    | nil => exact absurd rfl some
    | cons first rest =>
        have first_ := toNat_of_isDigit (each first (by simp))
        unfold integerOfChars?
        split
        · rename_i same
          rw [(List.cons.inj same).1] at first_
          simp at first_
        · rename_i same
          rw [(List.cons.inj same).1] at first_
          simp at first_
        · simp [read]
  · simp [integerOfChars?, natOfDigits?_eq_some_iff.mpr ⟨some, each, rfl⟩]
  · simp [integerOfChars?, natOfDigits?_eq_some_iff.mpr ⟨some, each, rfl⟩]

theorem digits_of_natOfDigits? {chars : List Char} {value : Int}
    (read : (natOfDigits? chars).bind (fun magnitude => some (magnitude : Int)) = some value) :
    chars ≠ [] ∧ (∀ char ∈ chars, isDigit char) ∧ value = valueOfDigits chars := by
  obtain ⟨magnitude, spelled, same⟩ := Option.bind_eq_some_iff.mp read
  obtain ⟨filled, each, rfl⟩ := natOfDigits?_eq_some_iff.mp spelled
  exact ⟨filled, each, (Option.some.inj same).symm⟩

theorem spelled_of_integerOfChars? {chars : List Char} {value : Int}
    (read : integerOfChars? chars = some value) : SpellsInteger chars value := by
  rw [integerOfChars?.eq_def] at read
  split at read
  · obtain ⟨magnitude, digits, rfl⟩ := Option.map_eq_some_iff.mp read
    obtain ⟨filled, each, rfl⟩ := digits_of_natOfDigits? digits
    exact ⟨_, filled, each, .inr (.inr ⟨rfl, rfl⟩)⟩
  · obtain ⟨magnitude, digits, rfl⟩ := Option.map_eq_some_iff.mp read
    obtain ⟨filled, each, rfl⟩ := digits_of_natOfDigits? digits
    exact ⟨_, filled, each, .inr (.inl ⟨rfl, rfl⟩)⟩
  · obtain ⟨magnitude, digits, rfl⟩ := Option.map_eq_some_iff.mp read
    obtain ⟨filled, each, rfl⟩ := digits_of_natOfDigits? digits
    exact ⟨_, filled, each, .inl ⟨rfl, rfl⟩⟩

theorem isBlank_of_isDigit {char : Char} (digit : isDigit char) : Text.isBlank char = false := by
  have range := toNat_of_isDigit digit
  simp only [Text.isBlank, Bool.or_eq_false_iff, Bool.and_eq_false_iff, decide_eq_false_iff_not,
    beq_eq_false_iff_ne]
  omega

theorem isBlank_of_mem_integer {chars : List Char} {value : Int}
    (spelled : SpellsInteger chars value) : ∀ char ∈ chars, Text.isBlank char = false := by
  obtain ⟨digits, _, each, ⟨rfl, _⟩ | ⟨rfl, _⟩ | ⟨rfl, _⟩⟩ := spelled
  · exact fun char member => isBlank_of_isDigit (each char member)
  · exact List.forall_mem_cons.mpr
      ⟨by decide, fun char member => isBlank_of_isDigit (each char member)⟩
  · exact List.forall_mem_cons.mpr
      ⟨by decide, fun char member => isBlank_of_isDigit (each char member)⟩

end Decimal

namespace Text

def SpellsCounter (text : String) (value : Int) : Prop :=
  ∃ before chars after : List Char, text.toList = before ++ chars ++ after ∧
    (∀ char ∈ before, isBlank char) ∧ (∀ char ∈ after, isBlank char) ∧
    Decimal.SpellsInteger chars value

theorem integerOfChars?_trimChars {text : String} {value : Int}
    (spelled : SpellsCounter text value) :
    Decimal.integerOfChars? (trimChars text.toList) = some value := by
  obtain ⟨before, chars, after, whole, blankBefore, blankAfter, integer⟩ := spelled
  rw [whole, trimChars_between_blanks blankBefore blankAfter
    (trimmed_of_shown (Decimal.isBlank_of_mem_integer integer))]
  exact Decimal.integerOfChars?_of_spelled integer

theorem integerOfChars?_trimChars_iff {text : String} {value : Int} :
    Decimal.integerOfChars? (trimChars text.toList) = some value ↔ SpellsCounter text value := by
  refine ⟨fun read => ?_, integerOfChars?_trimChars⟩
  obtain ⟨before, after, whole, blankBefore, blankAfter⟩ := exists_blanks_trimChars text.toList
  exact ⟨before, _, after, whole, blankBefore, blankAfter, Decimal.spelled_of_integerOfChars? read⟩

end Text

end TestDelegation
