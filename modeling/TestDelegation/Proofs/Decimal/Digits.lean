import TestDelegation.Decimal.Digits

/-!
Whole numbers written in digits: what is written reads back, and no zero stands in front.
-/

namespace TestDelegation.Decimal

theorem isDigit_digitChar {digit : Nat} (small : digit < 10) : isDigit (digitChar digit) := by
  have all : ∀ digit < 10, isDigit (digitChar digit) := by decide
  exact all digit small

theorem digitValue_digitChar {digit : Nat} (small : digit < 10) :
    digitValue (digitChar digit) = digit := by
  have all : ∀ digit < 10, digitValue (digitChar digit) = digit := by decide
  exact all digit small

theorem digitChar_ne_zero {digit : Nat} (small : digit < 10) (positive : 0 < digit) :
    digitChar digit ≠ '0' := by
  have all : ∀ digit < 10, 0 < digit → digitChar digit ≠ '0' := by decide
  exact all digit small positive

theorem digitsFrom_eq_digits {fuel value : Nat} (enough : value < fuel) :
    digitsFrom fuel value = digits value := by
  have same : ∀ first second value, value < first → value < second →
      digitsFrom first value = digitsFrom second value := by
    intro first
    induction first with
    | zero => intro second value below; omega
    | succ first ih =>
        intro second value belowFirst belowSecond
        cases second with
        | zero => omega
        | succ second =>
            simp only [digitsFrom]
            split
            · rfl
            · rw [ih second (value / 10) (by omega) (by omega)]
  exact same fuel (value + 1) value enough (by omega)

theorem digits_of_lt {value : Nat} (small : value < 10) : digits value = [digitChar value] := by
  simp [digits, digitsFrom, small]

theorem digits_of_ge {value : Nat} (large : 10 ≤ value) :
    digits value = digits (value / 10) ++ [digitChar (value % 10)] := by
  have notSmall : ¬value < 10 := by omega
  rw [digits, digitsFrom, if_neg notSmall, digitsFrom_eq_digits (by omega)]

theorem digits_ne_nil (value : Nat) : digits value ≠ [] := by
  rcases Nat.lt_or_ge value 10 with small | large
  · simp [digits_of_lt small]
  · simp [digits_of_ge large]

theorem isDigit_of_mem_digits {value : Nat} {char : Char} (member : char ∈ digits value) :
    isDigit char := by
  induction value using Nat.strongRecOn with
  | ind value ih =>
      rcases Nat.lt_or_ge value 10 with small | large
      · simp only [digits_of_lt small, List.mem_singleton] at member
        subst member
        exact isDigit_digitChar small
      · simp only [digits_of_ge large, List.mem_append, List.mem_singleton] at member
        rcases member with front | last
        · exact ih (value / 10) (by omega) front
        · subst last
          exact isDigit_digitChar (by omega)

theorem isDigit_head_digits {value : Nat} {first : Char} {later : List Char}
    (written : digits value = first :: later) : isDigit first :=
  isDigit_of_mem_digits (written ▸ List.mem_cons_self)

theorem valueOfDigits_append_singleton (front : List Char) (last : Char) :
    valueOfDigits (front ++ [last]) = valueOfDigits front * 10 + digitValue last := by
  simp [valueOfDigits]

theorem valueOfDigits_digits (value : Nat) : valueOfDigits (digits value) = value := by
  induction value using Nat.strongRecOn with
  | ind value ih =>
      rcases Nat.lt_or_ge value 10 with small | large
      · rw [digits_of_lt small]
        simp [valueOfDigits, digitValue_digitChar small]
      · rw [digits_of_ge large, valueOfDigits_append_singleton, ih (value / 10) (by omega),
          digitValue_digitChar (by omega)]
        omega

theorem head?_digits_ne_zero {value : Nat} (positive : 0 < value) :
    (digits value).head? ≠ some '0' := by
  induction value using Nat.strongRecOn with
  | ind value ih =>
      rcases Nat.lt_or_ge value 10 with small | large
      · simpa [digits_of_lt small] using digitChar_ne_zero small positive
      · have front := ih (value / 10) (by omega) (by omega)
        obtain ⟨first, rest, written⟩ := List.exists_cons_of_ne_nil (digits_ne_nil (value / 10))
        rw [digits_of_ge large]
        simpa [written] using front

theorem tail_eq_nil_of_leading_zero {value : Nat} {rest : List Char}
    (written : digits value = '0' :: rest) : rest = [] := by
  rcases Nat.eq_zero_or_pos value with zero | positive
  · subst zero
    rw [digits_of_lt (by decide)] at written
    exact (List.cons.inj written).2.symm
  · exact absurd (by simp [written]) (head?_digits_ne_zero positive)

end TestDelegation.Decimal
