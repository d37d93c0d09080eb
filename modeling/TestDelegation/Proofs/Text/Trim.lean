import Mathlib.Data.List.TakeWhile
import TestDelegation.Text.Strip

/-!
Texts between blanks. Main statement: `trim_eq_iff`, trimming leaves the content that has no blank
at its ends and stands between blanks of the text.
-/

namespace TestDelegation.Text

def Blanks (chars : List Char) : Prop := ∀ char ∈ chars, isBlank char = true

instance (chars : List Char) : Decidable (Blanks chars) :=
  decidable_of_iff (chars.all isBlank = true) List.all_eq_true

/-- Neither the first nor the last character is blank. -/
structure Trimmed (chars : List Char) : Prop where
  front : ∀ char, chars.head? = some char → isBlank char = false
  back : ∀ char, chars.getLast? = some char → isBlank char = false

def TrimsTo (text content : String) : Prop :=
  ∃ before after, text.toList = before ++ content.toList ++ after ∧
    Blanks before ∧ Blanks after ∧ Trimmed content.toList

variable {chars before after : List Char} {text content : String}

theorem trimmed_of_shown (shown : ∀ char ∈ chars, isBlank char = false) : Trimmed chars where
  front _ first := shown _ (List.mem_of_head? first)
  back _ last := shown _ (List.mem_of_getLast? last)

theorem Trimmed.reverse (trimmed : Trimmed chars) : Trimmed chars.reverse where
  front char first := trimmed.back char (by rwa [List.head?_reverse] at first)
  back char last := trimmed.front char (by rwa [List.getLast?_reverse] at last)

theorem Blanks.append (front : Blanks before) (back : Blanks after) : Blanks (before ++ after) :=
  List.forall_mem_append.mpr ⟨front, back⟩

theorem Blanks.reverse (blank : Blanks chars) : Blanks chars.reverse :=
  fun char listed => blank char (List.mem_reverse.mp listed)

theorem dropWhile_blanks (blank : Blanks before) (trimmed : Trimmed chars) (filled : chars ≠ [])
    (rest : List Char) : (before ++ (chars ++ rest)).dropWhile isBlank = chars ++ rest := by
  obtain ⟨first, later, rfl⟩ := List.exists_cons_of_ne_nil filled
  have shown : ¬isBlank first = true := by
    rw [trimmed.front first rfl]
    exact Bool.false_ne_true
  rw [List.dropWhile_append_of_pos blank, List.cons_append, List.dropWhile_cons_of_neg shown]

theorem trimChars_eq_nil_iff : trimChars chars = [] ↔ Blanks chars := by
  rw [trimChars, List.reverse_eq_nil_iff, List.dropWhile_eq_nil_iff]
  constructor
  · intro blank char member
    by_cases left : char ∈ chars.dropWhile isBlank
    · exact blank char (List.mem_reverse.mpr left)
    · have split := List.takeWhile_append_dropWhile (p := isBlank) (l := chars)
      rw [← split, List.mem_append] at member
      rcases member with early | late
      · exact List.mem_takeWhile_imp early
      · exact absurd late left
  · intro blank char member
    exact blank char ((List.dropWhile_sublist _).subset (List.mem_reverse.mp member))

theorem trimChars_between_blanks (blankBefore : Blanks before) (blankAfter : Blanks after)
    (trimmed : Trimmed chars) : trimChars (before ++ chars ++ after) = chars := by
  by_cases filled : chars = []
  · rw [filled, List.append_nil]
    exact trimChars_eq_nil_iff.mpr (blankBefore.append blankAfter)
  · rw [trimChars, List.append_assoc, dropWhile_blanks blankBefore trimmed filled,
      List.reverse_append, ← List.append_nil chars.reverse,
      dropWhile_blanks blankAfter.reverse trimmed.reverse (List.reverse_eq_nil_iff.not.mpr filled),
      List.append_nil, List.reverse_reverse]

theorem exists_blanks_trimChars (chars : List Char) :
    ∃ before after, chars = before ++ trimChars chars ++ after ∧ Blanks before ∧ Blanks after := by
  have front := List.takeWhile_append_dropWhile (p := isBlank) (l := chars)
  have back := List.takeWhile_append_dropWhile (p := isBlank)
    (l := (chars.dropWhile isBlank).reverse)
  have shown := congrArg List.reverse back
  rw [List.reverse_append, List.reverse_reverse] at shown
  refine ⟨chars.takeWhile isBlank, ((chars.dropWhile isBlank).reverse.takeWhile isBlank).reverse,
    ?_, fun char => List.mem_takeWhile_imp, fun char member =>
      List.mem_takeWhile_imp (List.mem_reverse.mp member)⟩
  rw [List.append_assoc, trimChars, shown, front]

theorem head?_dropWhile_isBlank {char : Char}
    (first : (chars.dropWhile isBlank).head? = some char) : isBlank char = false := by
  have shown := List.head?_dropWhile_not isBlank chars
  rw [first] at shown
  exact shown

theorem trimmed_trimChars (chars : List Char) : Trimmed (trimChars chars) where
  front char first := by
    obtain ⟨cut, split⟩ :=
      List.dropWhile_suffix (p := isBlank) (l := (chars.dropWhile isBlank).reverse)
    have whole := congrArg List.reverse split
    rw [List.reverse_append, List.reverse_reverse] at whole
    have kept : (chars.dropWhile isBlank).head? = some char := by
      rw [trimChars] at first
      rw [← whole, List.head?_append, first]
      rfl
    exact head?_dropWhile_isBlank kept
  back char last := by
    rw [trimChars, List.getLast?_reverse] at last
    exact head?_dropWhile_isBlank last

theorem trimsTo_trim (text : String) : TrimsTo text (trim text) := by
  obtain ⟨before, after, split, blankBefore, blankAfter⟩ := exists_blanks_trimChars text.toList
  have content : (trim text).toList = trimChars text.toList := String.toList_ofList
  refine ⟨before, after, ?_, blankBefore, blankAfter, ?_⟩
  · rw [content]
    exact split
  · rw [content]
    exact trimmed_trimChars text.toList

theorem trim_eq_iff : trim text = content ↔ TrimsTo text content := by
  constructor
  · rintro rfl
    exact trimsTo_trim text
  · rintro ⟨before, after, split, blankBefore, blankAfter, trimmed⟩
    rw [trim, split, trimChars_between_blanks blankBefore blankAfter trimmed, String.ofList_toList]

theorem trim_eq_empty_iff : trim text = "" ↔ Blanks text.toList := by
  rw [trim, ← trimChars_eq_nil_iff, ← String.toList_inj, String.toList_ofList]
  rfl

theorem trim_of_trimmed (trimmed : Trimmed text.toList) : trim text = text :=
  trim_eq_iff.mpr ⟨[], [], by simp, by simp [Blanks], by simp [Blanks], trimmed⟩

theorem trim_surround {front back : String} (blankFront : Blanks front.toList)
    (blankBack : Blanks back.toList) (text : String) :
    trim (front ++ text ++ back) = trim text := by
  obtain ⟨before, after, split, blankBefore, blankAfter, trimmed⟩ := trimsTo_trim text
  refine trim_eq_iff.mpr ⟨front.toList ++ before, after ++ back.toList, ?_,
    blankFront.append blankBefore, blankAfter.append blankBack, trimmed⟩
  simp [split]

end TestDelegation.Text
