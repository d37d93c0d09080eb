import TestDelegation.SortedMap

/-!
Texts in the order of their characters are in the order of their UTF-8 bytes, since the number of
a character grows with the bytes that stand for it. Main statement:
`inByteOrder_of_strictlySorted`.
-/

namespace TestDelegation.Text

def utf8Bytes (text : String) : List UInt8 :=
  text.toUTF8.data.toList

theorem utf8Bytes_eq_flatMap (text : String) :
    utf8Bytes text = text.toList.flatMap String.utf8EncodeChar := by
  rw [utf8Bytes, String.toUTF8_eq_toByteArray, ← String.utf8Encode_toList, List.utf8Encode,
    List.toList_data_toByteArray]

theorem ofNat_cons_lt_of_lt {low high : Nat} (before : low < high) (small : high < 256)
    (afterLow afterHigh : List UInt8) :
    UInt8.ofNat low :: afterLow < UInt8.ofNat high :: afterHigh := by
  refine List.cons_lt_cons_iff.mpr (.inl ?_)
  rw [UInt8.lt_iff_toNat_lt, UInt8.toNat_ofNat', UInt8.toNat_ofNat']
  omega

theorem ofNat_cons_lt_of_le {low high : Nat} (before : low ≤ high) (small : high < 256)
    {afterLow afterHigh : List UInt8} (later : low = high → afterLow < afterHigh) :
    UInt8.ofNat low :: afterLow < UInt8.ofNat high :: afterHigh := by
  rcases Nat.lt_or_eq_of_le before with less | same
  · exact ofNat_cons_lt_of_lt less small afterLow afterHigh
  · rw [same]
    exact List.cons_lt_cons_iff.mpr (.inr ⟨rfl, later same⟩)

theorem encodeChar_append_lt {first second : Char} (before : first < second)
    (afterFirst afterSecond : List UInt8) :
    String.utf8EncodeChar first ++ afterFirst < String.utf8EncodeChar second ++ afterSecond := by
  have smaller : first.val.toNat < second.val.toNat := before
  have range : second.val.toNat < 0x110000 := by
    have valid := second.valid
    simp only [UInt32.isValidChar, Nat.isValidChar] at valid
    omega
  simp only [String.utf8EncodeChar]
  generalize first.val.toNat = low at smaller
  generalize second.val.toNat = high at smaller range
  -- The lead byte of a longer form is above those of all shorter ones; within a form the bytes
  -- are the digits of the number, the highest first.
  split
  · split
    · exact ofNat_cons_lt_of_lt smaller (by omega) _ _
    · split
      · exact ofNat_cons_lt_of_lt (by omega) (by omega) _ _
      · split
        · exact ofNat_cons_lt_of_lt (by omega) (by omega) _ _
        · exact ofNat_cons_lt_of_lt (by omega) (by omega) _ _
  · split
    · split
      · omega
      · split
        · refine ofNat_cons_lt_of_le (by omega) (by omega) fun _ => ?_
          exact ofNat_cons_lt_of_lt (by omega) (by omega) _ _
        · split
          · exact ofNat_cons_lt_of_lt (by omega) (by omega) _ _
          · exact ofNat_cons_lt_of_lt (by omega) (by omega) _ _
    · split
      · split
        · omega
        · split
          · omega
          · split
            · refine ofNat_cons_lt_of_le (by omega) (by omega) fun _ => ?_
              refine ofNat_cons_lt_of_le (by omega) (by omega) fun _ => ?_
              exact ofNat_cons_lt_of_lt (by omega) (by omega) _ _
            · exact ofNat_cons_lt_of_lt (by omega) (by omega) _ _
      · split
        · omega
        · split
          · omega
          · split
            · omega
            · refine ofNat_cons_lt_of_le (by omega) (by omega) fun _ => ?_
              refine ofNat_cons_lt_of_le (by omega) (by omega) fun _ => ?_
              refine ofNat_cons_lt_of_le (by omega) (by omega) fun _ => ?_
              exact ofNat_cons_lt_of_lt (by omega) (by omega) _ _

theorem flatMap_encodeChar_lt {first second : List Char} (before : first < second) :
    first.flatMap String.utf8EncodeChar < second.flatMap String.utf8EncodeChar := by
  induction first generalizing second with
  | nil =>
      cases second with
      | nil => exact absurd before (List.lt_irrefl [])
      | cons char rest =>
          rw [List.flatMap_nil, List.flatMap_cons]
          cases bytes : String.utf8EncodeChar char with
          | nil => exact absurd bytes String.utf8EncodeChar_ne_nil
          | cons lead others => exact List.nil_lt_cons _ _
  | cons char rest ih =>
      cases second with
      | nil => exact absurd before (List.not_lt_nil _)
      | cons other others =>
          rw [List.flatMap_cons, List.flatMap_cons]
          rcases List.cons_lt_cons_iff.mp before with less | ⟨same, later⟩
          · exact encodeChar_append_lt less _ _
          · rw [same]
            exact List.append_left_lt (ih later)

theorem utf8Bytes_lt_utf8Bytes {first second : String} (before : first < second) :
    utf8Bytes first < utf8Bytes second := by
  rw [utf8Bytes_eq_flatMap, utf8Bytes_eq_flatMap]
  exact flatMap_encodeChar_lt (String.lt_iff.mp before)

def InByteOrder (names : List String) : Prop :=
  names.Pairwise fun first second => utf8Bytes first < utf8Bytes second

theorem inByteOrder_of_strictlySorted {α : Type} {entries : List (String × α)}
    (sorted : StrictlySorted entries) : InByteOrder (entries.map Prod.fst) := by
  refine List.pairwise_map.mpr (sorted.imp ?_)
  intro first second before
  exact utf8Bytes_lt_utf8Bytes before

end TestDelegation.Text
