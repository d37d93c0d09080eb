import TestDelegation.Proofs.Codec.Decoding
import TestDelegation.Proofs.Json.Integers
import TestDelegation.Proofs.Payload.Acceptance

/-!
Counters of 64 and of 32 bits: which values and which texts stand for which integer. Main statement:
`counters_in_range`.
-/

namespace TestDelegation

/-- The value is this integer, or a text that spells it. -/
def Json.Counts (value : Json) (count : Int) : Prop :=
  value = .integer count ∨ ∃ text, value = .string text ∧ Text.SpellsCounter text count

/-- The text is this integer, or a JSON string that spells it. -/
def CountsInText (text : String) (count : Int) : Prop :=
  Json.WritesInteger text count ∨
    ∃ inner, Json.parse text = .ok (.string inner) ∧ Text.SpellsCounter inner count

namespace SignedWord

variable {bits : Nat}

theorem exists_toInt_eq_iff {count : Int} :
    (∃ word : SignedWord bits, word.toInt = count) ↔
      -signedLimit bits ≤ count ∧ count < signedLimit bits := by
  constructor
  · rintro ⟨word, rfl⟩
    exact word.property
  · intro inRange
    exact ⟨⟨count, inRange⟩, rfl⟩

theorem render_encode (word : SignedWord bits) :
    word.encode.render = Decimal.integerText word.toInt := rfl

end SignedWord

namespace Json

theorem writesInteger_integerText (value : Int) :
    WritesInteger (Decimal.integerText value) value :=
  ⟨[], [], by simp [Decimal.integerText], nofun, nofun⟩

theorem exists_counts_parse_iff {text : String} {count : Int}
    (low : -(Nat.pow 2 63 : Int) ≤ count) (high : count < unsignedLimit) :
    (∃ value, parse text = .ok value ∧ value.Counts count) ↔ CountsInText text count := by
  constructor
  · rintro ⟨value, parsed, rfl | ⟨inner, rfl, spelled⟩⟩
    · exact .inl (parse_eq_integer_iff.mp parsed).1
    · exact .inr ⟨inner, parsed, spelled⟩
  · rintro (written | ⟨inner, parsed, spelled⟩)
    · exact ⟨_, parse_eq_integer_iff.mpr ⟨written, low, high⟩, .inl rfl⟩
    · exact ⟨_, parsed, .inr ⟨inner, rfl, spelled⟩⟩

end Json

namespace Decoder

variable {bits : Nat}

def ReadsWhole {α : Type} (decoder : Nat → Decoder α) : Prop :=
  ∀ {levels scan result}, decoder levels scan = .ok result →
    ∃ value, scan.read levels = .ok value

theorem longCounter_readsWhole : ReadsWhole longCounter := by
  intro levels scan result decoded
  obtain ⟨value, read, _⟩ := bind_eq_ok_iff.mp decoded
  rw [anything] at read
  split at read
  · rename_i whole
    exact ⟨_, whole⟩
  · simp [broken] at read

theorem integerCounter_readsWhole : ReadsWhole integerCounter := by
  intro levels scan result decoded
  obtain ⟨long, read, _⟩ := bind_eq_ok_iff.mp decoded
  exact longCounter_readsWhole read

theorem ofText_eq_ok_iff_exists {α : Type} {decoder : Nat → Decoder α} (whole : ReadsWhole decoder)
    {text : String} {result : α} :
    ofText decoder text = .ok result ↔
      ∃ value, Json.parse text = .ok value ∧ (decoder levelLimit).Yields value result := by
  constructor
  · intro decoded
    obtain ⟨_, found, ended⟩ := bind_eq_ok_iff.mp decoded
    obtain ⟨value, read⟩ := whole found
    have parsed : Json.parse text = .ok value := by
      refine bind_eq_ok_iff.mpr ⟨value, read, ?_⟩
      split at ended
      · simp [broken] at ended
      · rename_i clear
        rw [if_neg clear]
    exact ⟨value, parsed, (ofText_eq_ok_iff parsed).mp decoded⟩
  · rintro ⟨value, parsed, yields⟩
    exact (ofText_eq_ok_iff parsed).mpr yields

/--
The decoder makes a counter of exactly the values and texts that count an integer between its
bounds, and it takes back what a counter is written as.
-/
structure CountsExactly (decoder : Nat → Decoder (SignedWord bits)) (lowest highest : Int) :
    Prop where
  decodes : ∀ levels value count,
    (∃ word, (decoder levels).Yields value word ∧ word.toInt = count) ↔
      value.Counts count ∧ lowest ≤ count ∧ count ≤ highest
  refuses : ∀ levels value, (∃ error, decoder levels (Scan.ofJson value) = .error error) ↔
    ∀ count, value.Counts count → count < lowest ∨ highest < count
  decodesText : ∀ text count, (∃ word, ofText decoder text = .ok word ∧ word.toInt = count) ↔
    CountsInText text count ∧ lowest ≤ count ∧ count ≤ highest
  comesBack : ∀ word : SignedWord bits,
    word.encode.render = Decimal.integerText word.toInt ∧
    ofText decoder word.encode.render = .ok word ∧
    ∀ levels, (decoder levels).Yields word.encode word

section

variable {decoder : Nat → Decoder (SignedWord bits)} {lowest highest : Int}
  (lower : lowest = -signedLimit bits) (upper : highest + 1 = signedLimit bits)
  (counted : ∀ levels value word, (decoder levels).Yields value word ↔ word.CountedBy value)

include lower upper counted

theorem exists_yields_iff {levels : Nat} {value : Json} {count : Int} :
    (∃ word, (decoder levels).Yields value word ∧ word.toInt = count) ↔
      value.Counts count ∧ lowest ≤ count ∧ count ≤ highest := by
  have inRange : (∃ word : SignedWord bits, word.toInt = count) ↔ _ :=
    SignedWord.exists_toInt_eq_iff
  constructor
  · rintro ⟨word, yields, rfl⟩
    have bounds := inRange.mp ⟨word, rfl⟩
    exact ⟨(counted _ _ _).mp yields, by omega, by omega⟩
  · rintro ⟨counts, low, high⟩
    obtain ⟨word, rfl⟩ := inRange.mpr ⟨by omega, by omega⟩
    exact ⟨word, (counted _ _ _).mpr counts, rfl⟩

theorem exists_error_iff {levels : Nat} {value : Json} :
    (∃ error, decoder levels (Scan.ofJson value) = .error error) ↔
      ∀ count, value.Counts count → count < lowest ∨ highest < count := by
  constructor
  · rintro ⟨error, refused⟩ count counts
    by_contra within
    obtain ⟨word, yields, _⟩ :=
      (exists_yields_iff lower upper counted).mpr ⟨counts, by omega, by omega⟩
    rw [Yields, refused] at yields
    cases yields
  · intro outside
    cases decoded : decoder levels (Scan.ofJson value) with
    | error error => exact ⟨error, rfl⟩
    | ok word =>
        obtain ⟨counts, low, high⟩ :=
          (exists_yields_iff lower upper counted).mp ⟨word, decoded, rfl⟩
        have excluded := outside word.toInt counts
        omega

theorem exists_ofText_iff (narrow : signedLimit bits ≤ Nat.pow 2 63) (whole : ReadsWhole decoder)
    {text : String} {count : Int} :
    (∃ word, ofText decoder text = .ok word ∧ word.toInt = count) ↔
      CountsInText text count ∧ lowest ≤ count ∧ count ≤ highest := by
  have wide : (Nat.pow 2 63 : Int) ≤ Json.unsignedLimit := by decide
  simp only [ofText_eq_ok_iff_exists whole]
  constructor
  · rintro ⟨word, ⟨value, parsed, yields⟩, same⟩
    obtain ⟨counts, low, high⟩ :=
      (exists_yields_iff lower upper counted).mp ⟨word, yields, same⟩
    have found := (Json.exists_counts_parse_iff (by omega) (by omega)).mp ⟨value, parsed, counts⟩
    exact ⟨found, low, high⟩
  · rintro ⟨found, low, high⟩
    obtain ⟨value, parsed, counts⟩ :=
      (Json.exists_counts_parse_iff (by omega) (by omega)).mpr found
    obtain ⟨word, yields, same⟩ :=
      (exists_yields_iff lower upper counted).mpr ⟨counts, low, high⟩
    exact ⟨word, ⟨value, parsed, yields⟩, same⟩

theorem ofText_render_encode (narrow : signedLimit bits ≤ Nat.pow 2 63)
    (whole : ReadsWhole decoder) (word : SignedWord bits) :
    ofText decoder word.encode.render = .ok word := by
  have bounds := SignedWord.exists_toInt_eq_iff.mp ⟨word, rfl⟩
  have written : CountsInText word.encode.render word.toInt :=
    .inl (Json.writesInteger_integerText word.toInt)
  obtain ⟨found, decoded, same⟩ := (exists_ofText_iff lower upper counted narrow whole).mpr
    ⟨written, by omega, by omega⟩
  rw [decoded, SignedWord.toInt_injective same]

theorem countsExactly_of_counted (narrow : signedLimit bits ≤ Nat.pow 2 63)
    (whole : ReadsWhole decoder) : CountsExactly decoder lowest highest where
  decodes _ _ _ := exists_yields_iff lower upper counted
  refuses _ _ := exists_error_iff lower upper counted
  decodesText _ _ := exists_ofText_iff lower upper counted narrow whole
  comesBack word := ⟨word.render_encode, ofText_render_encode lower upper counted narrow whole word,
    fun _ => (counted _ _ _).mpr (.inl rfl)⟩

end

/--
A 64-bit counter and a 32-bit counter are each decoded from exactly the integers in their range;
what the narrower decoder takes is what the wider takes and fits.
-/
theorem counters_in_range :
    CountsExactly longCounter (-9223372036854775808) 9223372036854775807 ∧
    CountsExactly integerCounter (-2147483648) 2147483647 ∧
    ∀ levels value count,
      (∃ word, (integerCounter levels).Yields value word ∧ word.toInt = count) ↔
        (∃ word, (longCounter levels).Yields value word ∧ word.toInt = count) ∧
          -2147483648 ≤ count ∧ count ≤ 2147483647 := by
  have long : CountsExactly longCounter (-9223372036854775808) 9223372036854775807 :=
    countsExactly_of_counted (by decide) (by decide)
      (fun _ _ _ => longCounter_yields_iff_counted) (by decide) longCounter_readsWhole
  have short : CountsExactly integerCounter (-2147483648) 2147483647 :=
    countsExactly_of_counted (by decide) (by decide)
      (fun _ _ _ => integerCounter_yields_iff_counted) (by decide) integerCounter_readsWhole
  refine ⟨long, short, fun levels value count => ?_⟩
  rw [short.decodes, long.decodes]
  constructor
  · rintro ⟨counts, low, high⟩
    exact ⟨⟨counts, by omega, by omega⟩, low, high⟩
  · rintro ⟨⟨counts, _⟩, within⟩
    exact ⟨counts, within⟩

end Decoder

end TestDelegation
