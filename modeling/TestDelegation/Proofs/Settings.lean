import TestDelegation.Proofs.Text.Trim
import TestDelegation.Settings

/-!
When settings let a class be delegated: the namespace guard, and an address for the class.
-/

namespace TestDelegation

namespace Settings

def HasAddress (settings : Settings) : Prop :=
  ∃ url, settings.baseUrl = some url ∧ ∃ char ∈ url.toList, Text.isBlank char = false

def Admits (settings : Settings) (className : ClassName) : Prop :=
  settings.requiredNamespace = "" ∨ className.topLevelNamespace = settings.requiredNamespace

variable {settings : Settings} {className : ClassName}

instance : Decidable (settings.Admits className) := inferInstanceAs (Decidable (_ ∨ _))

theorem checkNamespace_of_admits (admits : settings.Admits className) :
    settings.checkNamespace className = .ok () := by
  have passes : (settings.requiredNamespace.isEmpty ||
      className.topLevelNamespace == settings.requiredNamespace) = true := by
    simpa [Admits] using admits
  exact if_pos passes

theorem checkNamespace_of_not_admits (outside : ¬settings.Admits className) :
    settings.checkNamespace className =
      .error (.wrongNamespace className settings.requiredNamespace) := by
  have stops : ¬(settings.requiredNamespace.isEmpty ||
      className.topLevelNamespace == settings.requiredNamespace) = true := by
    simpa [Admits] using outside
  exact if_neg stops

theorem hasAddress_iff {base : String} (given : settings.baseUrl = some base) :
    settings.HasAddress ↔ ¬Text.Blanks base.toList := by
  rw [HasAddress, given, Text.Blanks]
  simp

theorem trim_counts_iff {base : String} :
    (!(Text.trim base).isEmpty) = true ↔ ¬Text.Blanks base.toList := by
  rw [Bool.not_eq_true', ← Bool.not_eq_true, String.isEmpty_iff, Text.trim_eq_empty_iff]

theorem contentUrl?_isSome_iff : settings.contentUrl?.isSome = true ↔ settings.HasAddress := by
  cases given : settings.baseUrl with
  | none => simp [contentUrl?, HasAddress, given]
  | some base =>
      rw [contentUrl?, given, Option.isSome_filter, Option.any_some, trim_counts_iff,
        hasAddress_iff given]

theorem resourceUrl_eq_ok (address : settings.HasAddress) (className : ClassName) :
    ∃ url, settings.resourceUrl className = .ok url := by
  obtain ⟨url, found⟩ := Option.isSome_iff_exists.mp (contentUrl?_isSome_iff.mpr address)
  simp [resourceUrl, found]

theorem resourceUrl_eq_error (missing : ¬settings.HasAddress) (className : ClassName) :
    settings.resourceUrl className = .error .missingBaseUrl := by
  rw [← contentUrl?_isSome_iff, Bool.not_eq_true, Option.isSome_eq_false_iff,
    Option.isNone_iff_eq_none] at missing
  simp [resourceUrl, missing]

end Settings

end TestDelegation
