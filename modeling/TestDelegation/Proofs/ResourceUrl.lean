import TestDelegation.Proofs.Settings

/-!
The address that runs a class. Main statement: `resourceUrl_addresses`, when there is none, what it
is otherwise, which base URLs give the same one, and that it names the class.
-/

namespace TestDelegation.Settings

/-- A base URL without its last character if that is a slash; no second slash is taken off. -/
inductive StemOf : String → String → Prop
  | slashed (stem : String) : StemOf (stem ++ "/") stem
  | bare {base : String} : (∀ front, base ≠ front ++ "/") → StemOf base base

theorem withoutTrailingSlash_slashed (stem : String) :
    withoutTrailingSlash (stem ++ "/") = stem := by
  have written : (stem ++ "/").toList.reverse = '/' :: stem.toList.reverse := by simp
  rw [withoutTrailingSlash, written]
  simp

theorem withoutTrailingSlash_bare {base : String} (bare : ∀ front, base ≠ front ++ "/") :
    withoutTrailingSlash base = base := by
  rw [withoutTrailingSlash]
  split
  · rename_i rest written
    refine absurd ?_ (bare (String.ofList rest.reverse))
    rw [← String.toList_inj, ← List.reverse_inj, written]
    simp
  · rfl

theorem stemOf_withoutTrailingSlash (base : String) : StemOf base (withoutTrailingSlash base) := by
  by_cases slashed : ∃ stem, base = stem ++ "/"
  · obtain ⟨stem, rfl⟩ := slashed
    rw [withoutTrailingSlash_slashed]
    exact .slashed stem
  · have bare : ∀ front, base ≠ front ++ "/" := fun front same => slashed ⟨front, same⟩
    rw [withoutTrailingSlash_bare bare]
    exact .bare bare

variable {settings other : Settings} {base otherBase url : String}

theorem resourceUrl_of_blanks (given : settings.baseUrl = some base)
    (blank : Text.Blanks base.toList) (className : ClassName) :
    settings.resourceUrl className = .error .missingBaseUrl :=
  resourceUrl_eq_error (fun address => (hasAddress_iff given).mp address blank) className

theorem resourceUrl_of_content (given : settings.baseUrl = some base)
    (content : ¬Text.Blanks base.toList) (className : ClassName) :
    settings.resourceUrl className = .ok (withoutTrailingSlash (Text.trim base) ++
      "/rest/atlassiantestrunner/1.0/runtest/" ++ className.text) := by
  rw [resourceUrl, contentUrl?, given, Option.filter_some, if_pos (trim_counts_iff.mpr content)]
  simp [runTestPath, String.append_assoc]

theorem resourceUrl_eq_error_iff (className : ClassName) :
    settings.resourceUrl className = .error .missingBaseUrl ↔
      settings.baseUrl = none ∨
        ∃ base, settings.baseUrl = some base ∧ Text.Blanks base.toList := by
  constructor
  · intro missing
    cases given : settings.baseUrl with
    | none => exact .inl rfl
    | some base =>
        refine .inr ⟨base, rfl, Classical.byContradiction fun content => ?_⟩
        rw [resourceUrl_of_content given content] at missing
        cases missing
  · rintro (absent | ⟨base, given, blank⟩)
    · exact resourceUrl_eq_error (by simp [HasAddress, absent]) className
    · exact resourceUrl_of_blanks given blank className

theorem resourceUrl_congr (given : settings.baseUrl = some base)
    (otherGiven : other.baseUrl = some otherBase)
    (blanks : Text.Blanks base.toList ↔ Text.Blanks otherBase.toList)
    (stems : withoutTrailingSlash (Text.trim base) = withoutTrailingSlash (Text.trim otherBase))
    (className : ClassName) : settings.resourceUrl className = other.resourceUrl className := by
  by_cases blank : Text.Blanks base.toList
  · rw [resourceUrl_of_blanks given blank, resourceUrl_of_blanks otherGiven (blanks.mp blank)]
  · rw [resourceUrl_of_content given blank,
      resourceUrl_of_content otherGiven (blanks.not.mp blank), stems]

theorem resourceUrl_surround {front back : String} (blankFront : Text.Blanks front.toList)
    (blankBack : Text.Blanks back.toList) (given : settings.baseUrl = some base)
    (padded : other.baseUrl = some (front ++ base ++ back)) (className : ClassName) :
    other.resourceUrl className = settings.resourceUrl className := by
  have same := Text.trim_surround blankFront blankBack base
  refine resourceUrl_congr padded given ?_ (by rw [same]) className
  rw [← Text.trim_eq_empty_iff, ← Text.trim_eq_empty_iff, same]

theorem trimmed_slashed (filled : base ≠ "") (trimmed : Text.Trimmed base.toList) :
    Text.Trimmed (base ++ "/").toList := by
  obtain ⟨first, rest, written⟩ :=
    List.exists_cons_of_ne_nil (String.toList_eq_nil_iff.not.mpr filled)
  have slashed : (base ++ "/").toList = base.toList ++ ['/'] := by simp
  constructor
  · intro char head
    rw [slashed, written] at head
    exact trimmed.front char (written ▸ head)
  · intro char last
    rw [slashed, List.getLast?_concat] at last
    rw [← Option.some.inj last]
    decide

theorem resourceUrl_slashed (filled : base ≠ "") (trimmed : Text.Trimmed base.toList)
    (bare : ∀ front, base ≠ front ++ "/") (given : settings.baseUrl = some base)
    (slashed : other.baseUrl = some (base ++ "/")) (className : ClassName) :
    other.resourceUrl className = settings.resourceUrl className := by
  have kept := Text.trim_of_trimmed (trimmed_slashed filled trimmed)
  have whole := Text.trim_of_trimmed trimmed
  refine resourceUrl_congr slashed given ?_ ?_ className
  · rw [← Text.trim_eq_empty_iff, ← Text.trim_eq_empty_iff, kept, whole]
    simp [filled]
  · rw [kept, whole, withoutTrailingSlash_slashed, withoutTrailingSlash_bare bare]

theorem className_eq_of_resourceUrl {first second : ClassName}
    (found : settings.resourceUrl first = .ok url)
    (foundToo : settings.resourceUrl second = .ok url) : first = second := by
  cases given : settings.baseUrl with
  | none =>
      rw [(resourceUrl_eq_error_iff first).mpr (.inl given)] at found
      cases found
  | some base =>
      by_cases blank : Text.Blanks base.toList
      · rw [resourceUrl_of_blanks given blank] at found
        cases found
      · have same := found.trans foundToo.symm
        rw [resourceUrl_of_content given blank, resourceUrl_of_content given blank,
          Except.ok.injEq, String.append_right_inj] at same
        cases first
        cases second
        cases same
        rfl

/--
There is an address unless the base URL is missing or blank. It does not depend on blanks around the
base URL or on a slash after it, and no two classes have the same one.
-/
theorem resourceUrl_addresses (settings : Settings) (className : ClassName) :
    (settings.resourceUrl className = .error .missingBaseUrl ↔
      settings.baseUrl = none ∨
        ∃ base, settings.baseUrl = some base ∧ Text.Blanks base.toList) ∧
    (∀ base, settings.baseUrl = some base → ¬Text.Blanks base.toList →
      ∃ content stem, Text.TrimsTo base content ∧ StemOf content stem ∧
        settings.resourceUrl className =
          .ok (stem ++ "/rest/atlassiantestrunner/1.0/runtest/" ++ className.text)) ∧
    (∀ base front back, settings.baseUrl = some base → Text.Blanks front.toList →
      Text.Blanks back.toList → ∀ padded : Settings,
        padded.baseUrl = some (front ++ base ++ back) →
          padded.resourceUrl className = settings.resourceUrl className) ∧
    (∀ base, settings.baseUrl = some base → base ≠ "" → Text.Trimmed base.toList →
      (∀ front, base ≠ front ++ "/") → ∀ slashed : Settings,
        slashed.baseUrl = some (base ++ "/") →
          slashed.resourceUrl className = settings.resourceUrl className) ∧
    ∀ other url, settings.resourceUrl className = .ok url →
      settings.resourceUrl other = .ok url → className = other := by
  refine ⟨resourceUrl_eq_error_iff className, ?_, ?_, ?_, ?_⟩
  · intro base given content
    exact ⟨Text.trim base, withoutTrailingSlash (Text.trim base), Text.trimsTo_trim base,
      stemOf_withoutTrailingSlash (Text.trim base), resourceUrl_of_content given content className⟩
  · intro base front back given blankFront blankBack padded surrounded
    exact resourceUrl_surround blankFront blankBack given surrounded className
  · intro base given filled trimmed bare slashed ended
    exact resourceUrl_slashed filled trimmed bare given ended className
  · intro other url found foundToo
    exact className_eq_of_resourceUrl found foundToo

def jira : Settings := new (some "http://host/jira")

def smokeTest : ClassName := ⟨"it.SmokeTest", by decide⟩

theorem bare_jira (front : String) : "http://host/jira" ≠ front ++ "/" := by
  intro same
  have last := congrArg (fun text => text.toList.getLast?) same
  simp at last

theorem trimmed_jira : Text.Trimmed "http://host/jira".toList := by
  constructor <;> simp [Text.isBlank]

theorem resourceUrl_addresses_jira :
    jira.baseUrl = some "http://host/jira" ∧ ¬Text.Blanks "http://host/jira".toList ∧
      Text.Blanks "\u3000\t".toList ∧ Text.Blanks "\n".toList ∧
      Text.Trimmed "http://host/jira".toList ∧ (∀ front, "http://host/jira" ≠ front ++ "/") ∧
      jira.resourceUrl smokeTest =
        .ok "http://host/jira/rest/atlassiantestrunner/1.0/runtest/it.SmokeTest" ∧
      (new (some "\u3000\thttp://host/jira\n")).resourceUrl smokeTest =
        jira.resourceUrl smokeTest ∧
      (new (some "http://host/jira/")).resourceUrl smokeTest = jira.resourceUrl smokeTest ∧
      jira.resourceUrl ⟨"it.Other", by decide⟩ ≠ jira.resourceUrl smokeTest := by
  have filled : ¬Text.Blanks "http://host/jira".toList := by decide
  have address : jira.resourceUrl smokeTest =
      .ok "http://host/jira/rest/atlassiantestrunner/1.0/runtest/it.SmokeTest" := by decide
  obtain ⟨_, _, surrounded, slashed, apart⟩ := resourceUrl_addresses jira smokeTest
  refine ⟨rfl, filled, by decide, by decide, trimmed_jira, bare_jira, address, ?_, ?_, ?_⟩
  · exact surrounded _ "\u3000\t" "\n" rfl (by decide) (by decide) _ rfl
  · exact slashed _ rfl (by decide) trimmed_jira bare_jira _ rfl
  · intro same
    exact absurd (apart _ _ address (same.trans address)) (by decide)

end TestDelegation.Settings
