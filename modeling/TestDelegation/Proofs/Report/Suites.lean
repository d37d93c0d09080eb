import TestDelegation.Proofs.Outcome.Partitions
import TestDelegation.Report.Junit

/-!
Suites as cases that were put together by class. Main statement: `addCase_suitesOf`. The suites
stand in the order of their first cases, and no case is lost or counted twice.
-/

namespace TestDelegation

def suitesOf (cases : List TestCase) : List TestSuite :=
  (distinctNames (cases.map TestCase.className)).map fun name =>
    ⟨name, cases.filter fun testCase => testCase.className == name⟩

namespace JunitReporter

variable {testCase : TestCase} {cases : List TestCase}

theorem addCase_of_not_mem {suites : List TestSuite}
    (absent : testCase.className ∉ suites.map TestSuite.name) :
    addCase testCase suites = suites ++ [⟨testCase.className, [testCase]⟩] := by
  induction suites with
  | nil => rfl
  | cons suite rest ih =>
      rw [List.map_cons, List.mem_cons, not_or] at absent
      have other : (suite.name == testCase.className) = false := by
        simpa using Ne.symm absent.1
      rw [addCase, other, ih absent.2]
      rfl

theorem addCase_map {names : List String} {group : String → List TestCase}
    (distinct : names.Nodup) (member : testCase.className ∈ names) :
    addCase testCase (names.map fun name => ⟨name, group name⟩) =
      names.map fun name =>
        ⟨name, group name ++ if testCase.className = name then [testCase] else []⟩ := by
  induction names with
  | nil => cases member
  | cons name rest ih =>
      obtain ⟨apart, distinct⟩ := List.nodup_cons.mp distinct
      rw [List.map_cons, List.map_cons, addCase]
      by_cases same : name = testCase.className
      · have others : ∀ other ∈ rest, testCase.className ≠ other := by
          intro other listed named
          exact apart (by rwa [same, named])
        have unchanged : rest.map (fun name => (⟨name, group name⟩ : TestSuite)) =
            rest.map fun name =>
              ⟨name, group name ++ if testCase.className = name then [testCase] else []⟩ := by
          refine List.map_congr_left fun other listed => ?_
          rw [if_neg (others other listed), List.append_nil]
        rw [if_pos (by simpa using same), if_pos same.symm, unchanged]
      · have later : testCase.className ∈ rest :=
          (List.mem_cons.mp member).resolve_left (Ne.symm same)
        rw [if_neg (by simpa using same), if_neg (Ne.symm same), List.append_nil, ih distinct later]

theorem addCase_suitesOf (testCase : TestCase) (cases : List TestCase) :
    addCase testCase (suitesOf cases) = suitesOf (cases ++ [testCase]) := by
  have grown : ∀ name, (cases ++ [testCase]).filter (fun other => other.className == name) =
      (cases.filter fun other => other.className == name) ++
        if testCase.className = name then [testCase] else [] := by
    intro name
    rw [List.filter_append, List.filter_singleton]
    simp
  have names : (cases ++ [testCase]).map TestCase.className =
      cases.map TestCase.className ++ [testCase.className] := List.map_append
  rw [suitesOf, suitesOf, names, distinctNames_append_singleton]
  simp only [grown]
  by_cases known : testCase.className ∈ cases.map TestCase.className
  · rw [if_pos known]
    exact addCase_map (nodup_distinctNames _) (mem_distinctNames.mpr known)
  · have unlisted : testCase.className ∉ distinctNames (cases.map TestCase.className) := by
      rwa [mem_distinctNames]
    have noneBefore : (cases.filter fun other => other.className == testCase.className) = [] := by
      refine List.filter_eq_nil_iff.mpr fun other listed same => ?_
      exact known (List.mem_map.mpr ⟨other, listed, by simpa using same⟩)
    have unchanged : ∀ name ∈ distinctNames (cases.map TestCase.className),
        (if testCase.className = name then [testCase] else []) = [] := by
      intro name listed
      rw [if_neg]
      rintro rfl
      exact unlisted listed
    rw [if_neg known, addCase_of_not_mem (by simpa using unlisted), List.map_append,
      List.map_singleton, noneBefore, if_pos rfl, List.nil_append]
    refine congrArg (· ++ _) (List.map_congr_left fun name listed => ?_)
    rw [unchanged name listed, List.append_nil]

theorem perm_flatMap_addCase (testCase : TestCase) (suites : List TestSuite) :
    ((addCase testCase suites).flatMap TestSuite.cases).Perm
      (testCase :: suites.flatMap TestSuite.cases) := by
  induction suites with
  | nil => exact List.Perm.refl _
  | cons suite rest ih =>
      rw [addCase, List.flatMap_cons]
      by_cases own : (suite.name == testCase.className) = true
      · rw [if_pos own, List.flatMap_cons, List.append_assoc]
        exact List.perm_middle
      · rw [if_neg own, List.flatMap_cons]
        exact (ih.append_left suite.cases).trans List.perm_middle

end JunitReporter

theorem perm_suitesOf (cases : List TestCase) :
    ((suitesOf cases).flatMap TestSuite.cases).Perm cases := by
  induction cases using List.reverseRecOn with
  | nil => exact List.Perm.refl _
  | append_singleton earlier last ih =>
      rw [← JunitReporter.addCase_suitesOf]
      exact ((JunitReporter.perm_flatMap_addCase last _).trans (ih.cons last)).trans
        (List.perm_append_singleton last earlier).symm

/-- The cases by class: classes in the order of their first cases, no case lost or twice. -/
structure Groups (cases : List TestCase) (suites : List TestSuite) : Prop where
  names : FirstSeen (cases.map TestCase.className) (suites.map TestSuite.name)
  held : ∀ suite ∈ suites,
    suite.cases = cases.filter fun testCase => testCase.className == suite.name
  perm : (suites.flatMap TestSuite.cases).Perm cases

theorem groups_suitesOf (cases : List TestCase) : Groups cases (suitesOf cases) where
  names := by
    have named : (suitesOf cases).map TestSuite.name =
        distinctNames (cases.map TestCase.className) := by
      rw [suitesOf, List.map_map]
      exact List.map_id _
    rw [named]
    exact firstSeen_distinctNames _
  held := by
    intro suite listed
    obtain ⟨name, _, rfl⟩ := List.mem_map.mp listed
    rfl
  perm := perm_suitesOf cases

def totalOf (count : TestSuite → Nat) (suites : List TestSuite) : Nat :=
  suites.foldl (fun total suite => total + count suite) 0

theorem totalOf_cons (count : TestSuite → Nat) (suite : TestSuite) (rest : List TestSuite) :
    totalOf count (suite :: rest) = count suite + totalOf count rest := by
  have shifted : ∀ start, rest.foldl (fun total suite => total + count suite) start =
      start + totalOf count rest := by
    induction rest with
    | nil => exact fun _ => rfl
    | cons next later ih =>
        intro start
        have here := ih (start + count next)
        have alone := ih (0 + count next)
        rw [totalOf, List.foldl_cons, List.foldl_cons]
        omega
  have first := shifted (0 + count suite)
  rw [totalOf, List.foldl_cons]
  omega

theorem totalOf_addCase (holds : TestCase → Bool) (testCase : TestCase)
    (suites : List TestSuite) :
    totalOf (fun suite => suite.cases.countP holds) (JunitReporter.addCase testCase suites) =
      totalOf (fun suite => suite.cases.countP holds) suites + [testCase].countP holds := by
  induction suites with
  | nil =>
      rw [JunitReporter.addCase, totalOf_cons]
      exact Nat.add_comm _ _
  | cons suite rest ih =>
      rw [JunitReporter.addCase]
      by_cases own : (suite.name == testCase.className) = true
      · rw [if_pos own, totalOf_cons, totalOf_cons, List.countP_append]
        omega
      · rw [if_neg own, totalOf_cons, totalOf_cons, ih]
        omega

theorem totalOf_suitesOf (holds : TestCase → Bool) (cases : List TestCase) :
    totalOf (fun suite => suite.cases.countP holds) (suitesOf cases) = cases.countP holds := by
  induction cases using List.reverseRecOn with
  | nil => rfl
  | append_singleton earlier last ih =>
      rw [← JunitReporter.addCase_suitesOf, totalOf_addCase, ih, List.countP_append]

def TestCase.failed (testCase : TestCase) : Bool :=
  match testCase.status with
  | .failure _ => true
  | .success => false
  | .skipped => false

namespace JunitReport

variable {report : JunitReport} {cases : List TestCase}

theorem tests_of_suitesOf (suites : report.suites = suitesOf cases) :
    report.tests = cases.length := by
  have total := totalOf_suitesOf (fun _ => true) cases
  simp only [List.countP_true] at total
  rw [tests, suites]
  exact total

theorem failures_of_suitesOf (suites : report.suites = suitesOf cases) :
    report.failures = cases.countP TestCase.failed := by
  rw [failures, suites]
  exact totalOf_suitesOf TestCase.failed cases

end JunitReport

end TestDelegation
