import Mathlib.Data.List.Basic
import TestDelegation.Outcome
import TestDelegation.Proofs.Repeats
import TestDelegation.Proofs.SortedMap

/-!
Sets of outcomes as payloads and back. Main statement: `ofDetail_toDetail`. A payload lists the
outcomes of a set by kind, the failed ones by name, and loses none of them.
-/

namespace TestDelegation

theorem conflictFrom?_eq_map (seen outcomes : List MethodOutcome) :
    conflictFrom? seen outcomes =
      (firstRepeatFrom? MethodOutcome.method seen outcomes).map fun (earlier, repeated) =>
        ⟨repeated.method, earlier.kind, repeated.kind⟩ := by
  induction outcomes generalizing seen with
  | nil => rfl
  | cons current rest ih =>
      rw [conflictFrom?, firstRepeatFrom?]
      cases seen.find? fun earlier => earlier.method == current.method with
      | some earlier => rfl
      | none => exact ih (seen ++ [current])

theorem conflictFrom?_eq_none {seen outcomes : List MethodOutcome}
    (distinct : ((seen ++ outcomes).map MethodOutcome.method).Nodup) :
    conflictFrom? seen outcomes = none := by
  have apart : (seen.map MethodOutcome.method).Nodup :=
    distinct.sublist ((List.sublist_append_left seen outcomes).map _)
  rw [conflictFrom?_eq_map, (firstRepeatFrom?_eq_none_iff apart).mpr distinct, Option.map_none]

theorem distinctFrom_eq_self {seen names : List String} (distinct : (seen.reverse ++ names).Nodup) :
    distinctFrom seen names = names := by
  induction names generalizing seen with
  | nil => rfl
  | cons name rest ih =>
      have unseen : seen.contains name = false := by
        rw [List.nodup_append] at distinct
        simpa using fun member => distinct.2.2 name (by simpa using member) name (by simp) rfl
      rw [distinctFrom, unseen, if_neg (by simp), ih (by simpa using distinct)]

theorem distinctNames_eq_self {names : List String} (distinct : names.Nodup) :
    distinctNames names = names :=
  distinctFrom_eq_self distinct

theorem mem_distinctFrom {name : String} {seen names : List String} :
    name ∈ distinctFrom seen names ↔ name ∈ names ∧ name ∉ seen := by
  induction names generalizing seen with
  | nil => simp [distinctFrom]
  | cons first rest ih =>
      rw [distinctFrom]
      by_cases known : seen.contains first = true
      · have inSeen : first ∈ seen := by simpa using known
        rw [if_pos known, ih, List.mem_cons]
        constructor
        · rintro ⟨later, unseen⟩
          exact ⟨.inr later, unseen⟩
        · rintro ⟨rfl | later, unseen⟩
          · exact absurd inSeen unseen
          · exact ⟨later, unseen⟩
      · have fresh : first ∉ seen := by simpa using known
        rw [if_neg known, List.mem_cons, List.mem_cons, ih, List.mem_cons, not_or]
        constructor
        · rintro (rfl | ⟨later, _, unseen⟩)
          · exact ⟨.inl rfl, fresh⟩
          · exact ⟨.inr later, unseen⟩
        · rintro ⟨found, unseen⟩
          by_cases same : name = first
          · exact .inl same
          · exact .inr ⟨found.resolve_left same, same, unseen⟩

theorem mem_distinctNames {name : String} {names : List String} :
    name ∈ distinctNames names ↔ name ∈ names := by
  rw [distinctNames, mem_distinctFrom]
  simp

theorem nodup_distinctFrom (seen names : List String) : (distinctFrom seen names).Nodup := by
  induction names generalizing seen with
  | nil => exact List.nodup_nil
  | cons first rest ih =>
      rw [distinctFrom]
      by_cases known : seen.contains first = true
      · rw [if_pos known]
        exact ih seen
      · rw [if_neg known, List.nodup_cons, mem_distinctFrom]
        refine ⟨?_, ih (first :: seen)⟩
        rintro ⟨_, unseen⟩
        exact unseen List.mem_cons_self

theorem nodup_distinctNames (names : List String) : (distinctNames names).Nodup :=
  nodup_distinctFrom [] names

theorem distinctFrom_append_singleton (seen names : List String) (name : String) :
    distinctFrom seen (names ++ [name]) =
      if name ∈ seen ∨ name ∈ names then distinctFrom seen names
      else distinctFrom seen names ++ [name] := by
  induction names generalizing seen with
  | nil => simp [distinctFrom]
  | cons first rest ih =>
      rw [List.cons_append, distinctFrom, distinctFrom, ih, ih]
      by_cases known : first ∈ seen
      · have same : name ∈ seen ∨ name ∈ first :: rest ↔ name ∈ seen ∨ name ∈ rest := by
          grind
        simp only [known, List.contains_eq_mem, decide_true, if_true, same]
      · have same : name ∈ first :: seen ∨ name ∈ rest ↔ name ∈ seen ∨ name ∈ first :: rest := by
          grind
        simp only [known, List.contains_eq_mem, decide_false, Bool.false_eq_true, if_false, same]
        by_cases found : name ∈ seen ∨ name ∈ first :: rest
        · rw [if_pos found, if_pos found]
        · rw [if_neg found, if_neg found, List.cons_append]

theorem distinctNames_append_singleton (names : List String) (name : String) :
    distinctNames (names ++ [name]) =
      if name ∈ names then distinctNames names else distinctNames names ++ [name] := by
  rw [distinctNames, distinctFrom_append_singleton]
  simp [distinctNames]

namespace OutcomeSet

theorem ofOutcomes_eq_ok (set : OutcomeSet) : ofOutcomes set.outcomes = .ok set := by
  have clear : conflictFrom? [] set.outcomes = none := conflictFrom?_eq_none set.distinct
  unfold ofOutcomes
  split
  · rename_i found
    simp [clear] at found
  · rfl

def grouped (set : OutcomeSet) (failed : List (String × FailureCause)) : List MethodOutcome :=
  set.passed.map (fun method => ⟨method, .passed⟩) ++
  set.ignored.map (fun method => ⟨method, .ignored⟩) ++
  failed.map fun entry => ⟨entry.1, .failed entry.2⟩

theorem perm_grouped (set : OutcomeSet) : (set.grouped set.failed).Perm set.outcomes := by
  obtain ⟨outcomes, distinct⟩ := set
  induction outcomes with
  | nil => exact List.Perm.refl _
  | cons current rest ih =>
      have later := ih (List.nodup_cons.mp distinct).2
      obtain ⟨method, _ | _ | cause⟩ := current
      · exact later.cons _
      · exact (List.perm_middle.append_right _).trans (later.cons _)
      · exact List.perm_middle.trans (later.cons _)

theorem totalCount_eq (set : OutcomeSet) :
    set.totalCount = set.passed.length + set.ignored.length + set.failed.length := by
  have lengths := set.perm_grouped.length_eq
  simp only [grouped, List.length_append, List.length_map] at lengths
  exact lengths.symm

theorem length_ofKind (set : OutcomeSet) (kind : OutcomeKind) :
    (set.ofKind kind).length = set.outcomes.countP fun outcome => outcome.kind == kind := by
  rw [ofKind, List.length_map, List.countP_eq_length_filter]

theorem ofKind_failed (set : OutcomeSet) : set.ofKind .failed = set.failed.map Prod.fst := by
  rw [ofKind, failed]
  induction set.outcomes with
  | nil => rfl
  | cons current rest ih =>
      obtain ⟨method, _ | _ | cause⟩ := current
      · exact ih
      · exact ih
      · exact congrArg _ ih

theorem length_failed (set : OutcomeSet) :
    set.failed.length = set.outcomes.countP fun outcome => outcome.kind == .failed := by
  rw [failed, List.length_filterMap_eq_countP]
  apply List.countP_congr
  rintro ⟨method, _ | _ | cause⟩ _
  · exact Iff.rfl
  · exact Iff.rfl
  · exact Iff.rfl

variable {set : OutcomeSet}

theorem distinctNames_failed (set : OutcomeSet) : DistinctNames set.failed := by
  have distinct := ((perm_grouped set).map MethodOutcome.method).nodup_iff.mpr set.distinct
  rw [grouped, List.map_append, List.map_map] at distinct
  exact (List.nodup_append.mp distinct).2.1

theorem nodup_ofKind (set : OutcomeSet) (kind : OutcomeKind) : (set.ofKind kind).Nodup :=
  set.distinct.sublist (List.filter_sublist.map MethodOutcome.method)

def regrouped (set : OutcomeSet) : OutcomeSet where
  outcomes := set.grouped (sortedEntries set.failed)
  distinct := by
    have failed := (perm_sortedEntries set.distinctNames_failed).map
      fun entry => (⟨entry.1, .failed entry.2⟩ : MethodOutcome)
    have same := (failed.append_left _).trans set.perm_grouped
    exact (same.map MethodOutcome.method).nodup_iff.mpr set.distinct

theorem perm_regrouped (set : OutcomeSet) : set.regrouped.outcomes.Perm set.outcomes :=
  (((perm_sortedEntries set.distinctNames_failed).map _).append_left _).trans set.perm_grouped

theorem partitions_eq_of_perm {first second : OutcomeSet}
    (same : first.outcomes.Perm second.outcomes) : first.partitions = second.partitions := by
  have entries : ∀ kind, sortedEntries ((first.ofKind kind).map fun method => (method, ())) =
      sortedEntries ((second.ofKind kind).map fun method => (method, ())) := by
    intro kind
    refine sortedEntries_congr (((same.filter _).map _).map _) ?_
    simpa [DistinctNames, Function.comp_def] using second.nodup_ofKind kind
  simp only [partitions, entries]

theorem methodOutcomes_toDetail (set : OutcomeSet) (classname : Option String) :
    (set.toDetail classname).methodOutcomes = set.regrouped.outcomes := by
  have failed := (SortedMap.entries_foldl_insert
    (fun cause => (⟨none, cause⟩ : RemoteFailure)) set.failed).trans
    (sortedEntries_map _ set.distinctNames_failed)
  simp only [ResultDetail.methodOutcomes, toDetail, failed, List.map_map,
    distinctNames_eq_self (set.nodup_ofKind _), passed, ignored, regrouped, grouped]
  rfl

theorem ofDetail_toDetail (set : OutcomeSet) (classname : Option String) :
    ofDetail (set.toDetail classname) = .ok set.regrouped := by
  rw [ofDetail, methodOutcomes_toDetail, ofOutcomes_eq_ok]

theorem ext {first second : OutcomeSet} (same : first.outcomes = second.outcomes) :
    first = second := by
  cases first
  cases second
  simpa using same

variable {detail : ResultDetail}

theorem outcomes_of_ofDetail (made : ofDetail detail = .ok set) :
    set.outcomes = detail.methodOutcomes := by
  unfold ofDetail ofOutcomes at made
  split at made
  · cases made
  · exact (congrArg outcomes (Except.ok.inj made)).symm

theorem passed_of_ofDetail (made : ofDetail detail = .ok set) :
    set.passed = distinctNames detail.passedMethods := by
  rw [passed, ofKind, outcomes_of_ofDetail made, ResultDetail.methodOutcomes]
  simp [List.filter_map, Function.comp_def, MethodOutcome.kind, TestOutcome.kind, beq_eq_decide]

theorem ignored_of_ofDetail (made : ofDetail detail = .ok set) :
    set.ignored = distinctNames detail.ignoredMethods := by
  rw [ignored, ofKind, outcomes_of_ofDetail made, ResultDetail.methodOutcomes]
  simp [List.filter_map, Function.comp_def, MethodOutcome.kind, TestOutcome.kind, beq_eq_decide]

theorem failed_of_ofDetail (made : ofDetail detail = .ok set) :
    set.failed = detail.failedMethods.entries.map fun entry => (entry.1, entry.2.cause) := by
  have unfailed : ∀ names : List String,
      (names.filterMap fun _ => (none : Option (String × FailureCause))) = [] :=
    fun names => List.filterMap_eq_nil_iff.mpr fun _ _ => rfl
  rw [failed, outcomes_of_ofDetail made, ResultDetail.methodOutcomes]
  simp [List.filterMap_map, unfailed]

theorem regrouped_of_ofDetail (made : ofDetail detail = .ok set) : set.regrouped = set := by
  have inOrder : StrictlySorted set.failed := by
    rw [failed_of_ofDetail made]
    exact strictlySorted_map RemoteFailure.cause detail.failedMethods.sorted
  have sorted : sortedEntries set.failed = set.failed :=
    sortedEntries_eq_of_perm (List.Perm.refl _) inOrder
  have same : set.grouped (sortedEntries set.failed) = set.outcomes := by
    rw [grouped, sorted, passed_of_ofDetail made, ignored_of_ofDetail made,
      failed_of_ofDetail made, outcomes_of_ofDetail made, ResultDetail.methodOutcomes,
      List.map_map]
    rfl
  exact OutcomeSet.ext same

end OutcomeSet

end TestDelegation
