import TestDelegation.Proofs.Outcome

/-!
What a set of outcomes is made of and what its views say. Main statement: `ofOutcomes_views`. Lists
that repeat a method are refused at the first repeat, and each view lists the methods of its kind
in the order of the set.
-/

namespace TestDelegation

theorem conflictFrom?_eq_none_iff {outcomes : List MethodOutcome} :
    conflictFrom? [] outcomes = none ↔ (outcomes.map MethodOutcome.method).Nodup := by
  rw [conflictFrom?_eq_map, Option.map_eq_none_iff, firstRepeatFrom?_eq_none_iff (by simp),
    List.nil_append]

theorem conflictFrom?_eq_some_iff {outcomes : List MethodOutcome} {conflict : OutcomeConflict} :
    conflictFrom? [] outcomes = some conflict ↔
      ∃ earlier repeated, FirstRepeat MethodOutcome.method outcomes earlier repeated ∧
        conflict = ⟨repeated.method, earlier.kind, repeated.kind⟩ := by
  rw [conflictFrom?_eq_map, Option.map_eq_some_iff]
  constructor
  · rintro ⟨⟨earlier, repeated⟩, found, rfl⟩
    exact ⟨earlier, repeated, (firstRepeatFrom?_eq_some_iff (by simp)).mp found, rfl⟩
  · rintro ⟨earlier, repeated, first, rfl⟩
    exact ⟨(earlier, repeated), (firstRepeatFrom?_eq_some_iff (by simp)).mpr first, rfl⟩

namespace OutcomeSet

theorem ofOutcomes_eq_ok_iff {outcomes : List MethodOutcome} {set : OutcomeSet} :
    ofOutcomes outcomes = .ok set ↔
      conflictFrom? [] outcomes = none ∧ set.outcomes = outcomes := by
  constructor
  · intro made
    unfold ofOutcomes at made
    split at made
    · cases made
    · rename_i clear
      obtain rfl := Except.ok.inj made
      exact ⟨clear, rfl⟩
  · rintro ⟨_, rfl⟩
    exact ofOutcomes_eq_ok set

theorem exists_ofOutcomes_iff {outcomes : List MethodOutcome} :
    (∃ set, ofOutcomes outcomes = .ok set) ↔ conflictFrom? [] outcomes = none := by
  constructor
  · rintro ⟨set, made⟩
    exact (ofOutcomes_eq_ok_iff.mp made).1
  · intro clear
    exact ⟨⟨outcomes, conflictFrom?_eq_none_iff.mp clear⟩, ofOutcomes_eq_ok_iff.mpr ⟨clear, rfl⟩⟩

theorem ofOutcomes_eq_error_iff {outcomes : List MethodOutcome} {conflict : OutcomeConflict} :
    ofOutcomes outcomes = .error conflict ↔ conflictFrom? [] outcomes = some conflict := by
  unfold ofOutcomes
  split
  · rename_i found
    simp [found]
  · rename_i clear
    simp [clear]

variable {set : OutcomeSet}

def listed (set : OutcomeSet) : OutcomeKind → List String
  | .passed => set.passed
  | .ignored => set.ignored
  | .failed => set.failed.map Prod.fst

theorem listed_eq_ofKind (set : OutcomeSet) (kind : OutcomeKind) :
    set.listed kind = set.ofKind kind := by
  cases kind with
  | passed => rfl
  | ignored => rfl
  | failed => exact set.ofKind_failed.symm

theorem mem_listed_iff {outcome : MethodOutcome} (member : outcome ∈ set.outcomes)
    (kind : OutcomeKind) : outcome.method ∈ set.listed kind ↔ kind = outcome.kind := by
  rw [listed_eq_ofKind, ofKind, List.mem_map]
  constructor
  · rintro ⟨other, selected, same⟩
    obtain ⟨otherMember, ofKind⟩ := List.mem_filter.mp selected
    have unique : other = outcome :=
      List.inj_on_of_nodup_map set.distinct otherMember member same
    rw [← unique]
    exact (beq_iff_eq.mp ofKind).symm
  · rintro rfl
    exact ⟨outcome, List.mem_filter.mpr ⟨member, beq_self_eq_true _⟩, rfl⟩

theorem ofKind_sublist (set : OutcomeSet) {kind : OutcomeKind} {outcome : TestOutcome}
    (only : ∀ other : TestOutcome, other.kind = kind → other = outcome) :
    ((set.ofKind kind).map fun method => ⟨method, outcome⟩).Sublist set.outcomes := by
  have selected : ((set.ofKind kind).map fun method => (⟨method, outcome⟩ : MethodOutcome)) =
      set.outcomes.filter fun current => current.kind == kind := by
    rw [ofKind, List.map_map]
    refine (List.map_congr_left ?_).trans (List.map_id _)
    intro current kept
    have same := only current.outcome (beq_iff_eq.mp (List.mem_filter.mp kept).2)
    rw [Function.comp_apply, ← same, id]
  rw [selected]
  exact List.filter_sublist

theorem failed_sublist (set : OutcomeSet) :
    (set.failed.map fun entry => ⟨entry.1, .failed entry.2⟩).Sublist set.outcomes := by
  rw [failed]
  induction set.outcomes with
  | nil => exact List.Sublist.slnil
  | cons current rest ih =>
      obtain ⟨method, _ | _ | cause⟩ := current
      · exact ih.cons _
      · exact ih.cons _
      · exact ih.cons_cons _

theorem nodup_listed (set : OutcomeSet) :
    (set.passed ++ set.ignored ++ set.failed.map Prod.fst).Nodup := by
  have names := (set.perm_grouped.map MethodOutcome.method).nodup_iff.mpr set.distinct
  simpa [grouped, Function.comp_def] using names

theorem sortedNames_eq_iff {names listed : List String} :
    (sortedEntries (listed.map fun name => (name, ()))).map Prod.fst = names ↔
      names.Pairwise (· < ·) ∧ ∀ name, name ∈ names ↔ name ∈ listed := by
  have inOrder : ((sortedEntries (listed.map fun name => (name, ()))).map Prod.fst).Pairwise
      (· < ·) := List.pairwise_map.mpr (strictlySorted_sortedEntries _)
  have members : ∀ name, name ∈ (sortedEntries (listed.map fun name => (name, ()))).map Prod.fst ↔
      name ∈ listed := by
    intro name
    rw [mem_map_fst_sortedEntries]
    simp
  constructor
  · rintro rfl
    exact ⟨inOrder, members⟩
  · rintro ⟨sorted, same⟩
    have once : ∀ {names : List String}, names.Pairwise (· < ·) → names.Nodup := by
      intro names sorted
      refine sorted.imp ?_
      rintro first second before rfl
      exact String.lt_irrefl _ before
    have reordered := (List.perm_ext_iff_of_nodup (once inOrder) (once sorted)).mpr
      fun name => (members name).trans (same name).symm
    exact reordered.eq_of_pairwise (fun _ _ _ _ before after =>
      absurd after (String.lt_asymm before)) inOrder sorted

theorem mem_partitions_iff {kind : OutcomeKind} {names : List String} :
    (kind, names) ∈ set.partitions ↔
      names ≠ [] ∧ names.Pairwise (· < ·) ∧ ∀ name, name ∈ names ↔ name ∈ set.listed kind := by
  rw [← sortedNames_eq_iff, partitions, List.mem_filterMap]
  constructor
  · rintro ⟨other, _, found⟩
    split at found
    · cases found
    · rename_i filled
      simp only [Option.some.injEq, Prod.mk.injEq] at found
      obtain ⟨rfl, rfl⟩ := found
      rw [listed_eq_ofKind]
      exact ⟨by simpa using filled, rfl⟩
  · rintro ⟨filled, rfl⟩
    refine ⟨kind, by cases kind <;> decide, ?_⟩
    rw [listed_eq_ofKind] at filled ⊢
    split
    · rename_i none_
      simp [none_] at filled
    · rfl

theorem kinds_sublist (set : OutcomeSet) :
    (set.partitions.map Prod.fst).Sublist OutcomeKind.all := by
  rw [partitions]
  induction OutcomeKind.all with
  | nil => exact List.Sublist.slnil
  | cons kind rest ih =>
      rw [List.filterMap_cons]
      split
      · exact ih.cons _
      · rename_i found
        split at found
        · cases found
        · obtain rfl := Option.some.inj found
          exact ih.cons_cons _

/-- What the views of a set say of its methods. -/
structure ViewsAgree (set : OutcomeSet) : Prop where
  passed : (set.passed.map fun method => ⟨method, .passed⟩).Sublist set.outcomes
  ignored : (set.ignored.map fun method => ⟨method, .ignored⟩).Sublist set.outcomes
  failed : (set.failed.map fun entry => ⟨entry.1, .failed entry.2⟩).Sublist set.outcomes
  apart : (set.passed ++ set.ignored ++ set.failed.map Prod.fst).Nodup
  covered : ∀ outcome ∈ set.outcomes, ∀ kind,
    outcome.method ∈ set.listed kind ↔ kind = outcome.kind
  kinds : (set.partitions.map Prod.fst).Nodup
  partitions : ∀ kind names, (kind, names) ∈ set.partitions ↔
    names ≠ [] ∧ names.Pairwise (· < ·) ∧ ∀ name, name ∈ names ↔ name ∈ set.listed kind
  counted : set.totalCount = set.passed.length + set.ignored.length + set.failed.length
  empty : set.isEmpty = true ↔ set.totalCount = 0

theorem viewsAgree (set : OutcomeSet) : set.ViewsAgree where
  passed := set.ofKind_sublist fun
    | .passed, _ => rfl
  ignored := set.ofKind_sublist fun
    | .ignored, _ => rfl
  failed := set.failed_sublist
  apart := set.nodup_listed
  covered := fun _ member => mem_listed_iff member
  kinds := set.kinds_sublist.nodup (by decide)
  partitions := fun _ _ => mem_partitions_iff
  counted := set.totalCount_eq
  empty := by
    rw [isEmpty, totalCount, List.isEmpty_iff, List.length_eq_zero_iff]

/--
A list of outcomes makes a set unless a method repeats one before it, and then the first such
method is named; the set lists the very outcomes, and every set's views agree with it.
-/
theorem ofOutcomes_views (outcomes : List MethodOutcome) :
    ((∃ set, ofOutcomes outcomes = .ok set) ↔ (outcomes.map MethodOutcome.method).Nodup) ∧
    (∀ set, ofOutcomes outcomes = .ok set → set.outcomes = outcomes) ∧
    (∀ conflict, ofOutcomes outcomes = .error conflict ↔
      ∃ earlier repeated, FirstRepeat MethodOutcome.method outcomes earlier repeated ∧
        conflict = ⟨repeated.method, earlier.kind, repeated.kind⟩) ∧
    ∀ set : OutcomeSet, set.ViewsAgree := by
  refine ⟨?_, ?_, ?_, viewsAgree⟩
  · rw [exists_ofOutcomes_iff, conflictFrom?_eq_none_iff]
  · intro set made
    exact (ofOutcomes_eq_ok_iff.mp made).2
  · intro conflict
    rw [ofOutcomes_eq_error_iff, conflictFrom?_eq_some_iff]

end OutcomeSet

end TestDelegation
