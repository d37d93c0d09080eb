import Mathlib.Data.List.Basic
import TestDelegation.Proofs.Outcome.Views
import TestDelegation.Proofs.Text.ByteOrder

/-!
Sets made of the three partitions of a payload. Main statement: `ofDetail_partitions`. Partitions
that share no name make a set; of several names shared, the first ignored one that also passed is
the conflict, and only where there is none a failed one.
-/

namespace TestDelegation

/-- The names of a list without repeats, in the order of their first places. -/
structure FirstSeen (names listed : List String) : Prop where
  same : ∀ name, name ∈ listed ↔ name ∈ names
  ordered : listed.Pairwise fun first second => names.idxOf first < names.idxOf second

theorem firstSeen_distinctNames (names : List String) :
    FirstSeen names (distinctNames names) := by
  refine ⟨fun name => mem_distinctNames, ?_⟩
  induction names using List.reverseRecOn with
  | nil => exact List.Pairwise.nil
  | append_singleton earlier last ih =>
      have kept : (distinctNames earlier).Pairwise fun first second =>
          (earlier ++ [last]).idxOf first < (earlier ++ [last]).idxOf second := by
        refine ih.imp_of_mem ?_
        intro first second firstListed secondListed before
        rw [List.idxOf_append_of_mem (mem_distinctNames.mp firstListed),
          List.idxOf_append_of_mem (mem_distinctNames.mp secondListed)]
        exact before
      rw [distinctNames_append_singleton]
      by_cases known : last ∈ earlier
      · rw [if_pos known]
        exact kept
      · rw [if_neg known, List.pairwise_append]
        refine ⟨kept, List.pairwise_singleton _ _, ?_⟩
        intro name listed other single
        obtain rfl := List.mem_singleton.mp single
        have found := mem_distinctNames.mp listed
        rw [List.idxOf_append_of_mem found, List.idxOf_append_of_notMem known]
        exact Nat.lt_add_right _ (List.idxOf_lt_length_of_mem found)

theorem findSome?_distinctFrom {α : Type} {find : String → Option α} {seen names : List String}
    (passed : ∀ name ∈ seen, find name = none) :
    (distinctFrom seen names).findSome? find = names.findSome? find := by
  induction names generalizing seen with
  | nil => rfl
  | cons name rest ih =>
      rw [distinctFrom]
      by_cases known : seen.contains name = true
      · rw [if_pos known, ih passed, List.findSome?_cons, passed name (by simpa using known)]
      · rw [if_neg known, List.findSome?_cons, List.findSome?_cons]
        cases found : find name with
        | some result => rfl
        | none => exact ih (List.forall_mem_cons.mpr ⟨found, passed⟩)

theorem findSome?_distinctNames {α : Type} (find : String → Option α) (names : List String) :
    (distinctNames names).findSome? find = names.findSome? find :=
  findSome?_distinctFrom (by simp)

def conflictWith? (seen : List MethodOutcome) (current : MethodOutcome) : Option OutcomeConflict :=
  (seen.find? fun earlier => earlier.method == current.method).map fun earlier =>
    ⟨current.method, earlier.kind, current.kind⟩

theorem conflictFrom?_append (seen front rest : List MethodOutcome) :
    conflictFrom? seen (front ++ rest) =
      (conflictFrom? seen front).or (conflictFrom? (seen ++ front) rest) := by
  induction front generalizing seen with
  | nil => rw [List.nil_append, List.append_nil, conflictFrom?, Option.none_or]
  | cons current later ih =>
      rw [List.cons_append, conflictFrom?, conflictFrom?]
      cases seen.find? fun earlier => earlier.method == current.method with
      | some earlier => rfl
      | none => rw [ih, List.append_assoc, List.singleton_append]

theorem conflictFrom?_of_distinct {seen outcomes : List MethodOutcome}
    (distinct : (outcomes.map MethodOutcome.method).Nodup) :
    conflictFrom? seen outcomes = outcomes.findSome? (conflictWith? seen) := by
  induction outcomes generalizing seen with
  | nil => rfl
  | cons current rest ih =>
      obtain ⟨fresh, restDistinct⟩ := List.nodup_cons.mp distinct
      rw [conflictFrom?, List.findSome?_cons, conflictWith?]
      cases seen.find? fun earlier => earlier.method == current.method with
      | some earlier => rfl
      | none =>
          change conflictFrom? (seen ++ [current]) rest = rest.findSome? (conflictWith? seen)
          rw [ih restDistinct, ← List.head?_filterMap, ← List.head?_filterMap]
          refine congrArg _ (List.filterMap_congr fun other member => ?_)
          have different : current.method ≠ other.method := by
            intro same
            exact fresh (same ▸ List.mem_map_of_mem member)
          rw [conflictWith?, conflictWith?, List.find?_append, List.find?_singleton,
            if_neg (by simpa using different), Option.or_none]

theorem find?_method_map (names : List String) (outcome : TestOutcome) (name : String) :
    ((names.map fun method => (⟨method, outcome⟩ : MethodOutcome)).find? fun earlier =>
      earlier.method == name) = if name ∈ names then some ⟨name, outcome⟩ else none := by
  induction names with
  | nil => rfl
  | cons first rest ih =>
      rw [List.map_cons, List.find?_cons]
      by_cases same : first = name
      · simp [same]
      · have other : (first == name) = false := by simpa using same
        have later : name ∈ first :: rest ↔ name ∈ rest := by simp [Ne.symm same]
        simp only [other, ih, later]

namespace ResultDetail

def unfailedKind? (detail : ResultDetail) (name : String) : Option OutcomeKind :=
  if name ∈ detail.passedMethods then some .passed
  else if name ∈ detail.ignoredMethods then some .ignored
  else none

theorem unfailedKind?_eq_none_iff {detail : ResultDetail} {name : String} :
    detail.unfailedKind? name = none ↔
      name ∉ detail.passedMethods ∧ name ∉ detail.ignoredMethods := by
  rw [unfailedKind?]
  split
  · rename_i passed
    simp [passed]
  · rename_i unpassed
    simp [unpassed]

theorem unfailedKind?_eq_some_iff {detail : ResultDetail} {name : String} {kind : OutcomeKind}
    (apart : detail.ignoredMethods.Disjoint detail.passedMethods) :
    detail.unfailedKind? name = some kind ↔
      kind = .passed ∧ name ∈ detail.passedMethods ∨
      kind = .ignored ∧ name ∈ detail.ignoredMethods := by
  rw [unfailedKind?]
  by_cases passed : name ∈ detail.passedMethods
  · have unignored : name ∉ detail.ignoredMethods := fun ignored => apart ignored passed
    simp [passed, unignored, eq_comm]
  · by_cases ignored : name ∈ detail.ignoredMethods
    · simp [passed, ignored, eq_comm]
    · simp [passed, ignored]

def ignoredConflict? (detail : ResultDetail) : Option OutcomeConflict :=
  detail.ignoredMethods.findSome? fun name =>
    if name ∈ detail.passedMethods then some ⟨name, .passed, .ignored⟩ else none

def failedConflict? (detail : ResultDetail) : Option OutcomeConflict :=
  detail.failedMethods.keys.findSome? fun name =>
    (detail.unfailedKind? name).map fun kind => ⟨name, kind, .failed⟩

theorem conflictFrom?_methodOutcomes (detail : ResultDetail) :
    conflictFrom? [] detail.methodOutcomes =
      detail.ignoredConflict?.or detail.failedConflict? := by
  have distinct : ∀ (names : List String) (outcome : TestOutcome),
      (((distinctNames names).map fun method => (⟨method, outcome⟩ : MethodOutcome)).map
        MethodOutcome.method).Nodup := by
    intro names outcome
    simpa [Function.comp_def] using nodup_distinctNames names
  have failedDistinct : ((detail.failedMethods.entries.map fun entry =>
      (⟨entry.1, .failed entry.2.cause⟩ : MethodOutcome)).map MethodOutcome.method).Nodup := by
    rw [List.map_map]
    exact distinctNames_of_strictlySorted detail.failedMethods.sorted
  have clear := @conflictFrom?_eq_none [] _ (distinct detail.passedMethods .passed)
  rw [methodOutcomes, conflictFrom?_append, conflictFrom?_append, clear, Option.none_or,
    List.nil_append, List.nil_append, conflictFrom?_of_distinct (distinct _ _),
    conflictFrom?_of_distinct failedDistinct, List.findSome?_map, List.findSome?_map,
    findSome?_distinctNames, ignoredConflict?, failedConflict?, SortedMap.keys,
    List.findSome?_map]
  refine congrArg₂ Option.or ?_ ?_
  · refine congrArg (List.findSome? · detail.ignoredMethods) (funext fun name => ?_)
    simp only [Function.comp_apply, conflictWith?, find?_method_map, mem_distinctNames]
    split
    · rfl
    · rfl
  · refine congrArg (List.findSome? · detail.failedMethods.entries) (funext fun entry => ?_)
    simp only [Function.comp_apply, conflictWith?, List.find?_append, find?_method_map,
      mem_distinctNames, unfailedKind?]
    split
    · rfl
    · split
      · rfl
      · rfl

theorem ignoredConflict?_eq_none_iff {detail : ResultDetail} :
    detail.ignoredConflict? = none ↔ detail.ignoredMethods.Disjoint detail.passedMethods := by
  rw [ignoredConflict?, List.findSome?_eq_none_iff, List.disjoint_left]
  simp

theorem failedConflict?_eq_none_iff {detail : ResultDetail} :
    detail.failedConflict? = none ↔
      detail.failedMethods.keys.Disjoint detail.passedMethods ∧
        detail.failedMethods.keys.Disjoint detail.ignoredMethods := by
  simp only [failedConflict?, List.findSome?_eq_none_iff, Option.map_eq_none_iff,
    unfailedKind?_eq_none_iff, List.disjoint_left]
  exact forall₂_and

end ResultDetail

namespace OutcomeConflict

variable {conflict : OutcomeConflict} {detail : ResultDetail}

/-- The first ignored method that also passed. -/
structure IgnoredPassed (conflict : OutcomeConflict) (detail : ResultDetail) : Prop where
  ignored : ∃ before after, detail.ignoredMethods = before ++ conflict.method :: after ∧
    ∀ name ∈ before, name ∉ detail.passedMethods
  passed : conflict.method ∈ detail.passedMethods
  first : conflict.first = .passed
  second : conflict.second = .ignored

/-- The least failed method, by its bytes, that also passed or was ignored. -/
structure FailedToo (conflict : OutcomeConflict) (detail : ResultDetail) : Prop where
  failed : conflict.method ∈ detail.failedMethods.keys
  least : ∀ name ∈ detail.failedMethods.keys,
    name ∈ detail.passedMethods ∨ name ∈ detail.ignoredMethods →
      name = conflict.method ∨ Text.utf8Bytes conflict.method < Text.utf8Bytes name
  first : conflict.first = .passed ∧ conflict.method ∈ detail.passedMethods ∨
    conflict.first = .ignored ∧ conflict.method ∈ detail.ignoredMethods
  second : conflict.second = .failed

theorem ignoredPassed_iff :
    detail.ignoredConflict? = some conflict ↔ conflict.IgnoredPassed detail := by
  rw [ResultDetail.ignoredConflict?, List.findSome?_eq_some_iff]
  constructor
  · rintro ⟨before, name, after, split, found, earlier⟩
    by_cases passed : name ∈ detail.passedMethods
    · rw [if_pos passed] at found
      obtain rfl := Option.some.inj found
      exact ⟨⟨before, after, split, by simpa using earlier⟩, passed, rfl, rfl⟩
    · simp [passed] at found
  · rintro ⟨⟨before, after, split, earlier⟩, passed, first, second⟩
    refine ⟨before, conflict.method, after, split, ?_, ?_⟩
    · rw [if_pos passed, ← first, ← second]
    · intro name member
      exact if_neg (earlier name member)

theorem failedToo_iff (apart : detail.ignoredMethods.Disjoint detail.passedMethods) :
    detail.failedConflict? = some conflict ↔ conflict.FailedToo detail := by
  have inOrder : Text.InByteOrder detail.failedMethods.keys :=
    Text.inByteOrder_of_strictlySorted detail.failedMethods.sorted
  rw [ResultDetail.failedConflict?, List.findSome?_eq_some_iff]
  constructor
  · rintro ⟨before, name, after, split, found, earlier⟩
    obtain ⟨kind, listed, rfl⟩ := Option.map_eq_some_iff.mp found
    simp only [Option.map_eq_none_iff, ResultDetail.unfailedKind?_eq_none_iff] at earlier
    rw [split, Text.InByteOrder, List.pairwise_append, List.pairwise_cons] at inOrder
    refine ⟨by simp [split], ?_, (ResultDetail.unfailedKind?_eq_some_iff apart).mp listed, rfl⟩
    intro other member also
    rw [split, List.mem_append, List.mem_cons] at member
    rcases member with inFront | same | later
    · obtain ⟨unpassed, unignored⟩ := earlier other inFront
      exact (also.elim unpassed unignored).elim
    · exact .inl same
    · exact .inr (inOrder.2.1.1 other later)
  · rintro ⟨failed, least, first, second⟩
    obtain ⟨before, after, split⟩ := List.append_of_mem failed
    have listed := (ResultDetail.unfailedKind?_eq_some_iff apart).mpr first
    refine ⟨before, conflict.method, after, split, ?_, ?_⟩
    · rw [listed, Option.map_some, ← second]
    · intro name member
      rw [Option.map_eq_none_iff, ResultDetail.unfailedKind?_eq_none_iff, ← not_or]
      intro also
      have listedBefore : Text.utf8Bytes name < Text.utf8Bytes conflict.method := by
        rw [split, Text.InByteOrder, List.pairwise_append] at inOrder
        exact inOrder.2.2 name member conflict.method List.mem_cons_self
      rcases least name (by simp [split, member]) also with same | later
      · rw [same] at listedBefore
        exact List.lt_irrefl _ listedBefore
      · exact List.lt_asymm listedBefore later

end OutcomeConflict

namespace OutcomeSet

variable {detail : ResultDetail}

theorem ofDetail_eq_error_iff {conflict : OutcomeConflict} :
    ofDetail detail = .error conflict ↔
      conflict.IgnoredPassed detail ∨
      detail.ignoredMethods.Disjoint detail.passedMethods ∧ conflict.FailedToo detail := by
  rw [ofDetail, ofOutcomes_eq_error_iff, ResultDetail.conflictFrom?_methodOutcomes,
    Option.or_eq_some_iff, OutcomeConflict.ignoredPassed_iff,
    ResultDetail.ignoredConflict?_eq_none_iff]
  exact or_congr_right (and_congr_right OutcomeConflict.failedToo_iff)

/--
A payload makes a set exactly when no name stands in two of its partitions. The set lists the
passed names, the ignored ones and the failed ones with their causes; otherwise the conflict is
the first ignored name that passed, or else the least failed name that passed or was ignored.
-/
theorem ofDetail_partitions (detail : ResultDetail) :
    ((∃ set, ofDetail detail = .ok set) ↔
      detail.ignoredMethods.Disjoint detail.passedMethods ∧
      detail.failedMethods.keys.Disjoint detail.passedMethods ∧
      detail.failedMethods.keys.Disjoint detail.ignoredMethods) ∧
    (∀ set, ofDetail detail = .ok set → ∃ passed ignored,
      FirstSeen detail.passedMethods passed ∧ FirstSeen detail.ignoredMethods ignored ∧
      set.outcomes = passed.map (fun method => ⟨method, .passed⟩) ++
        ignored.map (fun method => ⟨method, .ignored⟩) ++
        detail.failedMethods.entries.map (fun entry => ⟨entry.1, .failed entry.2.cause⟩) ∧
      Text.InByteOrder detail.failedMethods.keys ∧
      (set.outcomes.map MethodOutcome.method).Nodup) ∧
    (∀ conflict, ofDetail detail = .error conflict ↔
      conflict.IgnoredPassed detail ∨
      detail.ignoredMethods.Disjoint detail.passedMethods ∧ conflict.FailedToo detail) ∧
    ∀ conflict, ofDetail detail = .error conflict → conflict.first ≠ conflict.second := by
  refine ⟨?_, ?_, fun conflict => ofDetail_eq_error_iff, ?_⟩
  · rw [← ResultDetail.failedConflict?_eq_none_iff, ← ResultDetail.ignoredConflict?_eq_none_iff,
      ← Option.or_eq_none_iff, ← ResultDetail.conflictFrom?_methodOutcomes]
    exact exists_ofOutcomes_iff
  · intro set made
    exact ⟨distinctNames detail.passedMethods, distinctNames detail.ignoredMethods,
      firstSeen_distinctNames _, firstSeen_distinctNames _, outcomes_of_ofDetail made,
      Text.inByteOrder_of_strictlySorted detail.failedMethods.sorted, set.distinct⟩
  · intro conflict refused
    rcases ofDetail_eq_error_iff.mp refused with ⟨_, _, first, second⟩ | ⟨_, _, _, first, second⟩
    · rw [first, second]
      decide
    · rw [second]
      rcases first with ⟨passed, _⟩ | ⟨ignored, _⟩
      · rw [passed]
        decide
      · rw [ignored]
        decide

end OutcomeSet

end TestDelegation
