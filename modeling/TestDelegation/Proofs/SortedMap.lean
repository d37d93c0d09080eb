import Mathlib.Data.List.Induction
import TestDelegation.SortedMap

/-!
Sorting entries by name: with distinct names nothing is lost, and the order of the entries plays
no part.
-/

namespace TestDelegation

variable {α β : Type}

def DistinctNames (entries : List (String × α)) : Prop :=
  (entries.map Prod.fst).Nodup

theorem distinctNames_of_perm {first second : List (String × α)} (same : first.Perm second)
    (distinct : DistinctNames second) : DistinctNames first :=
  (same.map Prod.fst).nodup_iff.mpr distinct

theorem distinctNames_of_strictlySorted {entries : List (String × α)}
    (sorted : StrictlySorted entries) : DistinctNames entries := by
  refine List.pairwise_map.mpr (sorted.imp ?_)
  intro first second before same
  exact String.lt_irrefl _ (same ▸ before)

theorem strictlySorted_sortedEntries (entries : List (String × α)) :
    StrictlySorted (sortedEntries entries) := by
  have general : ∀ sorted : List (String × α), StrictlySorted sorted →
      StrictlySorted (entries.foldl (fun sorted entry => insertSorted entry.1 entry.2 sorted)
        sorted) := by
    induction entries with
    | nil => exact fun _ sorted => sorted
    | cons entry rest ih => exact fun _ sorted => ih _ (strictlySorted_insertSorted sorted)
  exact general [] List.Pairwise.nil

theorem perm_insertSorted {key : String} {value : α} {entries : List (String × α)}
    (absent : key ∉ entries.map Prod.fst) :
    (insertSorted key value entries).Perm ((key, value) :: entries) := by
  induction entries with
  | nil => exact List.Perm.refl _
  | cons head rest ih =>
      simp only [List.map_cons, List.mem_cons, not_or] at absent
      simp only [insertSorted]
      split
      · exact List.Perm.refl _
      · split
        · exact ((ih absent.2).cons head).trans (List.Perm.swap _ _ _)
        · rename_i notBefore notAfter
          exact absurd (String.le_antisymm (String.not_lt.mp notAfter)
            (String.not_lt.mp notBefore)) absent.1

theorem perm_sortedEntries {entries : List (String × α)} (distinct : DistinctNames entries) :
    (sortedEntries entries).Perm entries := by
  have general : ∀ sorted : List (String × α), DistinctNames (entries ++ sorted) →
      (entries.foldl (fun sorted entry => insertSorted entry.1 entry.2 sorted) sorted).Perm
        (entries ++ sorted) := by
    clear distinct
    induction entries with
    | nil => exact fun sorted _ => List.Perm.refl sorted
    | cons entry rest ih =>
        intro sorted distinct
        have absent : entry.1 ∉ sorted.map Prod.fst := by
          simp only [DistinctNames, List.cons_append, List.map_cons, List.map_append,
            List.nodup_cons, List.mem_append, not_or] at distinct
          exact distinct.1.2
        have inserted : (rest ++ insertSorted entry.1 entry.2 sorted).Perm
            (entry :: rest ++ sorted) :=
          ((perm_insertSorted absent).append_left rest).trans List.perm_middle
        exact (ih _ (distinctNames_of_perm inserted distinct)).trans inserted
  have whole := general [] (by simpa using distinct)
  rwa [List.append_nil] at whole

theorem eq_of_perm_of_strictlySorted {first second : List (String × α)}
    (same : first.Perm second) (firstSorted : StrictlySorted first)
    (secondSorted : StrictlySorted second) : first = second :=
  same.eq_of_pairwise (fun _ _ _ _ before after => absurd after (String.lt_asymm before))
    firstSorted secondSorted

theorem sortedEntries_eq_of_perm {entries sorted : List (String × α)}
    (same : entries.Perm sorted) (inOrder : StrictlySorted sorted) :
    sortedEntries entries = sorted :=
  eq_of_perm_of_strictlySorted
    ((perm_sortedEntries (distinctNames_of_perm same (distinctNames_of_strictlySorted inOrder))).trans
      same)
    (strictlySorted_sortedEntries entries) inOrder

theorem sortedEntries_congr {first second : List (String × α)} (same : first.Perm second)
    (distinct : DistinctNames second) : sortedEntries first = sortedEntries second :=
  sortedEntries_eq_of_perm (same.trans (perm_sortedEntries distinct).symm)
    (strictlySorted_sortedEntries second)

theorem strictlySorted_map {entries : List (String × α)} (change : α → β)
    (sorted : StrictlySorted entries) :
    StrictlySorted (entries.map fun entry => (entry.1, change entry.2)) := by
  rw [StrictlySorted, List.pairwise_map]
  exact sorted

theorem sortedEntries_map {entries : List (String × α)} (change : α → β)
    (distinct : DistinctNames entries) :
    sortedEntries (entries.map fun entry => (entry.1, change entry.2)) =
      (sortedEntries entries).map fun entry => (entry.1, change entry.2) :=
  sortedEntries_eq_of_perm ((perm_sortedEntries distinct).symm.map _)
    (strictlySorted_map change (strictlySorted_sortedEntries entries))

def valuesOf (name : String) (entries : List (String × α)) : List α :=
  (entries.filter fun entry => entry.1 == name).map Prod.snd

theorem mem_valuesOf {name : String} {value : α} {entries : List (String × α)} :
    value ∈ valuesOf name entries ↔ (name, value) ∈ entries := by
  simp [valuesOf]

theorem valuesOf_eq_nil {name : String} {entries : List (String × α)}
    (later : ∀ entry ∈ entries, name < entry.1) : valuesOf name entries = [] := by
  have none_named : (entries.filter fun entry => entry.1 == name) = [] := by
    refine List.filter_eq_nil_iff.mpr ?_
    intro entry member named
    have after := later entry member
    rw [beq_iff_eq.mp named] at after
    exact String.lt_irrefl _ after
  rw [valuesOf, none_named, List.map_nil]

theorem valuesOf_cons (name : String) (entry : String × α) (rest : List (String × α)) :
    valuesOf name (entry :: rest) =
      if entry.1 = name then entry.2 :: valuesOf name rest else valuesOf name rest := by
  by_cases named : entry.1 = name
  · simp [valuesOf, named]
  · simp [valuesOf, named]

theorem valuesOf_map (name : String) (change : String → α → β) (entries : List (String × α)) :
    valuesOf name (entries.map fun entry => (entry.1, change entry.1 entry.2)) =
      (valuesOf name entries).map (change name) := by
  induction entries with
  | nil => rfl
  | cons entry rest ih =>
      rw [List.map_cons, valuesOf_cons, valuesOf_cons, ih]
      by_cases named : entry.1 = name
      · simp [named]
      · simp [named]

theorem valuesOf_filter {name : String} (keep : String → Bool) (kept : keep name = true)
    (entries : List (String × α)) :
    valuesOf name (entries.filter fun entry => keep entry.1) = valuesOf name entries := by
  rw [valuesOf, List.filter_filter, valuesOf]
  refine congrArg _ (List.filter_congr ?_)
  intro entry _
  by_cases named : entry.1 = name
  · simp [named, kept]
  · simp [named]

theorem valuesOf_insertSorted {name key : String} {value : α} {entries : List (String × α)}
    (sorted : StrictlySorted entries) :
    valuesOf name (insertSorted key value entries) =
      if key = name then [value] else valuesOf name entries := by
  induction entries with
  | nil => rw [insertSorted, valuesOf_cons, valuesOf, List.filter_nil, List.map_nil]
  | cons head rest ih =>
      obtain ⟨headFirst, restSorted⟩ := List.pairwise_cons.mp sorted
      simp only [insertSorted]
      split
      · rename_i before
        by_cases same : key = name
        · subst same
          have later : valuesOf key (head :: rest) = [] := by
            apply valuesOf_eq_nil
            intro entry member
            rcases List.mem_cons.mp member with rfl | inRest
            · exact before
            · exact String.lt_trans before (headFirst entry inRest)
          rw [valuesOf_cons, if_pos rfl, if_pos rfl, later]
        · rw [valuesOf_cons, if_neg same, if_neg same]
      · split
        · rename_i after
          rw [valuesOf_cons, valuesOf_cons, ih restSorted]
          by_cases same : key = name
          · have other : head.1 ≠ name := by
              intro named
              rw [named, same] at after
              exact String.lt_irrefl _ after
            rw [if_neg other, if_pos same, if_pos same]
          · rw [if_neg same, if_neg same]
        · rename_i notBefore notAfter
          have replaced : key = head.1 :=
            String.le_antisymm (String.not_lt.mp notAfter) (String.not_lt.mp notBefore)
          rw [valuesOf_cons, valuesOf_cons, ← replaced]
          by_cases same : key = name
          · have later : valuesOf name rest = [] := by
              apply valuesOf_eq_nil
              intro entry member
              rw [← same, replaced]
              exact headFirst entry member
            rw [if_pos same, if_pos same, later]
          · rw [if_neg same, if_neg same, if_neg same]

theorem valuesOf_sortedEntries (name : String) (entries : List (String × α)) :
    valuesOf name (sortedEntries entries) = (valuesOf name entries).getLast?.toList := by
  induction entries using List.reverseRecOn with
  | nil => rfl
  | append_singleton earlier last ih =>
      have inserted : sortedEntries (earlier ++ [last]) =
          insertSorted last.1 last.2 (sortedEntries earlier) := by
        rw [sortedEntries, List.foldl_append]
        rfl
      have appended : valuesOf name (earlier ++ [last]) =
          valuesOf name earlier ++ valuesOf name [last] := by
        rw [valuesOf, List.filter_append, List.map_append]
        rfl
      rw [inserted, valuesOf_insertSorted (strictlySorted_sortedEntries earlier), appended,
        valuesOf_cons, ih]
      by_cases named : last.1 = name
      · simp [named, valuesOf]
      · simp [named, valuesOf]

theorem mem_sortedEntries {entry : String × α} {entries : List (String × α)}
    (member : entry ∈ sortedEntries entries) : entry ∈ entries := by
  rw [← mem_valuesOf, valuesOf_sortedEntries, Option.mem_toList] at member
  exact mem_valuesOf.mp (List.mem_of_getLast? member)

theorem mem_map_fst_iff {name : String} {entries : List (String × α)} :
    name ∈ entries.map Prod.fst ↔ ∃ value, value ∈ valuesOf name entries := by
  simp [mem_valuesOf]

theorem mem_map_fst_sortedEntries {name : String} {entries : List (String × α)} :
    name ∈ (sortedEntries entries).map Prod.fst ↔ name ∈ entries.map Prod.fst := by
  rw [mem_map_fst_iff, mem_map_fst_iff, valuesOf_sortedEntries]
  cases valuesOf name entries with
  | nil => simp
  | cons first rest => simp [List.getLast?_cons]

namespace SortedMap

def map (change : α → β) (map : SortedMap α) : SortedMap β :=
  ⟨map.entries.map fun entry => (entry.1, change entry.2), strictlySorted_map change map.sorted⟩

theorem entries_foldl_insert (change : α → β) (entries : List (String × α)) :
    (entries.foldl (fun map entry => map.insert entry.1 (change entry.2)) empty).entries =
      sortedEntries (entries.map fun entry => (entry.1, change entry.2)) := by
  have general : ∀ map : SortedMap β,
      (entries.foldl (fun map entry => map.insert entry.1 (change entry.2)) map).entries =
        (entries.map fun entry => (entry.1, change entry.2)).foldl
          (fun sorted entry => insertSorted entry.1 entry.2 sorted) map.entries := by
    induction entries with
    | nil => exact fun _ => rfl
    | cons entry rest ih => exact fun map => ih (map.insert entry.1 (change entry.2))
  exact general empty

theorem ext {first second : SortedMap α} (same : first.entries = second.entries) :
    first = second := by
  cases first
  cases second
  simpa using same

theorem eq_of_perm {first second : SortedMap α} (same : first.entries.Perm second.entries) :
    first = second :=
  ext (eq_of_perm_of_strictlySorted same first.sorted second.sorted)

theorem contains_eq_true_iff {map : SortedMap α} {key : String} :
    map.contains key = true ↔ key ∈ map.entries.map Prod.fst := by
  simp [contains]

theorem contains_insert_iff {map : SortedMap α} {key other : String} {value : α} :
    (map.insert key value).contains other = true ↔ other = key ∨ map.contains other = true := by
  rw [contains_eq_true_iff, contains_eq_true_iff, mem_map_fst_iff, mem_map_fst_iff, insert,
    valuesOf_insertSorted map.sorted]
  by_cases same : key = other
  · simp [same]
  · simp [same, Ne.symm same]

theorem perm_insert {map : SortedMap α} {key : String} (absent : map.contains key = false)
    (value : α) : (map.insert key value).entries.Perm ((key, value) :: map.entries) := by
  refine perm_insertSorted ?_
  rw [← contains_eq_true_iff, absent]
  simp

end SortedMap

end TestDelegation
