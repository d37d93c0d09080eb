import TestDelegation.Proofs.SortedMap
import TestDelegation.Toml.Parser

/-!
The root table of a TOML document lists each key once. Main statement: `distinct_parse?`.
-/

namespace TestDelegation.Toml

namespace Entries

variable {entries changed : Entries} {key : String} {value found : Value}

theorem map_fst_set (there : entries.find? key = some found) (value : Value) :
    (entries.set key value).map Prod.fst = entries.map Prod.fst := by
  induction entries with
  | nil => simp [find?] at there
  | cons entry rest ih =>
      rw [set]
      by_cases same : entry.1 = key
      · simp [same]
      · have other : (key == entry.1) = false := by simpa using Ne.symm same
        rw [find?, List.lookup_cons, other] at there
        simp [same, ih there]

theorem distinct_set (distinct : DistinctNames entries) (there : entries.find? key = some found)
    (value : Value) : DistinctNames (entries.set key value) := by
  rw [DistinctNames, map_fst_set there]
  exact distinct

theorem distinct_add (distinct : DistinctNames entries) (missing : entries.find? key = none)
    (value : Value) : DistinctNames (entries ++ [(key, value)]) := by
  have absent : key ∉ entries.map Prod.fst := by
    rw [find?, List.lookup_eq_none_iff] at missing
    intro listed
    obtain ⟨entry, member, rfl⟩ := List.mem_map.mp listed
    simpa using missing entry member
  exact distinctNames_of_perm (List.perm_append_singleton (key, value) entries)
    (List.nodup_cons.mpr ⟨absent, distinct⟩)

theorem distinct_insertDotted {path : List String} (distinct : DistinctNames entries)
    (inserted : entries.insertDotted path value = some changed) : DistinctNames changed := by
  unfold insertDotted at inserted
  split at inserted
  · exact absurd inserted nofun
  · split at inserted
    · exact absurd inserted nofun
    · rename_i missing
      obtain rfl := Option.some.inj inserted
      exact distinct_add distinct missing value
  · split at inserted
    · rename_i missing
      obtain ⟨inner, _, rfl⟩ := Option.map_eq_some_iff.mp inserted
      exact distinct_add distinct missing _
    · rename_i there
      obtain ⟨inner, _, rfl⟩ := Option.map_eq_some_iff.mp inserted
      exact distinct_set distinct there _
    · rename_i there
      split at inserted
      · exact absurd inserted nofun
      · obtain ⟨inner, _, rfl⟩ := Option.map_eq_some_iff.mp inserted
        exact distinct_set distinct there _
    · exact absurd inserted nofun

theorem distinct_modifyAt {change : Entries → Option Entries} {path : List String}
    (keeps : ∀ {before after}, DistinctNames before → change before = some after →
      DistinctNames after)
    (distinct : DistinctNames entries) (modified : modifyAt change path entries = some changed) :
    DistinctNames changed := by
  unfold modifyAt at modified
  split at modified
  · exact keeps distinct modified
  · split at modified
    · rename_i missing
      obtain ⟨inner, _, rfl⟩ := Option.map_eq_some_iff.mp modified
      exact distinct_add distinct missing _
    · exact absurd modified nofun
    · rename_i there
      obtain ⟨inner, _, rfl⟩ := Option.map_eq_some_iff.mp modified
      exact distinct_set distinct there _
    · rename_i there
      split at modified
      · exact absurd modified nofun
      · obtain ⟨last, _, rfl⟩ := Option.map_eq_some_iff.mp modified
        exact distinct_set distinct there _
    · exact absurd modified nofun

theorem distinct_openTable (distinct : DistinctNames entries)
    (opened : openTable key entries = some changed) : DistinctNames changed := by
  unfold openTable at opened
  split at opened
  · rename_i missing
    obtain rfl := Option.some.inj opened
    exact distinct_add distinct missing _
  · rename_i there
    obtain rfl := Option.some.inj opened
    exact distinct_set distinct there _
  · exact absurd opened nofun

theorem distinct_appendTable (distinct : DistinctNames entries)
    (appended : appendTable key entries = some changed) : DistinctNames changed := by
  unfold appendTable at appended
  split at appended
  · rename_i missing
    obtain rfl := Option.some.inj appended
    exact distinct_add distinct missing _
  · rename_i there
    obtain rfl := Option.some.inj appended
    exact distinct_set distinct there _
  · exact absurd appended nofun

end Entries

variable {position next : Position} {chars rest : List Char}

theorem distinct_openHeader {path : List String} {openLast : String → Entries → Option Entries}
    (keeps : ∀ {key before after}, DistinctNames before → openLast key before = some after →
      DistinctNames after)
    (distinct : DistinctNames position.root)
    (opened : position.openHeader path openLast = some next) : DistinctNames next.root := by
  simp only [Position.openHeader, Option.bind_eq_bind, Option.bind_eq_some_iff] at opened
  obtain ⟨last, _, root, modified, same⟩ := opened
  obtain rfl := Option.some.inj same
  exact Entries.distinct_modifyAt keeps distinct modified

theorem distinct_takeExpression {fuel : Nat} (distinct : DistinctNames position.root)
    (taken : takeExpression fuel position chars = some (next, rest)) :
    DistinctNames next.root := by
  unfold takeExpression at taken
  split at taken
  · simp only [Option.bind_eq_bind, Option.bind_eq_some_iff] at taken
    obtain ⟨_, _, _, _, _, _, _, opened, same⟩ := taken
    cases same
    exact distinct_openHeader Entries.distinct_appendTable distinct opened
  · simp only [Option.bind_eq_bind, Option.bind_eq_some_iff] at taken
    obtain ⟨_, _, _, _, _, opened, same⟩ := taken
    cases same
    exact distinct_openHeader Entries.distinct_openTable distinct opened
  · simp only [Option.bind_eq_bind, Option.bind_eq_some_iff] at taken
    obtain ⟨_, _, _, _, _, _, _, inserted, same⟩ := taken
    cases same
    simp only [Position.insert, Option.bind_eq_bind, Option.bind_eq_some_iff] at inserted
    obtain ⟨root, modified, same⟩ := inserted
    cases same
    exact Entries.distinct_modifyAt Entries.distinct_insertDotted distinct modified

theorem distinct_parseFrom {fuel : Nat} (distinct : DistinctNames position.root)
    (parsed : parseFrom fuel position chars = some next) : DistinctNames next.root := by
  induction fuel generalizing position chars with
  | zero => exact absurd parsed nofun
  | succ fuel ih =>
      rw [parseFrom, Option.bind_eq_bind, Option.bind_eq_some_iff] at parsed
      obtain ⟨first, _, parsed⟩ := parsed
      split at parsed
      · obtain rfl := Option.some.inj parsed
        exact distinct
      · simp only [Option.bind_eq_bind, Option.bind_eq_some_iff] at parsed
        obtain ⟨⟨further, _⟩, taken, _, _, parsed⟩ := parsed
        exact ih (distinct_takeExpression distinct taken) parsed

theorem distinct_parse? {text : String} {entries : Entries}
    (parsed : parse? text = some entries) : DistinctNames entries := by
  have start : DistinctNames (Position.mk [] []).root := List.nodup_nil
  obtain ⟨position, read, rfl⟩ := Option.map_eq_some_iff.mp parsed
  exact distinct_parseFrom start read

end TestDelegation.Toml
