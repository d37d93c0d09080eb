import Mathlib.Data.List.Nodup

/-!
The first item of a list that repeats the name of one before it. Main statement:
`firstRepeatFrom?_eq_some_iff`, a scan that remembers what it has seen finds it.
-/

namespace TestDelegation

variable {α : Type} {name : α → String}

/-- Up to the repeated item the names are distinct, and the earlier item is among those. -/
def FirstRepeat (name : α → String) (items : List α) (earlier repeated : α) : Prop :=
  ∃ before after, items = before ++ repeated :: after ∧ (before.map name).Nodup ∧
    earlier ∈ before ∧ name earlier = name repeated

def firstRepeatFrom? (name : α → String) (seen : List α) : List α → Option (α × α)
  | [] => none
  | current :: rest =>
    match seen.find? fun earlier => name earlier == name current with
    | some earlier => some (earlier, current)
    | none => firstRepeatFrom? name (seen ++ [current]) rest

theorem FirstRepeat.not_nodup {items : List α} {earlier repeated : α}
    (first : FirstRepeat name items earlier repeated) : ¬(items.map name).Nodup := by
  obtain ⟨before, after, rfl, _, member, same⟩ := first
  intro distinct
  rw [List.map_append, List.nodup_append] at distinct
  exact distinct.2.2 (name earlier) (List.mem_map_of_mem member) (name repeated) (by simp) same

theorem length_le_of_repeat {before after front rest : List α} {earlier repeated next : α}
    (split : before ++ repeated :: after = front ++ next :: rest)
    (distinct : (front.map name).Nodup) (member : earlier ∈ before)
    (same : name earlier = name repeated) : front.length ≤ before.length := by
  by_contra longer
  have within : before ++ [repeated] <+: front := by
    refine List.prefix_of_prefix_length_le ?_ (List.prefix_append front (next :: rest)) ?_
    · rw [← split]
      exact ⟨after, by simp⟩
    · simp only [List.length_append, List.length_singleton]
      omega
  obtain ⟨more, rfl⟩ := within
  rw [List.map_append, List.nodup_append, List.map_append, List.nodup_append] at distinct
  exact distinct.1.2.2 _ (List.mem_map_of_mem member) _ (by simp) same

theorem FirstRepeat.unique {items : List α} {earlier repeated older newer : α}
    (first : FirstRepeat name items earlier repeated)
    (second : FirstRepeat name items older newer) : earlier = older ∧ repeated = newer := by
  obtain ⟨before, after, rfl, distinct, member, same⟩ := first
  obtain ⟨front, rest, split, frontDistinct, olderMember, olderSame⟩ := second
  have level : before.length = front.length := by
    apply Nat.le_antisymm
    · exact length_le_of_repeat split.symm distinct olderMember olderSame
    · exact length_le_of_repeat split frontDistinct member same
  obtain ⟨rfl, later⟩ := List.append_inj split level
  obtain ⟨rfl, _⟩ := List.cons.inj later
  exact ⟨List.inj_on_of_nodup_map distinct member olderMember (same.trans olderSame.symm), rfl⟩

theorem nodup_append_singleton {seen : List α} {current : α} (apart : (seen.map name).Nodup)
    (fresh : ∀ earlier ∈ seen, name earlier ≠ name current) :
    ((seen ++ [current]).map name).Nodup := by
  rw [List.map_append, List.nodup_append]
  refine ⟨apart, by simp, ?_⟩
  intro known listed other single
  obtain ⟨earlier, member, rfl⟩ := List.mem_map.mp listed
  rw [List.map_singleton, List.mem_singleton] at single
  rw [single]
  exact fresh earlier member

theorem firstRepeatFrom?_eq_some_iff {seen items : List α} {earlier repeated : α}
    (apart : (seen.map name).Nodup) :
    firstRepeatFrom? name seen items = some (earlier, repeated) ↔
      FirstRepeat name (seen ++ items) earlier repeated := by
  induction items generalizing seen with
  | nil =>
      rw [List.append_nil]
      exact iff_of_false nofun fun first => first.not_nodup apart
  | cons current rest ih =>
      rw [firstRepeatFrom?]
      cases found : seen.find? fun earlier => name earlier == name current with
      | some known =>
          have first : FirstRepeat name (seen ++ current :: rest) known current :=
            ⟨seen, rest, rfl, apart, List.mem_of_find?_eq_some found,
              by simpa using List.find?_some found⟩
          simp only [Option.some.injEq, Prod.mk.injEq]
          constructor
          · rintro ⟨rfl, rfl⟩
            exact first
          · exact fun other => first.unique other
      | none =>
          have next := nodup_append_singleton apart (by simpa using found)
          have step := @ih (seen ++ [current]) next
          rwa [List.append_assoc] at step

theorem firstRepeatFrom?_eq_none_iff {seen items : List α} (apart : (seen.map name).Nodup) :
    firstRepeatFrom? name seen items = none ↔ ((seen ++ items).map name).Nodup := by
  induction items generalizing seen with
  | nil =>
      rw [List.append_nil]
      exact iff_of_true rfl apart
  | cons current rest ih =>
      rw [firstRepeatFrom?]
      cases found : seen.find? fun earlier => name earlier == name current with
      | some known =>
          have first : FirstRepeat name (seen ++ current :: rest) known current :=
            ⟨seen, rest, rfl, apart, List.mem_of_find?_eq_some found,
              by simpa using List.find?_some found⟩
          exact iff_of_false nofun first.not_nodup
      | none =>
          have next := nodup_append_singleton apart (by simpa using found)
          have step := @ih (seen ++ [current]) next
          rwa [List.append_assoc] at step

end TestDelegation
