import TestDelegation.Proofs.Codec.Pruning

/-!
How a value that a codec has sorted and walked differs from the value in the text. Main statement:
`alike_kept_sorted`. Arrays and scalars stand as they were; objects lose the fields that the codec
drops and list the others in any order.
-/

namespace TestDelegation

namespace Codec

inductive Alike (codec : Codec) : Bool → Json → Json → Prop
  | null {keysAreFields : Bool} : Alike codec keysAreFields .null .null
  | bool {keysAreFields : Bool} (value : Bool) :
      Alike codec keysAreFields (.bool value) (.bool value)
  | number {keysAreFields : Bool} (value : Numeral) :
      Alike codec keysAreFields (.number value) (.number value)
  | string {keysAreFields : Bool} (value : String) :
      Alike codec keysAreFields (.string value) (.string value)
  | array {keysAreFields : Bool} {items : List Json} (image : Json → Json) :
      (∀ item ∈ items, Alike codec true item (image item)) →
      Alike codec keysAreFields (.array items) (.array (items.map image))
  | object {keysAreFields : Bool} {members others : List (String × Json)}
      (image : String × Json → Json) :
      (∀ member ∈ members, codec.drops keysAreFields member.1 = false →
        Alike codec (fieldsBelow keysAreFields member.1) member.2 (image member)) →
      others.Perm ((members.filter fun member => !codec.drops keysAreFields member.1).map
        fun member => (member.1, image member)) →
      Alike codec keysAreFields (.object members) (.object others)

variable {codec : Codec} {keysAreFields : Bool}

theorem alike_kept_sorted {value : Json} (distinct : value.DistinctKeys) :
    Alike codec keysAreFields value (codec.kept keysAreFields value.sorted) := by
  induction distinct generalizing keysAreFields with
  | null => exact .null
  | bool value => exact .bool value
  | number value => exact .number value
  | string value => exact .string value
  | array _ ih =>
      rw [Json.sorted, Json.sortedItems_eq_map, kept, keptItems_eq_map, List.map_map]
      exact .array _ fun item found => ih item found
  | object apart _ ih =>
      rename_i members _
      rw [Json.sorted, Json.sortedMembers_eq_map, kept, keptMembers_eq]
      refine .object
        (fun member => codec.kept (fieldsBelow keysAreFields member.1) member.2.sorted)
        (fun member found _ => ih member found) ?_
      have distinct : DistinctNames (members.map fun member => (member.1, member.2.sorted)) := by
        simpa [DistinctNames, Function.comp_def] using apart
      have reordered := ((perm_sortedEntries distinct).filter fun member =>
        !codec.drops keysAreFields member.1).map fun member =>
          (member.1, codec.kept (fieldsBelow keysAreFields member.1) member.2)
      rwa [List.filter_map, List.map_map] at reordered

theorem lacks_sorted_iff {missing : MissingAdapter} {value : Json}
    (distinct : value.DistinctKeys) :
    Lacks codec missing keysAreFields value.sorted ↔ Lacks codec missing keysAreFields value := by
  induction distinct generalizing keysAreFields with
  | array _ ih =>
      rw [Json.sorted, Json.sortedItems_eq_map, lacks_array_iff, lacks_array_iff]
      constructor
      · rintro ⟨_, mapped, lacks⟩
        obtain ⟨item, found, rfl⟩ := List.mem_map.mp mapped
        exact ⟨item, found, (ih item found).mp lacks⟩
      · rintro ⟨item, found, lacks⟩
        exact ⟨_, List.mem_map_of_mem found, (ih item found).mpr lacks⟩
  | object apart _ ih =>
      rename_i members _
      have distinct : DistinctNames (members.map fun member => (member.1, member.2.sorted)) := by
        simpa [DistinctNames, Function.comp_def] using apart
      rw [Json.sorted, Json.sortedMembers_eq_map, lacks_object_iff, lacks_object_iff]
      simp only [(perm_sortedEntries distinct).mem_iff]
      constructor
      · rintro ⟨_, mapped, stays, stops⟩
        obtain ⟨member, found, rfl⟩ := List.mem_map.mp mapped
        exact ⟨member, found, stays, stops.imp_right (ih member found).mp⟩
      · rintro ⟨member, found, stays, stops⟩
        exact ⟨_, List.mem_map_of_mem found, stays, stops.imp_right (ih member found).mpr⟩
  | _ => exact Iff.rfl

namespace Alike

variable {value other : Json}

theorem depth_le {levels : Nat} (alike : Alike codec keysAreFields value other)
    (fits : value.depth ≤ levels) : other.depth ≤ levels := by
  induction alike generalizing levels with
  | array image _ ih =>
      obtain ⟨levels, rfl, within⟩ := Json.array_fits fits
      rw [Json.depth_array_le_succ_iff]
      intro other mapped
      obtain ⟨item, found, rfl⟩ := List.mem_map.mp mapped
      exact ih item found (within item found)
  | object image _ same ih =>
      obtain ⟨levels, rfl, within⟩ := Json.object_fits fits
      rw [Json.depth_object_le_succ_iff]
      intro other listed
      obtain ⟨member, kept, rfl⟩ := List.mem_map.mp (same.mem_iff.mp listed)
      obtain ⟨found, stays⟩ := List.mem_filter.mp kept
      exact ih member found (by simpa using stays) (within member found)
  | _ => exact fits

theorem eq_iff (alike : Alike codec keysAreFields value other) {scalar : Json}
    (plain : scalar.depth = 0) : value = scalar ↔ other = scalar := by
  cases alike with
  | array _ _ => exact ⟨by rintro rfl; simp [Json.depth] at plain,
      by rintro rfl; simp [Json.depth] at plain⟩
  | object _ _ _ => exact ⟨by rintro rfl; simp [Json.depth] at plain,
      by rintro rfl; simp [Json.depth] at plain⟩
  | _ => exact Iff.rfl

theorem perm_filter {members others : List (String × Json)} {image : String × Json → Json}
    {asked : String → Bool}
    (same : others.Perm ((members.filter fun member => !codec.drops keysAreFields member.1).map
      fun member => (member.1, image member)))
    (kept : ∀ key, asked key = true → codec.drops keysAreFields key = false) :
    (others.filter fun member => asked member.1).Perm
      ((members.filter fun member => asked member.1).map fun member =>
        (member.1, image member)) := by
  have filtered := same.filter fun member => asked member.1
  rw [List.filter_map, List.filter_filter] at filtered
  refine filtered.trans (List.Perm.of_eq (congrArg _ (List.filter_congr fun member _ => ?_)))
  by_cases wanted : asked member.1 = true
  · simp [wanted, kept member.1 wanted]
  · simp [wanted]

end Alike

end Codec

end TestDelegation
