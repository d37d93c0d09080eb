import TestDelegation.Proofs.Codec.Outcomes
import TestDelegation.Proofs.Codec.ReportedMethods
import TestDelegation.Proofs.Payload.Depth

/-!
Decoded sets are in normal form. Main statement: `decode_render_of_decode`. Their methods are
grouped and their failed methods in order, so they come back as they are, and their texts open no
more levels than the texts that they were decoded from.
-/

namespace TestDelegation

theorem Json.depth_sorted_le (value : Json) : value.sorted.depth ≤ value.depth := by
  induction value using Json.induct with
  | array items ih =>
      obtain ⟨inner, opened, within⟩ := array_fits (Nat.le_refl (Json.array items).depth)
      rw [opened, sorted, sortedItems_eq_map, depth_array_le_succ_iff]
      refine List.forall_mem_map.mpr fun item found => ?_
      exact Nat.le_trans (ih item found) (within item found)
  | object members ih =>
      obtain ⟨inner, opened, within⟩ := object_fits (Nat.le_refl (Json.object members).depth)
      rw [opened, sorted, sortedMembers_eq_map, depth_object_le_succ_iff]
      intro entry listed
      obtain ⟨member, found, rfl⟩ := List.mem_map.mp (mem_sortedEntries listed)
      exact Nat.le_trans (ih member found) (within member found)
  | _ => exact Nat.le_refl 0

theorem Codec.depth_kept_le (codec : Codec) (keysAreFields : Bool) (value : Json) :
    (codec.kept keysAreFields value).depth ≤ value.depth := by
  induction value using Json.induct generalizing keysAreFields with
  | array items ih =>
      obtain ⟨inner, opened, within⟩ := Json.array_fits (Nat.le_refl (Json.array items).depth)
      rw [opened, kept, keptItems_eq_map, Json.depth_array_le_succ_iff]
      refine List.forall_mem_map.mpr fun item found => ?_
      exact Nat.le_trans (ih item found true) (within item found)
  | object members ih =>
      obtain ⟨inner, opened, within⟩ := Json.object_fits (Nat.le_refl (Json.object members).depth)
      rw [opened, kept, keptMembers_eq, Json.depth_object_le_succ_iff]
      refine List.forall_mem_map.mpr fun member stayed => ?_
      have found := (List.mem_filter.mp stayed).1
      exact Nat.le_trans (ih member found _) (within member found)
  | _ => exact Nat.le_refl 0

namespace OutcomeSet

variable {codec : Codec} {text : String} {set : OutcomeSet}

theorem depth_toDetail_of_decode (decoded : codec.decode text = .ok set)
    (classname : Option String) :
    ∃ value, Json.parse text = .ok value ∧
      (set.toDetail classname).encode.depth ≤ value.depth := by
  obtain ⟨detail, detailed, found⟩ := bind_eq_ok_iff.mp decoded
  have made : ofDetail detail = .ok set := mapError_eq_ok_iff.mp found
  obtain ⟨value, parsed⟩ := Codec.parsed_of_decodeDetail detailed
  obtain ⟨_, _, yields⟩ := (Codec.decodeDetail_eq_ok_iff parsed).mp detailed
  refine ⟨value, parsed, ?_⟩
  calc (set.toDetail classname).encode.depth
      ≤ (codec.kept true value.sorted).depth := Decoder.depth_toDetail_le yields made classname
    _ ≤ value.sorted.depth := codec.depth_kept_le true value.sorted
    _ ≤ value.depth := value.depth_sorted_le

theorem decode_render_of_decode (decoded : codec.decode text = .ok set)
    (admits : codec.hasAdapter .maybe = true ∨ codec.isExcluded .maybe = true)
    (classname : Option String) :
    (∃ value, Json.parse text = .ok value ∧
      (set.toDetail classname).encode.depth ≤ value.depth) ∧
    codec.decode (set.render classname) = .ok set ∧
    (codec.decode (set.render classname)).map (fun again => again.render classname) =
      .ok (set.render classname) := by
  obtain ⟨value, parsed, shallower⟩ := depth_toDetail_of_decode decoded classname
  have fits : (set.toDetail classname).encode.depth ≤ levelLimit :=
    Nat.le_trans shallower (Json.parse_eq_ok_iff.mp parsed).2
  have normal : set.regrouped = set := by
    obtain ⟨detail, _, found⟩ := bind_eq_ok_iff.mp decoded
    exact regrouped_of_ofDetail (mapError_eq_ok_iff.mp found)
  have again : codec.decode (set.render classname) = .ok set := by
    have detailed := @ResultDetail.OutcomesOnly.decodeDetail_render _ codec
      (set.outcomesOnly_toDetail classname) fits
    rw [if_pos (by simpa using admits)] at detailed
    rw [Codec.decode, render, detailed, ok_bind, ofDetail_toDetail, normal]
    rfl
  refine ⟨⟨value, parsed, shallower⟩, again, ?_⟩
  rw [again]
  rfl

theorem decode_render_of_decode_repeatedMembers :
    Codec.default.decode (Json.object repeatedMembers).render = .ok lastListed ∧
      Codec.default.hasAdapter .maybe = true ∧
      Codec.default.decode (lastListed.render (some "p.C")) = .ok lastListed :=
  ⟨decode_repeatedMembers, rfl,
    (decode_render_of_decode decode_repeatedMembers (.inl rfl) (some "p.C")).2.1⟩

end OutcomeSet

end TestDelegation
