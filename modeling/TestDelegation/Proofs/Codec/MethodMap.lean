import TestDelegation.Proofs.Codec.ReportedMethods
import TestDelegation.Proofs.Json.Places
import TestDelegation.Proofs.Repeats

/-!
The check of a text's method map. Main statement: `checkMethodMap_refuses`. It judges the members
named `failedMethods` of the outermost object, each by its outline, and nothing below or beside
them. The texts are those that reach the check, which parse: a number out of range, a lone half of a
surrogate pair or a level too many is refused before it.
-/

namespace TestDelegation

def Json.Outline.found : Outline → Found
  | .null => .null
  | .bool value => .bool value
  | .number value => .number value
  | .string value => .string value
  | .array _ => .sequence
  | .object _ => .map

def mapFault? : Json.Outline → Option Mismatch
  | .object keys => (firstRepeatFrom? id [] keys).map fun repeated => .duplicateKey repeated.2
  | other => some (.wrongType other.found .uniqueKeys)

def mapsFault? : List Json.Outline → Option Mismatch
  | [] => none
  | first :: later =>
    (mapFault? first).or (if later.isEmpty then none else some (.duplicateField methodMapField))

def verdict : Option Mismatch → Except ReadError Unit
  | none => .ok ()
  | some mismatch => .error (.shape mismatch)

theorem mapFault?_ne_none_iff {value : Json} :
    mapFault? value.outline ≠ none ↔
      (∀ methods, value ≠ .object methods) ∨
      ∃ methods, value = .object methods ∧ ¬DistinctNames methods := by
  cases value with
  | object methods =>
      have distinct := @firstRepeatFrom?_eq_none_iff _ id [] (methods.map Prod.fst) (by simp)
      simp [Json.outline, mapFault?, DistinctNames, distinct]
  | _ => simp [Json.outline, mapFault?]

theorem mapsFault?_ne_none_iff {maps : List Json.Outline} :
    mapsFault? maps ≠ none ↔ 1 < maps.length ∨ ∃ map ∈ maps, mapFault? map ≠ none := by
  match maps with
  | [] => simp [mapsFault?]
  | [only] => simp [mapsFault?]
  | first :: second :: later => simp [mapsFault?]

theorem verdict_or (first second : Option Mismatch) :
    verdict (first.or second) = verdict first >>= fun _ => verdict second := by
  cases first <;> rfl

theorem exists_verdict_iff {fault : Option Mismatch} :
    (∃ error, verdict fault = .error error) ↔ fault ≠ none := by
  cases fault <;> simp [verdict]

namespace Decoder

theorem uniqueMembers_ignored {members : List (String × Json)} {map : SortedMap Unit}
    {seen : List String} (holds : ∀ key, map.contains key = true ↔ key ∈ seen) :
    (uniqueMembers ignored map (Record.met members)).map (fun _ => ()) =
      verdict ((firstRepeatFrom? id seen (members.map Prod.fst)).map fun repeated =>
        .duplicateKey repeated.2) := by
  induction members generalizing map seen with
  | nil => rfl
  | cons member members ih =>
      obtain ⟨key, value⟩ := member
      have skipped : ignored (Scan.ofJson value) = .ok () := ignored_yields value
      rw [Record.met, List.map_cons, List.map_cons, uniqueMembers, firstRepeatFrom?, skipped,
        ok_bind]
      cases found : seen.find? fun earlier => id earlier == id key with
      | some known =>
          have same : known = key := by simpa using List.find?_some found
          have member : key ∈ seen := same ▸ List.mem_of_find?_eq_some found
          rw [if_pos ((holds key).mpr member)]
          rfl
      | none =>
          have fresh : key ∉ seen := by
            intro member
            simpa using List.find?_eq_none.mp found key member
          have next : ∀ other, (map.insert key ()).contains other = true ↔
              other ∈ seen ++ [key] := by
            intro other
            rw [SortedMap.contains_insert_iff, holds, List.mem_append, List.mem_singleton, or_comm]
          rw [if_neg (fresh ∘ (holds key).mp)]
          exact ih next

theorem uniqueMapAt_ignored_eq (levels : Nat) (value : Json) :
    (uniqueMapAt (fun _ => ignored) (levels + 1) (Scan.ofJson value)).map (fun _ => ()) =
      verdict (mapFault? value.outline) := by
  cases value with
  | object members =>
      have empty : ∀ key, (SortedMap.empty (α := Unit)).contains key = true ↔ key ∈ [] := by
        simp [SortedMap.contains, SortedMap.empty]
      rw [Json.outline, mapFault?, ← uniqueMembers_ignored empty, uniqueMapAt, opening,
        Scan.ofJson, Scan.ofMembers_eq_map, uniqueMap, ← Record.met]
      cases uniqueMembers ignored .empty (Record.met members) with
      | ok _ => rfl
      | error _ => rfl
  | _ => rfl

end Decoder

theorem Field.answersTo_defaulted_iff {α : Type} {name key : String} {decoder : Decoder α}
    {value : α} : (defaulted name [] decoder value).answersTo key = true ↔ key = name := by
  simp [answersTo, defaulted]

namespace Record

variable {levels : Nat} {map : SortedMap Unit} {members : List (String × Json)}

theorem accept_methodMapRecord_eq_none {key : String} {scan : Scan}
    {slot : Option (SortedMap Unit)} (other : key ≠ methodMapField) :
    (methodMapRecord levels).accept key scan (slot, ()) = none := by
  simp [methodMapRecord, accept, other, Field.answersTo_defaulted_iff]

theorem members_methodMapRecord_filled :
    ((methodMapRecord levels).members (met members) (some map, ())).map (fun _ => ()) =
      verdict (if (valuesOf methodMapField members).isEmpty then none
        else some (.duplicateField methodMapField)) := by
  induction members with
  | nil => rfl
  | cons member members ih =>
      obtain ⟨key, value⟩ := member
      rw [valuesOf_cons]
      by_cases named : key = methodMapField
      · rw [methodMapRecord, members_cons_again (Field.answersTo_defaulted_iff.mpr named),
          if_pos named]
        rfl
      · rw [members_cons_unasked (accept_methodMapRecord_eq_none named), if_neg named]
        exact ih

theorem members_methodMapRecord (levels : Nat) (members : List (String × Json)) :
    ((methodMapRecord (levels + 1)).members (met members) (none, ())).map (fun _ => ()) =
      verdict (mapsFault? ((valuesOf methodMapField members).map Json.outline)) := by
  induction members with
  | nil => rfl
  | cons member members ih =>
      obtain ⟨key, value⟩ := member
      rw [valuesOf_cons]
      by_cases named : key = methodMapField
      · rw [methodMapRecord, members_cons_first (Field.answersTo_defaulted_iff.mpr named),
          if_pos named, List.map_cons]
        rw [mapsFault?, verdict_or, ← Decoder.uniqueMapAt_ignored_eq levels value,
          List.isEmpty_map]
        change ((Decoder.uniqueMapAt (fun _ => Decoder.ignored) (levels + 1) _ >>= _).map _) = _
        cases Decoder.uniqueMapAt (fun _ => Decoder.ignored) (levels + 1) (Scan.ofJson value) with
        | ok map => exact members_methodMapRecord_filled
        | error _ => rfl
      · rw [members_cons_unasked (accept_methodMapRecord_eq_none named), if_neg named]
        exact ih

theorem decode_methodMapRecord (source : Source) (name : String) :
    ((methodMapRecord levels).decode source name (Scan.ofJson (.object members))).map
        (fun _ => ()) =
      ((methodMapRecord levels).members (met members) (none, ())).map fun _ => () := by
  rw [Scan.ofJson, Scan.ofMembers_eq_map, decode, ← met]
  change ((methodMapRecord levels).members (met members) (none, ()) >>= _).map _ = _
  cases (methodMapRecord levels).members (met members) (none, ()) with
  | error _ => rfl
  | ok slots =>
      obtain ⟨slot, ⟨⟩⟩ := slots
      cases slot with
      | none => rfl
      | some _ => rfl

end Record

theorem checkMethodMap_eq {text : String} {members : List (String × Json)}
    (parsed : Json.parse text = .ok (.object members)) :
    checkMethodMap text =
      verdict (mapsFault? ((valuesOf methodMapField members).map Json.outline)) := by
  have whole : checkMethodMap text = (Decoder.ofText (Decoder.opening (.record "RawMethodMap")
      fun levels => (methodMapRecord levels).decode .text "RawMethodMap") text).map
        fun _ => () := rfl
  rw [whole, Decoder.ofText_eq parsed, levelLimit, Decoder.opening,
    Record.decode_methodMapRecord, Record.members_methodMapRecord]

theorem Codec.decodeDetail_eq_wrongShape {codec : Codec} {text : String} {value : Json}
    {error : ReadError} (parsed : Json.parse text = .ok value)
    (refused : checkMethodMap text = .error error) :
    codec.decodeDetail text = .error (.wrongShape (codec.wording text error)) := by
  rw [decodeDetail, parsed, refused]
  rfl

theorem checkMethodMap_eq_duplicateKey {text : String} {members methods : List (String × Json)}
    (parsed : Json.parse text = .ok (.object members))
    (one : valuesOf methodMapField members = [.object methods])
    (repeated : ¬DistinctNames methods) :
    ∃ key, FirstRepeat id (methods.map Prod.fst) key key ∧
      checkMethodMap text = .error (.shape (.duplicateKey key)) := by
  have apart : (([] : List String).map id).Nodup := List.nodup_nil
  cases found : firstRepeatFrom? id [] (methods.map Prod.fst) with
  | none =>
      have distinct := (firstRepeatFrom?_eq_none_iff apart).mp found
      rw [List.nil_append, List.map_id] at distinct
      exact absurd distinct repeated
  | some pair =>
      obtain ⟨earlier, key⟩ := pair
      have first := (firstRepeatFrom?_eq_some_iff apart).mp found
      obtain ⟨_, _, _, _, _, same⟩ := id first
      obtain rfl : earlier = key := same
      refine ⟨earlier, first, ?_⟩
      rw [checkMethodMap_eq parsed, one]
      simp [mapsFault?, mapFault?, Json.outline, found, verdict]

/--
The values in the maps and all keys elsewhere play no part: texts with the same outlines of their
method maps are judged alike.
-/
theorem checkMethodMap_refuses {text : String} {members : List (String × Json)}
    (parsed : Json.parse text = .ok (.object members)) :
    ((∃ error, checkMethodMap text = .error error) ↔
      1 < (valuesOf methodMapField members).length ∨
      ∃ value ∈ valuesOf methodMapField members,
        (∀ methods, value ≠ .object methods) ∨
        ∃ methods, value = .object methods ∧ ¬DistinctNames methods) ∧
    (∀ error, checkMethodMap text = .error error →
      ∀ codec : Codec,
        codec.decodeDetail text = .error (.wrongShape (codec.wording text error))) ∧
    (∀ methods, valuesOf methodMapField members = [.object methods] → ¬DistinctNames methods →
      ∃ key error, FirstRepeat id (methods.map Prod.fst) key key ∧
        checkMethodMap text = .error error ∧ error.message = "duplicate key `" ++ key ++ "`") ∧
    ∀ other others, Json.parse other = .ok (.object others) →
      (valuesOf methodMapField others).map Json.outline =
        (valuesOf methodMapField members).map Json.outline →
      checkMethodMap other = checkMethodMap text := by
  refine ⟨?_, ?_, ?_, ?_⟩
  · rw [checkMethodMap_eq parsed, exists_verdict_iff, mapsFault?_ne_none_iff, List.length_map]
    simp only [List.mem_map, exists_exists_and_eq_and, mapFault?_ne_none_iff]
  · intro error refused codec
    exact Codec.decodeDetail_eq_wrongShape parsed refused
  · intro methods one repeated
    obtain ⟨key, first, refused⟩ := checkMethodMap_eq_duplicateKey parsed one repeated
    exact ⟨key, _, first, refused, rfl⟩
  · intro other others otherParsed same
    rw [checkMethodMap_eq otherParsed, checkMethodMap_eq parsed, same]

def repeatedMethods : List (String × Json) := [
  ("testResult", .object [("x", .null), ("x", .null)]),
  (methodMapField, .object [("a", .null), ("b", .null), ("b", .bool true), ("a", .null)])]

theorem checkMethodMap_refuses_repeatedMethods :
    Json.parse (Json.object repeatedMethods).render = .ok (.object repeatedMethods) ∧
      ∃ error, checkMethodMap (Json.object repeatedMethods).render = .error error ∧
        error.message = "duplicate key `b`" ∧
        ∀ codec : Codec, codec.decodeDetail (Json.object repeatedMethods).render =
          .error (.wrongShape (codec.wording (Json.object repeatedMethods).render error)) := by
  have nothing : Json.null.Exact := .null
  have yes : (Json.bool true).Exact := .bool true
  have exact : (Json.object repeatedMethods).Exact := by
    refine .object ?_
    simp only [repeatedMethods, List.forall_mem_cons]
    refine ⟨.object ?_, .object ?_, by simp⟩
    · simp [nothing]
    · simp [nothing, yes]
  have parsed := Json.parse_render exact (by decide)
  obtain ⟨_, refused, named, _⟩ := checkMethodMap_refuses parsed
  obtain ⟨key, error, first, found, message⟩ := named
    [("a", .null), ("b", .null), ("b", .bool true), ("a", .null)] rfl
    (by simp [DistinctNames])
  have second : FirstRepeat id ["a", "b", "b", "a"] "b" "b" :=
    ⟨["a", "b"], ["a"], rfl, by decide, by decide, rfl⟩
  obtain ⟨rfl, _⟩ := second.unique first
  exact ⟨parsed, error, found, message, refused error found⟩

end TestDelegation
