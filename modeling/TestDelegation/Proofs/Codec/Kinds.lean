import TestDelegation.Proofs.Codec.Likeness
import TestDelegation.Proofs.Payload.Encoding

/-!
Values without fields of any kind. Every codec walks them without a stop and drops nothing. An
encoded cause is one of them, so only the presence of a summary concerns a codec in the payload of
a set of outcomes.
-/

namespace TestDelegation

/-- No field of the value holds a value of a kind. -/
inductive Json.KindFree : Bool → Json → Prop
  | null {keysAreFields : Bool} : KindFree keysAreFields .null
  | bool {keysAreFields : Bool} (value : Bool) : KindFree keysAreFields (.bool value)
  | number {keysAreFields : Bool} (value : Numeral) : KindFree keysAreFields (.number value)
  | string {keysAreFields : Bool} (value : String) : KindFree keysAreFields (.string value)
  | array {keysAreFields : Bool} {items : List Json} : (∀ item ∈ items, KindFree true item) →
      KindFree keysAreFields (.array items)
  | object {keysAreFields : Bool} {members : List (String × Json)} :
      (keysAreFields = true → ∀ member ∈ members, fieldKind? member.1 = none) →
      (∀ member ∈ members, KindFree (fieldsBelow keysAreFields member.1) member.2) →
      KindFree keysAreFields (.object members)

namespace Codec

variable {codec : Codec} {keysAreFields : Bool} {key : String}

theorem drops_eq_false_of_kindless (kindless : keysAreFields = true → fieldKind? key = none) :
    codec.drops keysAreFields key = false := by
  cases keysAreFields with
  | false => rfl
  | true => simp [drops, kindless rfl]

theorem missingAdapter?_eq_none_of_kindless
    (kindless : keysAreFields = true → fieldKind? key = none) :
    codec.missingAdapter? keysAreFields key = none := by
  cases keysAreFields with
  | false => rfl
  | true => simp [missingAdapter?, kindless rfl]

end Codec

namespace Json.KindFree

variable {codec : Codec} {keysAreFields : Bool} {value other : Json}

theorem not_lacks {missing : MissingAdapter} (free : value.KindFree keysAreFields) :
    ¬Codec.Lacks codec missing keysAreFields value := by
  intro lacks
  induction lacks with
  | item found _ ih =>
      cases free with
      | array each => exact ih (each _ found)
  | field found _ stops =>
      cases free with
      | object kindless _ =>
          rw [Codec.missingAdapter?_eq_none_of_kindless fun fields => kindless fields _ found]
            at stops
          simp at stops
  | under found _ _ ih =>
      cases free with
      | object _ each => exact ih (each _ found)

theorem alike_empty (free : value.KindFree keysAreFields)
    (alike : Codec.Alike codec keysAreFields value other) :
    Codec.Alike Codec.empty keysAreFields value other := by
  induction alike with
  | null => exact .null
  | bool value => exact .bool value
  | number value => exact .number value
  | string value => exact .string value
  | array image _ ih =>
      cases free with
      | array each => exact .array image fun item found => ih item found (each item found)
  | object image _ same ih =>
      cases free with
      | object kindless each =>
          rename_i fields members others _
          have stays : ∀ codec : Codec, ∀ member ∈ members,
              codec.drops fields member.1 = false := fun codec member found =>
            Codec.drops_eq_false_of_kindless fun areFields => kindless areFields member found
          have kept : (members.filter fun member => !codec.drops fields member.1) =
              members.filter fun member => !Codec.empty.drops fields member.1 :=
            List.filter_congr fun member found => by
              rw [stays codec member found, stays Codec.empty member found]
          rw [kept] at same
          exact .object image (fun member found _ =>
            ih member found (stays codec member found) (each member found)) same

end Json.KindFree

theorem Codec.drops_empty (keysAreFields : Bool) (key : String) :
    Codec.empty.drops keysAreFields key = false := by
  rw [drops, Bool.and_eq_false_iff]
  right
  cases fieldKind? key with
  | none => rfl
  | some _ => rfl

theorem Codec.kept_empty (keysAreFields : Bool) (value : Json) :
    Codec.empty.kept keysAreFields value = value := by
  induction value using Json.induct generalizing keysAreFields with
  | array items ih =>
      have each : items.map (Codec.empty.kept true) = items.map id :=
        List.map_congr_left fun item listed => ih item listed true
      rw [kept, keptItems_eq_map, each, List.map_id]
  | object members ih =>
      have whole : (members.filter fun member => !Codec.empty.drops keysAreFields member.1) =
          members := by
        simp [drops_empty]
      have each : (members.map fun member => (member.1,
          Codec.empty.kept (fieldsBelow keysAreFields member.1) member.2)) = members.map id :=
        List.map_congr_left fun member listed => Prod.ext rfl (ih member listed _)
      rw [kept, keptMembers_eq, whole, each, List.map_id]
  | _ => rfl

theorem Codec.alike_sorted {value : Json} (distinct : value.DistinctKeys) :
    Alike Codec.empty true value value.sorted := by
  have walked := @alike_kept_sorted Codec.empty true value distinct
  rwa [kept_empty] at walked

theorem Codec.Alike.of_kindFree {codec : Codec} {members : List (String × Json)} {other : Json}
    (alike : Alike codec true (.object members) other)
    (free : ∀ member ∈ members, member.2.KindFree (fieldsBelow true member.1)) :
    Alike Codec.empty true (.object (members.filter fun member => !codec.drops true member.1))
      other := by
  cases alike with
  | object image each same =>
      refine .object image (fun member kept _ => ?_) (by simpa [drops_empty] using same)
      obtain ⟨found, stays⟩ := List.mem_filter.mp kept
      exact (free member found).alike_empty (each member found (by simpa using stays))

namespace Json

theorem kindFree_object (names : List String) {members : List (String × Json)}
    (plain : ∀ name ∈ names, fieldKind? name = none ∧ name ≠ methodMapField)
    (named : NamedMembers (KindFree true) names members) :
    (Json.object members).KindFree true := by
  have listed : ∀ member ∈ members, member.1 ∈ names := fun member found =>
    named.listed.subset (List.mem_map_of_mem found)
  refine .object (fun _ member found => (plain member.1 (listed member found)).1) ?_
  intro member found
  rw [fieldsBelow_of_ne (plain member.1 (listed member found)).2]
  exact named.each member found

theorem kindFree_array_map {α : Type} {encode : α → Json} {items : List α}
    {keysAreFields : Bool} (each : ∀ item ∈ items, (encode item).KindFree true) :
    (Json.array (items.map encode)).KindFree keysAreFields :=
  .array (List.forall_mem_map.mpr each)

end Json

theorem StackFrame.kindFree_encode (frame : StackFrame) : frame.encode.KindFree true := by
  have declared : NamedMembers (Json.KindFree true) ["declaringClass", "methodName"] [
      ("declaringClass", .string frame.declaringClass), ("methodName", .string frame.methodName)] :=
    .cons (.string _) (.cons (.string _) .nil)
  have file := NamedMembers.optional (Json.KindFree true) "fileName" frame.fileName
    fun name _ => .string name
  have line : NamedMembers (Json.KindFree true) ["lineNumber"]
      [("lineNumber", frame.lineNumber.encode)] := .cons (.number _) .nil
  exact Json.kindFree_object _ (by decide) ((declared.append file).append line)

theorem Thrown.named_members_kindFree (thrown : Thrown) :
    NamedMembers (Json.KindFree true) ["type", "message", "stackTrace"] thrown.members := by
  have type := NamedMembers.optional (Json.KindFree true) "type" thrown.exceptionType
    fun text _ => .string text
  have message := NamedMembers.optional (Json.KindFree true) "message" thrown.message
    fun text _ => .string text
  have frames := NamedMembers.list (Json.KindFree true) "stackTrace"
    (Json.kindFree_array_map fun frame (_ : frame ∈ thrown.stackTrace) => frame.kindFree_encode)
  exact (type.append message).append frames

theorem Thrown.kindFree_encode (thrown : Thrown) (nested : List Thrown) :
    (thrown.encode nested).KindFree true := by
  induction nested generalizing thrown with
  | nil => exact Json.kindFree_object _ (by decide) thrown.named_members_kindFree
  | cons inner nested ih =>
      have cause : NamedMembers (Json.KindFree true) ["cause"] [("cause", inner.encode nested)] :=
        .cons (ih inner) .nil
      exact Json.kindFree_object _ (by decide) (thrown.named_members_kindFree.append cause)

theorem RemoteFailure.kindFree_encode (cause : FailureCause) :
    (RemoteFailure.encode ⟨none, cause⟩).KindFree true :=
  Json.kindFree_object ["cause"] (by decide)
    (.cons (cause.outer.kindFree_encode cause.nested) .nil)

theorem SortedMap.kindFree_encode {α : Type} {encode : α → Json} {map : SortedMap α}
    (each : ∀ entry ∈ map.entries, (encode entry.2).KindFree true) :
    (map.encode encode).KindFree false :=
  .object (by simp) (List.forall_mem_map.mpr each)

end TestDelegation
