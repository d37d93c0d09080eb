import TestDelegation.Proofs.Decoding.Records

/-!
Where a record finds its fields. Main statement: `Record.reads_of_decode`. A field of a decoded
record has its value for members that leave it out, or one that was decoded from below the record.
-/

namespace TestDelegation

/-- A value in a field of a record: under one of the field's names, or at its index. -/
inductive Json.FieldValue (names : List String) (index : Nat) : Json → Json → Prop
  | named {members : List (String × Json)} {member : String × Json} : member ∈ members →
      member.1 ∈ names → FieldValue names index (.object members) member.2
  | placed {items : List Json} {item : Json} : items[index]? = some item →
      FieldValue names index (.array items) item

theorem Json.fieldValue_object_iff {names : List String} {index : Nat}
    {members : List (String × Json)} {inner : Json} :
    FieldValue names index (.object members) inner ↔
      ∃ member ∈ members, member.1 ∈ names ∧ member.2 = inner := by
  constructor
  · rintro ⟨found, named⟩
    exact ⟨_, found, named, rfl⟩
  · rintro ⟨member, found, named, rfl⟩
    exact .named found named

theorem Json.FieldValue.depth_le {names : List String} {index levels : Nat} {value inner : Json}
    (found : FieldValue names index value inner) (fits : value.depth ≤ levels + 1) :
    inner.depth ≤ levels := by
  cases found with
  | named member _ => exact depth_object_le_succ_iff.mp fits _ member
  | placed item => exact depth_array_le_succ_iff.mp fits _ (List.mem_of_getElem? item)

def Field.Reads {α : Type} (field : Field α) (index : Nat) (value : Json) (result : α) : Prop :=
  field.absent = some result ∨
  ∃ given, Json.FieldValue field.names index value given ∧ field.decoder.Yields given result

namespace Record

def Reads {σ α : Type} : Record σ α → Nat → Json → α → Prop
  | .done, _, _, () => True
  | .field head tail, index, value, (first, rest) =>
    head.Reads index value first ∧ tail.Reads (index + 1) value rest

variable {σ α : Type} {record : Record σ α} {values : α}

theorem reads_of_gives {members : List (String × Json)} (given : record.Gives members values)
    (index : Nat) : record.Reads index (.object members) values := by
  induction record generalizing index with
  | done => trivial
  | field head tail ih =>
      obtain ⟨first, rest⟩ := given
      refine ⟨?_, ih rest (index + 1)⟩
      obtain ⟨_, absent⟩ | ⟨member, one, yields⟩ := first
      · exact .inl absent
      · have answered : member ∈ head.answers members := by simp [one]
        obtain ⟨found, named⟩ := List.mem_filter.mp answered
        exact .inr ⟨member.2, .named found (Field.answersTo_iff.mp named), yields⟩

theorem reads_of_givesInOrder {items : List Json} {index : Nat}
    (given : record.GivesInOrder (items.drop index) values) :
    record.Reads index (.array items) values := by
  induction record generalizing index with
  | done => trivial
  | field head tail ih =>
      have later : items.drop (index + 1) = (items.drop index).tail := List.tail_drop.symm
      cases left : items.drop index with
      | nil =>
          rw [left] at given later
          obtain ⟨_, absent, rest⟩ := given
          exact ⟨.inl absent, ih (later ▸ rest)⟩
      | cons item rest =>
          have placed : items[index]? = some item := by
            rw [← List.head?_drop, left, List.head?_cons]
          rw [left] at given later
          obtain ⟨yields, rest⟩ := given
          exact ⟨.inr ⟨item, .placed placed, yields⟩, ih (later ▸ rest)⟩

theorem reads_of_decode {source : Source} {name : String} {value : Json}
    (apart : record.names.Nodup) (yields : (record.decode source name).Yields value values) :
    record.Reads 0 value values := by
  rcases (decode_yields_iff apart).mp yields with ⟨members, rfl, given⟩ | ⟨items, rfl, given⟩
  · exact reads_of_gives given 0
  · exact reads_of_givesInOrder given

end Record

end TestDelegation
