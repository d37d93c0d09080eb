import TestDelegation.Decoding.Record
import TestDelegation.Proofs.Decoding.Values

/-!
What a record makes of an object or an array. Main statement: `Record.decode_yields_iff`. Each
field is judged by itself, by the members that answer to it, so their order plays no part.
-/

namespace TestDelegation

variable {α β σ : Type}

namespace Field

def names (field : Field α) : List String := field.name :: field.aliases

theorem answersTo_iff {field : Field α} {key : String} :
    field.answersTo key = true ↔ key ∈ field.names := by
  simp [answersTo, names]

def answers (field : Field α) (members : List (String × Json)) : List (String × Json) :=
  members.filter fun member => field.answersTo member.1

/-- The members leave the field out, or one of them gives its value. -/
def Given (field : Field α) (members : List (String × Json)) (value : α) : Prop :=
  (field.answers members = [] ∧ field.absent = some value) ∨
  ∃ member, field.answers members = [member] ∧ field.decoder.Yields member.2 value

def Fills (field : Field α) (members : List (String × Json)) (slot filled : Option α) : Prop :=
  (field.answers members = [] ∧ filled = slot) ∨
  ∃ member value, field.answers members = [member] ∧ slot = none ∧
    field.decoder.Yields member.2 value ∧ filled = some value

theorem given_iff_fills {field : Field α} {members : List (String × Json)} {value : α} :
    field.Given members value ↔
      ∃ filled, field.Fills members none filled ∧ filled.or field.absent = some value := by
  constructor
  · rintro (⟨none_, absent⟩ | ⟨member, one, yields⟩)
    · exact ⟨none, .inl ⟨none_, rfl⟩, by simpa using absent⟩
    · exact ⟨some value, .inr ⟨member, value, one, rfl, yields, rfl⟩, by simp⟩
  · rintro ⟨_, ⟨none_, rfl⟩ | ⟨member, found, one, _, yields, rfl⟩, whole⟩
    · exact .inl ⟨none_, by simpa using whole⟩
    · simp only [Option.some_or, Option.some.injEq] at whole
      exact .inr ⟨member, one, whole ▸ yields⟩

end Field

namespace Record

def names {σ α : Type} : Record σ α → List String
  | .done => []
  | .field head tail => head.names ++ tail.names

def Gives {σ α : Type} : Record σ α → List (String × Json) → α → Prop
  | .done, _, () => True
  | .field head tail, members, (value, values) =>
    head.Given members value ∧ tail.Gives members values

def GivesInOrder {σ α : Type} : Record σ α → List Json → α → Prop
  | .done, items, () => items = []
  | .field head tail, [], (value, values) =>
    head.mayBeCut = true ∧ head.absent = some value ∧ tail.GivesInOrder [] values
  | .field head tail, item :: items, (value, values) =>
    head.decoder.Yields item value ∧ tail.GivesInOrder items values

def met (members : List (String × Json)) : List (Except Fault String × Scan) :=
  members.map fun member => (.ok member.1, Scan.ofJson member.2)

theorem members_cons_unasked {record : Record σ α} {key : String} {value : Json}
    {members : List (String × Json)} {slots : σ}
    (unasked : record.accept key (Scan.ofJson value) slots = none) :
    record.members (met ((key, value) :: members)) slots = record.members (met members) slots := by
  have skipped : Decoder.ignored (Scan.ofJson value) = .ok () := Decoder.ignored_yields value
  simp only [met, List.map_cons, Record.members, unasked, skipped, ok_bind]

theorem members_done_eq_ok (members : List (String × Json)) :
    Record.done.members (met members) () = .ok () := by
  induction members with
  | nil => rfl
  | cons member members ih => exact (members_cons_unasked rfl).trans ih

theorem members_cons_first {head : Field α} {tail : Record σ β} {key : String} {value : Json}
    {members : List (String × Json)} {slots : σ} (answered : head.answersTo key = true) :
    (Record.field head tail).members (met ((key, value) :: members)) (none, slots) =
      head.decoder (Scan.ofJson value) >>= fun found =>
        (Record.field head tail).members (met members) (some found, slots) := by
  simp only [met, List.map_cons, Record.members, accept, answered, if_true]
  cases head.decoder (Scan.ofJson value) <;> rfl

theorem members_cons_again {head : Field α} {tail : Record σ β} {key : String} {value : Json}
    {members : List (String × Json)} {old : α} {slots : σ} (answered : head.answersTo key = true) :
    (Record.field head tail).members (met ((key, value) :: members)) (some old, slots) =
      Decoder.mismatched (.duplicateField head.name) := by
  simp only [met, List.map_cons, Record.members, accept, answered, if_true]
  rfl

theorem members_field_eq_ok_iff {head : Field α} {tail : Record σ β}
    {members : List (String × Json)} {slot filled : Option α} {slots filledSlots : σ} :
    (Record.field head tail).members (met members) (slot, slots) = .ok (filled, filledSlots) ↔
      head.Fills members slot filled ∧
        tail.members (met (members.filter fun member => !head.answersTo member.1)) slots =
          .ok filledSlots := by
  induction members generalizing slot slots with
  | nil =>
      simp only [met, List.map_nil, Record.members, Field.Fills, Field.answers, List.filter_nil,
        Except.ok.injEq, Prod.mk.injEq]
      simp [eq_comm]
  | cons member members ih =>
      obtain ⟨key, value⟩ := member
      by_cases answered : head.answersTo key = true
      · have answers : head.answers ((key, value) :: members) =
            (key, value) :: head.answers members := by
          simp [Field.answers, answered]
        have left : (((key, value) :: members).filter fun member => !head.answersTo member.1) =
            members.filter fun member => !head.answersTo member.1 := by
          simp [answered]
        rw [left]
        cases slot with
        | some old =>
            rw [members_cons_again answered]
            simp [Decoder.mismatched, Field.Fills, answers]
        | none =>
            rw [members_cons_first answered, bind_eq_ok_iff]
            simp only [ih, Field.Fills, answers]
            constructor
            · rintro ⟨found, yields, ⟨empty, rfl⟩ | ⟨_, _, _, impossible, _⟩, rest⟩
              · exact ⟨.inr ⟨(key, value), found, by simp [empty], trivial, yields, rfl⟩, rest⟩
              · simp at impossible
            · rintro ⟨⟨impossible, _⟩ | ⟨single, found, one, _, yields, rfl⟩, rest⟩
              · simp at impossible
              · obtain ⟨rfl, empty⟩ := List.cons.inj one
                exact ⟨found, yields, .inl ⟨empty, rfl⟩, rest⟩
      · have answers : head.answers ((key, value) :: members) = head.answers members := by
          simp [Field.answers, answered]
        have left : (((key, value) :: members).filter fun member => !head.answersTo member.1) =
            (key, value) :: members.filter fun member => !head.answersTo member.1 := by
          simp [answered]
        rw [left]
        have skipped : Decoder.ignored (Scan.ofJson value) = .ok () :=
          Decoder.ignored_yields value
        simp only [Field.Fills, answers] at ih ⊢
        simp only [met, List.map_cons, Record.members, accept, answered] at ih ⊢
        cases accepted : tail.accept key (Scan.ofJson value) slots with
        | none => simpa [skipped, ok_bind] using ih
        | some result =>
            cases result with
            | error _ => simp [Except.map]
            | ok next => simpa [Except.map] using ih

theorem complete_eq_ok_iff {head : Field α} {tail : Record σ β} {slot : Option α} {slots : σ}
    {value : α} {values : β} :
    (Record.field head tail).complete (slot, slots) = .ok (value, values) ↔
      slot.or head.absent = some value ∧ tail.complete slots = .ok values := by
  rw [complete]
  cases slot.or head.absent with
  | none => simp [Decoder.mismatched]
  | some found =>
      simp only [map_eq_ok_iff, Prod.mk.injEq, Option.some.injEq]
      constructor
      · rintro ⟨rest, whole, rfl, rfl⟩
        exact ⟨rfl, whole⟩
      · rintro ⟨rfl, whole⟩
        exact ⟨values, whole, rfl, rfl⟩

theorem answers_filter {field : Field α} {members : List (String × Json)}
    {keep : String → Bool} (kept : ∀ key ∈ field.names, keep key = true) :
    field.answers (members.filter fun member => keep member.1) = field.answers members := by
  rw [Field.answers, List.filter_filter]
  refine List.filter_congr ?_
  intro member _
  by_cases answered : field.answersTo member.1 = true
  · simp [answered, kept member.1 (Field.answersTo_iff.mp answered)]
  · simp [answered]

theorem gives_filter_iff {record : Record σ α} {members : List (String × Json)} {values : α}
    {keep : String → Bool} (kept : ∀ key ∈ record.names, keep key = true) :
    record.Gives (members.filter fun member => keep member.1) values ↔
      record.Gives members values := by
  induction record with
  | done => exact Iff.rfl
  | field head tail ih =>
      obtain ⟨value, values⟩ := values
      have headKept : ∀ key ∈ head.names, keep key = true := fun key named =>
        kept key (List.mem_append_left _ named)
      have tailKept : ∀ key ∈ tail.names, keep key = true := fun key named =>
        kept key (List.mem_append_right _ named)
      simp only [Gives, Field.Given, answers_filter headKept, ih tailKept]

theorem members_complete_iff {record : Record σ α} {members : List (String × Json)} {values : α}
    (apart : record.names.Nodup) :
    (∃ slots, record.members (met members) record.noSlots = .ok slots ∧
      record.complete slots = .ok values) ↔ record.Gives members values := by
  induction record generalizing members with
  | done => simp [noSlots, members_done_eq_ok, complete, Gives]
  | field head tail ih =>
      obtain ⟨value, values⟩ := values
      obtain ⟨_, tailApart, disjoint⟩ := List.nodup_append.mp apart
      have kept : ∀ key ∈ tail.names, (!head.answersTo key) = true := by
        intro key named
        rw [Bool.not_eq_true', ← Bool.not_eq_true, Field.answersTo_iff]
        exact fun also => disjoint key also key named rfl
      rw [Gives, Field.given_iff_fills, ← gives_filter_iff kept, ← ih tailApart]
      constructor
      · rintro ⟨⟨filled, slots⟩, found, whole⟩
        obtain ⟨fills, rest⟩ := members_field_eq_ok_iff.mp found
        obtain ⟨first, later⟩ := complete_eq_ok_iff.mp whole
        exact ⟨⟨filled, fills, first⟩, slots, rest, later⟩
      · rintro ⟨⟨filled, fills, first⟩, slots, rest, later⟩
        exact ⟨(filled, slots), members_field_eq_ok_iff.mpr ⟨fills, rest⟩,
          complete_eq_ok_iff.mpr ⟨first, later⟩⟩

theorem positional_eq_ok_iff {record : Record σ α} {name : String} {total index : Nat}
    {items : List Json} {values : α} {rest : List Scan} :
    record.positional name total none index (items.map Scan.ofJson) = .ok (values, rest) ∧
      rest = [] ↔ record.GivesInOrder items values ∧ rest = [] := by
  refine and_congr_left ?_
  rintro rfl
  induction record generalizing index items with
  | done => simp [positional, GivesInOrder]
  | field head tail ih =>
      obtain ⟨value, values⟩ := values
      cases items with
      | nil =>
          simp only [List.map_nil, positional, Decoder.finish, ok_bind, GivesInOrder]
          cases cut : head.mayBeCut with
          | false => simp [Decoder.mismatched]
          | true =>
              cases absent : head.absent with
              | none => simp [Decoder.mismatched]
              | some default =>
                  have rest := @ih (index + 1) [] values
                  rw [List.map_nil] at rest
                  simp only [bind_eq_ok_iff, pure_eq_ok_iff, Prod.mk.injEq, Prod.exists, ← rest]
                  constructor
                  · rintro ⟨_, _, found, ⟨rfl, rfl⟩, rfl⟩
                    exact ⟨trivial, rfl, found⟩
                  · rintro ⟨_, same, found⟩
                    exact ⟨values, [], found, ⟨Option.some.inj same, rfl⟩, rfl⟩
      | cons item items =>
          simp only [List.map_cons, positional, GivesInOrder, bind_eq_ok_iff, pure_eq_ok_iff,
            Prod.mk.injEq, Prod.exists, ← @ih (index + 1) items values]
          constructor
          · rintro ⟨_, yields, _, _, found, ⟨rfl, rfl⟩, rfl⟩
            exact ⟨yields, found⟩
          · rintro ⟨yields, found⟩
            exact ⟨value, yields, values, [], found, ⟨rfl, rfl⟩, rfl⟩

theorem surplus_eq_ok_iff {source : Source} {length : Nat} {rest : List Scan} {done : Unit} :
    surplus source length none rest = .ok done ↔ rest = [] := by
  cases rest with
  | nil => simp [surplus, Decoder.finish]
  | cons _ _ => cases source <;> simp [surplus, Decoder.broken, Decoder.mismatched]

theorem decode_yields_iff {record : Record σ α} {source : Source} {name : String} {value : Json}
    {values : α} (apart : record.names.Nodup) :
    (record.decode source name).Yields value values ↔
      (∃ members, value = .object members ∧ record.Gives members values) ∨
      (∃ items, value = .array items ∧ record.GivesInOrder items values) := by
  cases value with
  | object members =>
      simp only [Decoder.Yields, Scan.ofJson, Scan.ofMembers_eq_map, decode, Decoder.finish,
        bind_eq_ok_iff, ← members_complete_iff apart, met]
      simp
  | array items =>
      simp only [Decoder.Yields, Scan.ofJson, Scan.ofItems_eq_map, decode, bind_eq_ok_iff,
        surplus_eq_ok_iff, pure_eq_ok_iff, Prod.exists]
      constructor
      · rintro ⟨_, rest, found, _, ended, rfl⟩
        exact .inr ⟨items, rfl, (positional_eq_ok_iff.mp ⟨found, ended⟩).1⟩
      · rintro (⟨_, impossible, _⟩ | ⟨_, same, given⟩)
        · simp at impossible
        · obtain rfl := Json.array.inj same
          exact ⟨values, [], (positional_eq_ok_iff.mpr ⟨given, rfl⟩).1, (), rfl, rfl⟩
  | _ => simpa [Decoder.Yields, Scan.ofJson, decode] using Decoder.wrongType_ne_ok

end Record

end TestDelegation
