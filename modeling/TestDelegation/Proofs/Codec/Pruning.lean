import TestDelegation.Codec
import TestDelegation.Proofs.Json.Structure
import TestDelegation.Proofs.SortedMap

/-!
What is left of a value that a codec has walked. Main definitions: `Codec.kept`, the value without
its dropped fields, and `Lacks`, a field that stops the walk. Main statement: `prune_cases`.
-/

namespace TestDelegation

def fieldsBelow (keysAreFields : Bool) (key : String) : Bool :=
  !(keysAreFields && key == methodMapField)

theorem fieldsBelow_of_ne {key : String} (other : key ≠ methodMapField) :
    fieldsBelow true key = true := by
  simp [fieldsBelow, other]

theorem fieldsBelow_methodMapField : fieldsBelow true methodMapField = false := by
  simp [fieldsBelow]

namespace Codec

def kept (codec : Codec) (keysAreFields : Bool) : Json → Json
  | .null => .null
  | .bool value => .bool value
  | .number value => .number value
  | .string value => .string value
  | .array items => .array (keptItems codec items)
  | .object members => .object (keptMembers codec keysAreFields members)
where
  keptItems (codec : Codec) : List Json → List Json
    | [] => []
    | item :: rest => kept codec true item :: keptItems codec rest
  keptMembers (codec : Codec) (keysAreFields : Bool) :
      List (String × Json) → List (String × Json)
    | [] => []
    | (key, value) :: rest =>
      if codec.drops keysAreFields key then keptMembers codec keysAreFields rest
      else (key, kept codec (fieldsBelow keysAreFields key) value) ::
        keptMembers codec keysAreFields rest

variable {codec : Codec} {keysAreFields : Bool}

theorem keptItems_eq_map (items : List Json) :
    kept.keptItems codec items = items.map (codec.kept true) := by
  induction items with
  | nil => rfl
  | cons first rest ih => simp [kept.keptItems, ih]

theorem keptMembers_eq (members : List (String × Json)) :
    kept.keptMembers codec keysAreFields members =
      (members.filter fun member => !codec.drops keysAreFields member.1).map fun member =>
        (member.1, codec.kept (fieldsBelow keysAreFields member.1) member.2) := by
  induction members with
  | nil => rfl
  | cons first rest ih =>
      by_cases dropped : codec.drops keysAreFields first.1 = true
      · simp [kept.keptMembers, dropped, ih]
      · simp [kept.keptMembers, dropped, ih]

/-- A field that the codec keeps and has no adapter for stands somewhere in a value. -/
inductive Lacks (codec : Codec) (missing : MissingAdapter) : Bool → Json → Prop
  | item {keysAreFields : Bool} {items : List Json} {item : Json} : item ∈ items →
      Lacks codec missing true item → Lacks codec missing keysAreFields (.array items)
  | field {keysAreFields : Bool} {members : List (String × Json)} {member : String × Json} :
      member ∈ members → codec.drops keysAreFields member.1 = false →
      codec.missingAdapter? keysAreFields member.1 = some missing →
      Lacks codec missing keysAreFields (.object members)
  | under {keysAreFields : Bool} {members : List (String × Json)} {member : String × Json} :
      member ∈ members → codec.drops keysAreFields member.1 = false →
      Lacks codec missing (fieldsBelow keysAreFields member.1) member.2 →
      Lacks codec missing keysAreFields (.object members)

variable {missing : MissingAdapter}

theorem lacks_array_iff {items : List Json} :
    Lacks codec missing keysAreFields (.array items) ↔
      ∃ item ∈ items, Lacks codec missing true item := by
  constructor
  · rintro ⟨found, lacks⟩
    exact ⟨_, found, lacks⟩
  · rintro ⟨item, found, lacks⟩
    exact .item found lacks

theorem lacks_object_iff {members : List (String × Json)} :
    Lacks codec missing keysAreFields (.object members) ↔
      ∃ member ∈ members, codec.drops keysAreFields member.1 = false ∧
        (codec.missingAdapter? keysAreFields member.1 = some missing ∨
          Lacks codec missing (fieldsBelow keysAreFields member.1) member.2) := by
  constructor
  · intro lacks
    cases lacks with
    | field found stays stops => exact ⟨_, found, stays, .inl stops⟩
    | under found stays lacks => exact ⟨_, found, stays, .inr lacks⟩
  · rintro ⟨member, found, stays, stops | lacks⟩
    · exact .field found stays stops
    · exact .under found stays lacks

theorem lacks_array_cons_iff {first : Json} {rest : List Json} :
    Lacks codec missing keysAreFields (.array (first :: rest)) ↔
      Lacks codec missing true first ∨ Lacks codec missing keysAreFields (.array rest) := by
  simp [lacks_array_iff]

theorem lacks_object_cons_iff {first : String × Json} {rest : List (String × Json)} :
    Lacks codec missing keysAreFields (.object (first :: rest)) ↔
      (codec.drops keysAreFields first.1 = false ∧
        (codec.missingAdapter? keysAreFields first.1 = some missing ∨
          Lacks codec missing (fieldsBelow keysAreFields first.1) first.2)) ∨
      Lacks codec missing keysAreFields (.object rest) := by
  simp only [lacks_object_iff, List.mem_cons, or_and_right, exists_or, exists_eq_left]

theorem pruneItems_cases {items : List Json}
    (each : ∀ item ∈ items,
      (codec.prune true item = .ok (codec.kept true item) ∧
        ∀ missing, ¬Lacks codec missing true item) ∨
      ∃ missing, codec.prune true item = .error missing ∧ Lacks codec missing true item) :
    (prune.pruneItems codec items = .ok (kept.keptItems codec items) ∧
      ∀ missing, ¬Lacks codec missing keysAreFields (.array items)) ∨
    ∃ missing, prune.pruneItems codec items = .error missing ∧
      Lacks codec missing keysAreFields (.array items) := by
  induction items with
  | nil => exact .inl ⟨rfl, fun missing lacks => by simp [lacks_array_iff] at lacks⟩
  | cons first rest ih =>
      obtain ⟨firstCases, restCases⟩ := List.forall_mem_cons.mp each
      simp only [lacks_array_cons_iff, not_or]
      rcases firstCases with ⟨firstKept, firstFree⟩ | ⟨missing, stopped, lacks⟩
      · rcases ih restCases with ⟨restKept, restFree⟩ | ⟨missing, stopped, lacks⟩
        · refine .inl ⟨?_, fun missing => ⟨firstFree missing, restFree missing⟩⟩
          rw [prune.pruneItems, firstKept, ok_bind, restKept]
          rfl
        · refine .inr ⟨missing, ?_, .inr lacks⟩
          rw [prune.pruneItems, firstKept, ok_bind, stopped]
          rfl
      · refine .inr ⟨missing, ?_, .inl lacks⟩
        rw [prune.pruneItems, stopped]
        rfl

theorem pruneMembers_cases {members : List (String × Json)}
    (each : ∀ member ∈ members, ∀ keysAreFields,
      (codec.prune keysAreFields member.2 = .ok (codec.kept keysAreFields member.2) ∧
        ∀ missing, ¬Lacks codec missing keysAreFields member.2) ∨
      ∃ missing, codec.prune keysAreFields member.2 = .error missing ∧
        Lacks codec missing keysAreFields member.2) :
    (prune.pruneMembers codec keysAreFields members =
        .ok (kept.keptMembers codec keysAreFields members) ∧
      ∀ missing, ¬Lacks codec missing keysAreFields (.object members)) ∨
    ∃ missing, prune.pruneMembers codec keysAreFields members = .error missing ∧
      Lacks codec missing keysAreFields (.object members) := by
  induction members with
  | nil => exact .inl ⟨rfl, fun missing lacks => by simp [lacks_object_iff] at lacks⟩
  | cons first rest ih =>
      obtain ⟨firstCases, restCases⟩ := List.forall_mem_cons.mp each
      obtain ⟨key, value⟩ := first
      simp only [lacks_object_cons_iff, not_or, not_and]
      rw [prune.pruneMembers, kept.keptMembers]
      by_cases dropped : codec.drops keysAreFields key = true
      · simpa [dropped] using ih restCases
      · rw [if_neg dropped, if_neg dropped]
        rw [Bool.not_eq_true] at dropped
        simp only [dropped, forall_const, true_and]
        cases stops : codec.missingAdapter? keysAreFields key with
        | some missing => exact .inr ⟨missing, rfl, .inl (.inl rfl)⟩
        | none =>
            simp only [reduceCtorEq, not_false_eq_true, false_or, true_and]
            rcases firstCases (fieldsBelow keysAreFields key) with
              ⟨firstKept, firstFree⟩ | ⟨missing, stopped, lacks⟩
            · rw [fieldsBelow] at firstKept
              rcases ih restCases with ⟨restKept, restFree⟩ | ⟨missing, stopped, lacks⟩
              · refine .inl ⟨?_, fun missing => ⟨firstFree missing, restFree missing⟩⟩
                rw [firstKept, ok_bind, restKept]
                rfl
              · refine .inr ⟨missing, ?_, .inr lacks⟩
                rw [firstKept, ok_bind, stopped]
                rfl
            · refine .inr ⟨missing, ?_, .inl lacks⟩
              rw [fieldsBelow] at stopped
              rw [stopped]
              rfl

theorem prune_cases (codec : Codec) (keysAreFields : Bool) (value : Json) :
    (codec.prune keysAreFields value = .ok (codec.kept keysAreFields value) ∧
      ∀ missing, ¬Lacks codec missing keysAreFields value) ∨
    ∃ missing, codec.prune keysAreFields value = .error missing ∧
      Lacks codec missing keysAreFields value := by
  induction value using Json.induct generalizing keysAreFields with
  | null => exact .inl ⟨rfl, nofun⟩
  | bool _ => exact .inl ⟨rfl, nofun⟩
  | number _ => exact .inl ⟨rfl, nofun⟩
  | string _ => exact .inl ⟨rfl, nofun⟩
  | array items ih =>
      rcases pruneItems_cases fun item found => ih item found true with
        ⟨walked, free⟩ | ⟨missing, stopped, lacks⟩
      · exact .inl ⟨by rw [prune, walked]; rfl, free⟩
      · exact .inr ⟨missing, by rw [prune, stopped]; rfl, lacks⟩
  | object members ih =>
      rcases pruneMembers_cases ih with ⟨walked, free⟩ | ⟨missing, stopped, lacks⟩
      · exact .inl ⟨by rw [prune, walked]; rfl, free⟩
      · exact .inr ⟨missing, by rw [prune, stopped]; rfl, lacks⟩

theorem prune_eq_ok_iff {value pruned : Json} :
    codec.prune keysAreFields value = .ok pruned ↔
      (∀ missing, ¬Lacks codec missing keysAreFields value) ∧
        codec.kept keysAreFields value = pruned := by
  rcases prune_cases codec keysAreFields value with ⟨walked, free⟩ | ⟨missing, stopped, lacks⟩
  · simp [walked, free]
  · simp only [stopped, reduceCtorEq, false_iff, not_and]
    exact fun free => absurd lacks (free missing)

end Codec

end TestDelegation
