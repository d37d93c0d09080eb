import TestDelegation.Proofs.Json.Structure
import TestDelegation.Proofs.SortedMap
import TestDelegation.Proofs.Text.ByteOrder

/-!
Places in a JSON value. A way lists the steps to a place from the root down. Main definitions:
`at?`, what stands at the end of a way, and `Before`, the depth first order of ways.
-/

namespace TestDelegation.Json

inductive Step where
  | member (key : String)
  | item (index : Nat)
  deriving DecidableEq

def below? : Json → Step → Option Json
  | .object members, .member key => members.lookup key
  | .array items, .item index => items[index]?
  | _, _ => none

def at? : Json → List Step → Option Json
  | value, [] => some value
  | value, step :: rest => (value.below? step).bind fun inner => inner.at? rest

inductive Step.Before : Step → Step → Prop
  | member {first second : String} : Text.utf8Bytes first < Text.utf8Bytes second →
      Before (.member first) (.member second)
  | item {first second : Nat} : first < second → Before (.item first) (.item second)

/-- A place stands before all places below it, and they before its later siblings. -/
def Before : List Step → List Step → Prop := List.Lex Step.Before

theorem before_below (step : Step) {further : List Step} (deeper : further ≠ []) :
    Before [step] (step :: further) := by
  cases further with
  | nil => exact absurd rfl deeper
  | cons _ _ => exact List.Lex.cons List.Lex.nil

/-- A value without what stands below it. -/
inductive Outline where
  | null
  | bool (value : Bool)
  | number (value : Numeral)
  | string (value : String)
  | array (length : Nat)
  | object (keys : List String)

def outline : Json → Outline
  | .null => .null
  | .bool value => .bool value
  | .number value => .number value
  | .string value => .string value
  | .array items => .array items.length
  | .object members => .object (members.map Prod.fst)

def Outline.filterKeys (keep : String → Bool) : Outline → Outline
  | .object keys => .object (keys.filter keep)
  | .null => .null
  | .bool value => .bool value
  | .number value => .number value
  | .string value => .string value
  | .array length => .array length

theorem at?_append (value : Json) (front rest : List Step) :
    value.at? (front ++ rest) = (value.at? front).bind fun inner => inner.at? rest := by
  induction front generalizing value with
  | nil => rfl
  | cons step front ih =>
      rw [List.cons_append, at?, at?, Option.bind_assoc]
      exact congrArg _ (funext fun inner => ih inner)

theorem at?_append_singleton (value : Json) (front : List Step) (step : Step) :
    value.at? (front ++ [step]) = (value.at? front).bind fun inner => inner.below? step := by
  rw [at?_append]
  refine congrArg _ (funext fun inner => ?_)
  rw [at?]
  cases inner.below? step with
  | none => rfl
  | some _ => rfl

/-- Every object of the value lists its keys in order, each once. -/
inductive Ordered : Json → Prop
  | null : Ordered .null
  | bool (value : Bool) : Ordered (.bool value)
  | number (value : Numeral) : Ordered (.number value)
  | string (value : String) : Ordered (.string value)
  | array {items : List Json} : (∀ item ∈ items, Ordered item) → Ordered (.array items)
  | object {members : List (String × Json)} : StrictlySorted members →
      (∀ member ∈ members, Ordered member.2) → Ordered (.object members)

theorem ordered_sorted (value : Json) : value.sorted.Ordered := by
  induction value using Json.induct with
  | null => exact .null
  | bool value => exact .bool value
  | number value => exact .number value
  | string value => exact .string value
  | array items ih =>
      rw [sorted, sortedItems_eq_map]
      exact .array (List.forall_mem_map.mpr ih)
  | object members ih =>
      rw [sorted, sortedMembers_eq_map]
      refine .object (strictlySorted_sortedEntries _) fun entry listed => ?_
      obtain ⟨member, found, rfl⟩ := List.mem_map.mp (mem_sortedEntries listed)
      exact ih member found

def children : Json → List (Step × Json)
  | .object members => members.map fun member => (.member member.1, member.2)
  | .array items => items.mapIdx fun index item => (.item index, item)
  | _ => []

theorem lookup_eq_some_iff_of_distinct {members : List (String × Json)} {key : String}
    {value : Json} (distinct : DistinctNames members) :
    members.lookup key = some value ↔ (key, value) ∈ members := by
  induction members with
  | nil => simp
  | cons first rest ih =>
      obtain ⟨name, content⟩ := first
      obtain ⟨apart, restDistinct⟩ := List.nodup_cons.mp distinct
      rw [List.lookup_cons, List.mem_cons]
      by_cases same : key = name
      · subst same
        have later : (key, value) ∉ rest := fun listed =>
          apart (List.mem_map.mpr ⟨_, listed, rfl⟩)
        simp [later, eq_comm]
      · have other : (key == name) = false := by simpa using same
        simp [other, same, ih restDistinct]

theorem below?_eq_some_iff {value inner : Json} {step : Step} (ordered : value.Ordered) :
    value.below? step = some inner ↔ (step, inner) ∈ value.children := by
  cases ordered with
  | object sorted _ =>
      cases step with
      | member key =>
          rw [below?, lookup_eq_some_iff_of_distinct (distinctNames_of_strictlySorted sorted),
            children]
          simp
      | item index => simp [below?, children]
  | array _ =>
      cases step with
      | member key => simp [below?, children]
      | item index => simp [below?, children, List.mem_mapIdx, List.getElem?_eq_some_iff]
  | _ => simp [below?, children]

theorem distinctKeys_of_ordered {value : Json} (ordered : value.Ordered) : value.DistinctKeys := by
  induction ordered with
  | null => exact .null
  | bool value => exact .bool value
  | number value => exact .number value
  | string value => exact .string value
  | array _ ih => exact .array ih
  | object sorted _ ih => exact .object (distinctNames_of_strictlySorted sorted) ih

/-- What two values have at the end of every way, but for what stands below it. -/
def SameOutlines (value other : Json) : Prop :=
  ∀ way, (value.at? way).map outline = (other.at? way).map outline

theorem SameOutlines.below {value other inner : Json} {step : Step}
    (same : value.SameOutlines other) (found : value.below? step = some inner) :
    ∃ counterpart, other.below? step = some counterpart ∧ inner.SameOutlines counterpart := by
  have after : ∀ way, (inner.at? way).map outline =
      ((other.below? step).bind fun counterpart => counterpart.at? way).map outline := by
    intro way
    have whole := same (step :: way)
    rwa [at?, at?, found, Option.bind_some] at whole
  cases there : other.below? step with
  | none =>
      have missing := after []
      rw [there] at missing
      exact absurd missing nofun
  | some counterpart =>
      refine ⟨counterpart, rfl, fun way => ?_⟩
      rw [after way, there, Option.bind_some]

theorem eq_of_sameOutlines_items {items others : List Json}
    (each : ∀ item ∈ items, ∀ other, item.SameOutlines other → item = other)
    (same : (Json.array items).SameOutlines (.array others)) : items = others := by
  have length : items.length = others.length := Outline.array.inj (Option.some.inj (same []))
  refine List.ext_getElem length fun index inItems inOthers => ?_
  have found : (Json.array items).below? (.item index) = some items[index] :=
    List.getElem?_eq_getElem inItems
  obtain ⟨counterpart, there, alike⟩ := same.below found
  obtain rfl := Option.some.inj ((List.getElem?_eq_getElem inOthers).symm.trans there)
  exact each _ (List.getElem_mem inItems) _ alike

theorem eq_of_sameOutlines_members {members others : List (String × Json)}
    (distinct : DistinctNames members)
    (each : ∀ member ∈ members, ∀ other, member.2.SameOutlines other → member.2 = other)
    (same : (Json.object members).SameOutlines (.object others)) : members = others := by
  have keys : members.map Prod.fst = others.map Prod.fst :=
    Outline.object.inj (Option.some.inj (same []))
  have othersDistinct : DistinctNames others := by
    rw [DistinctNames, ← keys]
    exact distinct
  have length : members.length = others.length := by simpa using congrArg List.length keys
  refine List.ext_getElem length fun index inMembers inOthers => ?_
  have key : members[index].1 = others[index].1 := by
    have placed := List.getElem_of_eq keys (by simpa using inMembers : index < _)
    simpa using placed
  have found : (Json.object members).below? (.member members[index].1) = some members[index].2 :=
    (lookup_eq_some_iff_of_distinct distinct).mpr (List.getElem_mem inMembers)
  obtain ⟨counterpart, there, alike⟩ := same.below found
  have own : others.lookup members[index].1 = some others[index].2 := by
    rw [key]
    exact (lookup_eq_some_iff_of_distinct othersDistinct).mpr (List.getElem_mem inOthers)
  obtain rfl := Option.some.inj (own.symm.trans there)
  exact Prod.ext key (each _ (List.getElem_mem inMembers) _ alike)

theorem eq_of_sameOutlines {value other : Json} (distinct : value.DistinctKeys)
    (same : value.SameOutlines other) : value = other := by
  induction distinct generalizing other with
  | array _ ih =>
      cases other with
      | array others =>
          exact congrArg _ (eq_of_sameOutlines_items (fun item listed _ => ih item listed) same)
      | _ => exact absurd (Option.some.inj (same [])) nofun
  | object apart _ ih =>
      cases other with
      | object others =>
          exact congrArg _
            (eq_of_sameOutlines_members apart (fun member listed _ => ih member listed) same)
      | _ => exact absurd (Option.some.inj (same [])) nofun
  | _ =>
      have root := Option.some.inj (same [])
      cases other <;> simp_all [outline]

end TestDelegation.Json
