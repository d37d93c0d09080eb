import TestDelegation.Json.Scanner
import TestDelegation.Proofs.Success

/-!
Induction on JSON values, their levels, and the reading of a text that spells a whole value.
-/

namespace TestDelegation

namespace Json

theorem induct {motive : Json → Prop} (null : motive .null)
    (bool : ∀ value, motive (.bool value)) (number : ∀ value, motive (.number value))
    (string : ∀ value, motive (.string value))
    (array : ∀ items, (∀ item ∈ items, motive item) → motive (.array items))
    (object : ∀ members, (∀ member ∈ members, motive member.2) → motive (.object members)) :
    ∀ value, motive value := by
  refine @Json.rec motive (fun items => ∀ item ∈ items, motive item)
    (fun members => ∀ member ∈ members, motive member.2) (fun member => motive member.2)
    null bool number string array object ?_ ?_ ?_ ?_ ?_
  · simp
  · intro item rest first later
    exact List.forall_mem_cons.mpr ⟨first, later⟩
  · simp
  · intro member rest first later
    exact List.forall_mem_cons.mpr ⟨first, later⟩
  · intro key value holds
    exact holds

def text? : Json → Option String
  | .string text => some text
  | _ => none

/-- No object of the value repeats a key. -/
inductive DistinctKeys : Json → Prop
  | null : DistinctKeys .null
  | bool (value : Bool) : DistinctKeys (.bool value)
  | number (value : Numeral) : DistinctKeys (.number value)
  | string (value : String) : DistinctKeys (.string value)
  | array {items : List Json} : (∀ item ∈ items, DistinctKeys item) → DistinctKeys (.array items)
  | object {members : List (String × Json)} : (members.map Prod.fst).Nodup →
      (∀ member ∈ members, DistinctKeys member.2) → DistinctKeys (.object members)

theorem distinctKeys_array_iff {items : List Json} :
    (array items).DistinctKeys ↔ ∀ item ∈ items, item.DistinctKeys := by
  constructor
  · intro distinct
    cases distinct with
    | array each => exact each
  · exact .array

theorem distinctKeys_object_iff {members : List (String × Json)} :
    (object members).DistinctKeys ↔
      (members.map Prod.fst).Nodup ∧ ∀ member ∈ members, member.2.DistinctKeys := by
  constructor
  · intro distinct
    cases distinct with
    | object names each => exact ⟨names, each⟩
  · exact fun distinct => .object distinct.1 distinct.2

theorem depthItems_le_iff {items : List Json} {levels : Nat} :
    depth.depthItems items ≤ levels ↔ ∀ item ∈ items, item.depth ≤ levels := by
  induction items with
  | nil => simp [depth.depthItems]
  | cons first rest ih => rw [depth.depthItems, Nat.max_le, ih, List.forall_mem_cons]

theorem depthMembers_le_iff {members : List (String × Json)} {levels : Nat} :
    depth.depthMembers members ≤ levels ↔ ∀ member ∈ members, member.2.depth ≤ levels := by
  induction members with
  | nil => simp [depth.depthMembers]
  | cons first rest ih =>
      obtain ⟨key, value⟩ := first
      rw [depth.depthMembers, Nat.max_le, ih, List.forall_mem_cons]

theorem depth_array_le_succ_iff {items : List Json} {levels : Nat} :
    (Json.array items).depth ≤ levels + 1 ↔ ∀ item ∈ items, item.depth ≤ levels := by
  simp [depth, depthItems_le_iff]

theorem depth_object_le_succ_iff {members : List (String × Json)} {levels : Nat} :
    (Json.object members).depth ≤ levels + 1 ↔ ∀ member ∈ members, member.2.depth ≤ levels := by
  rw [← depthMembers_le_iff]
  simp [depth]

theorem array_fits {items : List Json} {levels : Nat} (fits : (Json.array items).depth ≤ levels) :
    ∃ inner, levels = inner + 1 ∧ ∀ item ∈ items, item.depth ≤ inner := by
  cases levels with
  | zero => simp [depth] at fits
  | succ inner => exact ⟨inner, rfl, depth_array_le_succ_iff.mp fits⟩

theorem object_fits {members : List (String × Json)} {levels : Nat}
    (fits : (Json.object members).depth ≤ levels) :
    ∃ inner, levels = inner + 1 ∧ ∀ member ∈ members, member.2.depth ≤ inner := by
  cases levels with
  | zero => simp [depth] at fits
  | succ inner => exact ⟨inner, rfl, depth_object_le_succ_iff.mp fits⟩

theorem depth_filter_le {members : List (String × Json)} {levels : Nat}
    (keep : String × Json → Bool) (fits : (Json.object members).depth ≤ levels) :
    (Json.object (members.filter keep)).depth ≤ levels := by
  obtain ⟨levels, rfl, within⟩ := object_fits fits
  exact depth_object_le_succ_iff.mpr fun member kept =>
    within member (List.mem_filter.mp kept).1

theorem sortedItems_eq_map (items : List Json) : sorted.sortedItems items = items.map sorted := by
  induction items with
  | nil => rfl
  | cons first rest ih => simp [sorted.sortedItems, ih]

theorem sortedMembers_eq_map (members : List (String × Json)) :
    sorted.sortedMembers members = members.map fun member => (member.1, member.2.sorted) := by
  induction members with
  | nil => rfl
  | cons first rest ih => simp [sorted.sortedMembers, ih]

end Json

namespace Scan

theorem ofItems_eq_map (items : List Json) : ofJson.ofItems items = items.map ofJson := by
  induction items with
  | nil => rfl
  | cons first rest ih => simp [ofJson.ofItems, ih]

theorem ofMembers_eq_map (members : List (String × Json)) :
    ofJson.ofMembers members = members.map fun member => (.ok member.1, ofJson member.2) := by
  induction members with
  | nil => rfl
  | cons first rest ih => simp [ofJson.ofMembers, ih]

theorem skip_ofJson (value : Json) : (ofJson value).skip = none := by
  induction value using Json.induct with
  | null => rfl
  | bool _ => rfl
  | number _ => rfl
  | string _ => rfl
  | array items ih =>
      simp only [ofJson, skip, ofItems_eq_map, Option.map_none, Option.or_none]
      induction items with
      | nil => rfl
      | cons first rest later =>
          obtain ⟨firstSkipped, restSkipped⟩ := List.forall_mem_cons.mp ih
          simp [skip.skipItems, firstSkipped, later restSkipped]
  | object members ih =>
      simp only [ofJson, skip, ofMembers_eq_map, Option.map_none, Option.or_none]
      induction members with
      | nil => rfl
      | cons first rest later =>
          obtain ⟨firstSkipped, restSkipped⟩ := List.forall_mem_cons.mp ih
          simp [skip.skipMembers, firstSkipped, later restSkipped]

theorem read_ofJson (levels : Nat) (value : Json) :
    (ofJson value).read levels =
      if value.depth ≤ levels then .ok value else .error .malformed := by
  induction value using Json.induct generalizing levels with
  | null => simp [ofJson, read, Json.depth]
  | bool _ => simp [ofJson, read, Json.depth]
  | number _ => simp [ofJson, read, Json.depth, Except.map]
  | string _ => simp [ofJson, read, Json.depth, Except.map]
  | array items ih =>
      cases levels with
      | zero => simp [ofJson, read, Json.depth]
      | succ levels =>
          have readItems : read.readItems levels (items.map ofJson) =
              if Json.depth.depthItems items ≤ levels then .ok items else .error .malformed := by
            induction items with
            | nil => simp [read.readItems, Json.depth.depthItems]
            | cons first rest later =>
                obtain ⟨firstRead, restRead⟩ := List.forall_mem_cons.mp ih
                simp only [List.map_cons, read.readItems, firstRead, later restRead,
                  Json.depth.depthItems, Nat.max_le]
                by_cases firstFits : first.depth ≤ levels
                · by_cases restFits : Json.depth.depthItems rest ≤ levels
                  · simp [firstFits, restFits, bind, Except.bind, pure, Except.pure]
                  · simp [firstFits, restFits, bind, Except.bind]
                · simp [firstFits, bind, Except.bind]
          simp only [ofJson, read, ofItems_eq_map, readItems, Json.depth, Nat.add_le_add_iff_right]
          split <;> simp [stopReading, bind, Except.bind, pure, Except.pure]
  | object members ih =>
      cases levels with
      | zero => simp [ofJson, read, Json.depth]
      | succ levels =>
          have readMembers : read.readMembers levels
              (members.map fun member => (.ok member.1, ofJson member.2)) =
              if Json.depth.depthMembers members ≤ levels then .ok members
              else .error .malformed := by
            induction members with
            | nil => simp [read.readMembers, Json.depth.depthMembers]
            | cons first rest later =>
                obtain ⟨firstRead, restRead⟩ := List.forall_mem_cons.mp ih
                simp only [List.map_cons, read.readMembers, firstRead, later restRead,
                  Json.depth.depthMembers, Nat.max_le]
                by_cases firstFits : first.2.depth ≤ levels
                · by_cases restFits : Json.depth.depthMembers rest ≤ levels
                  · simp [firstFits, restFits, bind, Except.bind, pure, Except.pure]
                  · simp [firstFits, restFits, bind, Except.bind]
                · simp [firstFits, bind, Except.bind]
          simp only [ofJson, read, ofMembers_eq_map, readMembers, Json.depth,
            Nat.add_le_add_iff_right]
          split <;> simp [stopReading, bind, Except.bind, pure, Except.pure]

theorem induct {motive : Scan → Prop} (null : motive .null)
    (bool : ∀ value, motive (.bool value)) (number : ∀ value, motive (.number value))
    (string : ∀ value, motive (.string value))
    (array : ∀ items stop, (∀ item ∈ items, motive item) → motive (.array items stop))
    (object : ∀ members stop, (∀ member ∈ members, motive member.2) →
      motive (.object members stop))
    (broken : ∀ stop, motive (.broken stop)) : ∀ scan, motive scan := by
  refine @Scan.rec motive (fun items => ∀ item ∈ items, motive item)
    (fun members => ∀ member ∈ members, motive member.2) (fun member => motive member.2)
    null bool number string array object broken ?_ ?_ ?_ ?_ ?_
  · simp
  · intro item rest first later
    exact List.forall_mem_cons.mpr ⟨first, later⟩
  · simp
  · intro member rest first later
    exact List.forall_mem_cons.mpr ⟨first, later⟩
  · intro key value holds
    exact holds

theorem eq_ofJson_of_readItems {items : List Scan} {levels : Nat} {values : List Json}
    (each : ∀ item ∈ items, ∀ value, item.read levels = .ok value → item = ofJson value)
    (found : read.readItems levels items = .ok values) : items = values.map ofJson := by
  induction items generalizing values with
  | nil => simp_all [read.readItems]
  | cons first rest ih =>
      obtain ⟨firstRead, restRead⟩ := List.forall_mem_cons.mp each
      simp only [read.readItems, bind_eq_ok_iff, pure_eq_ok_iff] at found
      obtain ⟨head, headFound, tail, tailFound, rfl⟩ := found
      rw [List.map_cons, ← firstRead head headFound, ← ih restRead tailFound]

theorem eq_ofJson_of_readMembers {members : List (Except Fault String × Scan)} {levels : Nat}
    {values : List (String × Json)}
    (each : ∀ member ∈ members, ∀ value,
      member.2.read levels = .ok value → member.2 = ofJson value)
    (found : read.readMembers levels members = .ok values) :
    members = values.map fun member => (.ok member.1, ofJson member.2) := by
  induction members generalizing values with
  | nil => simp_all [read.readMembers]
  | cons first rest ih =>
      obtain ⟨firstRead, restRead⟩ := List.forall_mem_cons.mp each
      obtain ⟨key, item⟩ := first
      simp only [read.readMembers, bind_eq_ok_iff, pure_eq_ok_iff] at found
      obtain ⟨name, rfl, head, headFound, tail, tailFound, rfl⟩ := found
      rw [List.map_cons, ← firstRead head headFound, ← ih restRead tailFound]

theorem stopReading_eq_ok_iff {stop : Option Break} {done : Unit} :
    stopReading stop = .ok done ↔ stop = none := by
  cases stop <;> simp [stopReading]

theorem eq_ofJson_of_read {scan : Scan} {levels : Nat} {value : Json}
    (found : scan.read levels = .ok value) : scan = ofJson value := by
  induction scan using Scan.induct generalizing levels value with
  | null =>
      simp only [read, Except.ok.injEq] at found
      simp [← found, ofJson]
  | bool _ =>
      simp only [read, Except.ok.injEq] at found
      simp [← found, ofJson]
  | number _ =>
      simp only [read, map_eq_ok_iff] at found
      obtain ⟨numeral, rfl, rfl⟩ := found
      simp [ofJson]
  | string _ =>
      simp only [read, map_eq_ok_iff] at found
      obtain ⟨text, rfl, rfl⟩ := found
      simp [ofJson]
  | array items stop ih =>
      cases levels with
      | zero => simp [read] at found
      | succ levels =>
          simp only [read, bind_eq_ok_iff, pure_eq_ok_iff, stopReading_eq_ok_iff] at found
          obtain ⟨values, valuesFound, _, rfl, rfl⟩ := found
          rw [ofJson, ofItems_eq_map,
            ← eq_ofJson_of_readItems (fun item member _ => ih item member) valuesFound]
  | object members stop ih =>
      cases levels with
      | zero => simp [read] at found
      | succ levels =>
          simp only [read, bind_eq_ok_iff, pure_eq_ok_iff, stopReading_eq_ok_iff] at found
          obtain ⟨values, valuesFound, _, rfl, rfl⟩ := found
          rw [ofJson, ofMembers_eq_map,
            ← eq_ofJson_of_readMembers (fun member found _ => ih member found) valuesFound]
  | broken _ => simp [read] at found

theorem read_eq_ok_iff {scan : Scan} {levels : Nat} {value : Json} :
    scan.read levels = .ok value ↔ scan = ofJson value ∧ value.depth ≤ levels := by
  constructor
  · intro found
    have whole := eq_ofJson_of_read found
    rw [whole, read_ofJson] at found
    split at found
    · rename_i fits
      exact ⟨whole, fits⟩
    · simp at found
  · rintro ⟨rfl, fits⟩
    simp [read_ofJson, fits]

end Scan

namespace Json

theorem parse_eq_ok_iff {text : String} {value : Json} :
    parse text = .ok value ↔
      scan text = ⟨Scan.ofJson value, false⟩ ∧ value.depth ≤ levelLimit := by
  rw [parse, Document.read, bind_eq_ok_iff]
  constructor
  · rintro ⟨read, readFound, found⟩
    obtain ⟨whole, fits⟩ := Scan.read_eq_ok_iff.mp readFound
    split at found
    · simp at found
    · rename_i ended
      simp only [Except.ok.injEq] at found
      subst found
      rw [Bool.not_eq_true] at ended
      refine ⟨?_, fits⟩
      rw [← whole, ← ended]
  · rintro ⟨same, fits⟩
    exact ⟨value, by simp [same, Scan.read_ofJson, fits], by simp [same]⟩

end Json
end TestDelegation
