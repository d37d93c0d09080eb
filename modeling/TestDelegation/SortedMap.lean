/-!
Finite maps from names to values, listed by name. Names are compared character by character,
which is also the order of their UTF-8 bytes.
-/

namespace TestDelegation

def insertSorted {α : Type} (key : String) (value : α) : List (String × α) → List (String × α)
  | [] => [(key, value)]
  | entry :: rest =>
    if key < entry.1 then (key, value) :: entry :: rest
    else if entry.1 < key then entry :: insertSorted key value rest
    else (key, value) :: rest

/-- The entries by name; of entries with one name the last stays. -/
def sortedEntries {α : Type} (entries : List (String × α)) : List (String × α) :=
  entries.foldl (fun sorted entry => insertSorted entry.1 entry.2 sorted) []

def StrictlySorted {α : Type} (entries : List (String × α)) : Prop :=
  entries.Pairwise fun first second => first.1 < second.1

theorem mem_insertSorted {α : Type} {key : String} {value : α} {entries : List (String × α)}
    {entry : String × α} (member : entry ∈ insertSorted key value entries) :
    entry = (key, value) ∨ entry ∈ entries := by
  induction entries with
  | nil => simp_all [insertSorted]
  | cons head rest ih =>
      simp only [insertSorted] at member
      split at member
      · simp_all
      · split at member
        · rcases List.mem_cons.mp member with same | later
          · simp [same]
          · rcases ih later with new | old
            · exact Or.inl new
            · simp [old]
        · rcases List.mem_cons.mp member with same | later
          · exact Or.inl same
          · simp [later]

theorem strictlySorted_insertSorted {α : Type} {key : String} {value : α}
    {entries : List (String × α)} (sorted : StrictlySorted entries) :
    StrictlySorted (insertSorted key value entries) := by
  induction entries with
  | nil => simp [insertSorted, StrictlySorted]
  | cons head rest ih =>
      have headFirst := (List.pairwise_cons.mp sorted).1
      have restSorted := (List.pairwise_cons.mp sorted).2
      simp only [insertSorted]
      split
      · rename_i before
        refine List.pairwise_cons.mpr ⟨?_, sorted⟩
        intro entry member
        rcases List.mem_cons.mp member with same | later
        · simpa [same] using before
        · exact String.lt_trans before (headFirst entry later)
      · split
        · rename_i after
          refine List.pairwise_cons.mpr ⟨?_, ih restSorted⟩
          intro entry member
          rcases mem_insertSorted member with new | old
          · simpa [new] using after
          · exact headFirst entry old
        · rename_i notBefore notAfter
          have same : key = head.1 :=
            String.le_antisymm (String.not_lt.mp notAfter) (String.not_lt.mp notBefore)
          refine List.pairwise_cons.mpr ⟨?_, restSorted⟩
          intro entry member
          simpa [same] using headFirst entry member

structure SortedMap (α : Type) where
  entries : List (String × α)
  sorted : StrictlySorted entries

namespace SortedMap

def empty {α : Type} : SortedMap α := ⟨[], List.Pairwise.nil⟩

instance {α : Type} : Inhabited (SortedMap α) := ⟨empty⟩

def insert {α : Type} (map : SortedMap α) (key : String) (value : α) : SortedMap α :=
  ⟨insertSorted key value map.entries, strictlySorted_insertSorted map.sorted⟩

def keys {α : Type} (map : SortedMap α) : List String :=
  map.entries.map Prod.fst

def contains {α : Type} (map : SortedMap α) (key : String) : Bool :=
  map.entries.any fun entry => entry.1 == key

end SortedMap

end TestDelegation
