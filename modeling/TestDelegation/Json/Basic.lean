import TestDelegation.Decimal.Binary64
import TestDelegation.SortedMap

/-!
JSON values. Members of an object stand in the order of their text and may repeat a key; `sorted`
is the value in which every object lists each key once, by name, with the last of its values.
-/

namespace TestDelegation

inductive Numeral where
  | integer (value : Int)
  | real (value : Decimal.Binary64)
  deriving DecidableEq

inductive Json where
  | null
  | bool (value : Bool)
  | number (value : Numeral)
  | string (value : String)
  | array (items : List Json)
  | object (members : List (String × Json))

namespace Json

instance : Inhabited Json := ⟨.null⟩

def integer (value : Int) : Json := .number (.integer value)

def depth : Json → Nat
  | .null => 0
  | .bool _ => 0
  | .number _ => 0
  | .string _ => 0
  | .array items => depthItems items + 1
  | .object members => depthMembers members + 1
where
  depthItems : List Json → Nat
    | [] => 0
    | item :: rest => max item.depth (depthItems rest)
  depthMembers : List (String × Json) → Nat
    | [] => 0
    | (_, value) :: rest => max value.depth (depthMembers rest)

def sorted : Json → Json
  | .null => .null
  | .bool value => .bool value
  | .number value => .number value
  | .string value => .string value
  | .array items => .array (sortedItems items)
  | .object members => .object (sortedEntries (sortedMembers members))
where
  sortedItems : List Json → List Json
    | [] => []
    | item :: rest => item.sorted :: sortedItems rest
  sortedMembers : List (String × Json) → List (String × Json)
    | [] => []
    | (key, value) :: rest => (key, value.sorted) :: sortedMembers rest

end Json

end TestDelegation
