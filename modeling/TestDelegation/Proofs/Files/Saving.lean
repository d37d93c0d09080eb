import Mathlib.Data.List.Basic
import TestDelegation.Report.Junit

/-!
When a text can be saved under a path, and what stands there then. Main statement:
`saveReport_cases`.
-/

namespace TestDelegation

section Entries

variable {κ α : Type} [BEq κ] [LawfulBEq κ] {entries : List (κ × α)} {key other : κ}

theorem lookup_filter_self :
    (entries.filter fun entry => entry.1 != key).lookup key = none := by
  refine List.lookup_eq_none_iff.mpr fun entry kept => ?_
  have apart := bne_iff_ne.mp (List.mem_filter.mp kept).2
  exact bne_iff_ne.mpr apart.symm

theorem lookup_filter_ne (apart : other ≠ key) :
    (entries.filter fun entry => entry.1 != key).lookup other = entries.lookup other := by
  induction entries with
  | nil => rfl
  | cons entry rest ih =>
      rw [List.filter_cons, List.lookup_cons]
      by_cases own : entry.1 = key
      · have differs : (other == entry.1) = false := beq_eq_false_iff_ne.mpr (own ▸ apart)
        rw [if_neg (by simp [own]), ih, differs]
      · rw [if_pos (by simp [own]), List.lookup_cons, ih]

end Entries

namespace FileTree

variable {tree after : FileTree} {location : List String} {path text : String}

theorem read?_of_no_nodes (working : List String) (path : String) :
    (FileTree.mk [] working).read? path = none := by
  have nodes : ∀ location, (FileTree.mk [] working).node? location = none ∨
      (FileTree.mk [] working).node? location = some .directory := by
    intro location
    rw [node?]
    split
    · exact .inr rfl
    · exact .inl rfl
  rw [read?, find?]
  cases (FileTree.mk [] working).locate path with
  | none => rfl
  | some location =>
      rcases nodes location with missing | directory
      · simp [missing]
      · simp [directory]

theorem node?_put_self (nonempty : location ≠ []) (node : FileNode) :
    (tree.put location node).node? location = some node := by
  rw [node?, put, List.isEmpty_eq_false_iff.mpr nonempty, List.lookup_append, lookup_filter_self]
  simp

theorem node?_put_of_ne {other : List String} (apart : other ≠ location) (node : FileNode) :
    (tree.put location node).node? other = tree.node? other := by
  have differs : (other == location) = false := beq_eq_false_iff_ne.mpr apart
  rw [node?, node?, put, List.lookup_append, lookup_filter_ne apart, List.lookup_cons, differs,
    List.lookup_nil, Option.or_none]

theorem walk_put {node : FileNode} {start found : List String} {parts : List String}
    (plain : tree.isDirectoryAt location = false) (leads : tree.walk start parts = some found) :
    (tree.put location node).walk start parts = some found := by
  induction parts generalizing start with
  | nil => exact leads
  | cons part rest ih =>
      rw [walk] at leads ⊢
      cases passed : tree.isDirectoryAt start with
      | false => simp [passed] at leads
      | true =>
          have apart : start ≠ location := by
            rintro rfl
            exact absurd (passed.symm.trans plain) Bool.true_eq_false.mp
          have still : (tree.put location node).isDirectoryAt start = true := by
            rw [isDirectoryAt, node?_put_of_ne apart]
            exact passed
          rw [still]
          rw [passed] at leads
          simp only [Bool.not_true, Bool.false_eq_true, if_false] at leads ⊢
          split at leads
          · rename_i up
            rw [if_pos up]
            exact ih leads
          · rename_i down
            rw [if_neg down]
            exact ih leads

theorem locate_put {node : FileNode} {found : List String}
    (plain : tree.isDirectoryAt location = false) (leads : tree.locate path = some found) :
    (tree.put location node).locate path = some found := by
  rw [locate] at leads ⊢
  split at leads
  · exact absurd leads nofun
  · rename_i named
    rw [if_neg named]
    exact walk_put plain leads

/-- A file of this name can be opened, or made, and takes what is written. -/
def Takes (tree : FileTree) (path : String) : Prop :=
  Path.namesDirectory path = false ∧ ∃ location, tree.locate path = some location ∧
    tree.node? location ≠ some .directory ∧ tree.node? location ≠ some (.device true)

/-- The text stands under the path, or a device does, which has taken it. -/
def Stands (tree : FileTree) (path text : String) : Prop :=
  tree.find? path = some (.file text) ∨ tree.find? path = some (.device false)

theorem write_eq_ok_iff :
    tree.write path text = .ok after ↔ Path.namesDirectory path = false ∧
      ∃ location, tree.locate path = some location ∧
        ((tree.node? location = some (.device false) ∧ tree = after) ∨
          (tree.node? location = none ∨ ∃ old, tree.node? location = some (.file old)) ∧
            tree.put location (.file text) = after) := by
  rw [write]
  cases Path.namesDirectory path with
  | true => simp
  | false =>
      cases tree.locate path with
      | none => simp
      | some location =>
          simp only [Bool.false_eq_true, if_false, Option.some.injEq, exists_eq_left', true_and]
          cases tree.node? location with
          | none => simp
          | some node =>
              cases node with
              | directory => simp
              | file _ => simp
              | device refuses =>
                  cases refuses with
                  | true => simp
                  | false => simp

theorem takes_iff_exists_write (tree : FileTree) (path text : String) :
    tree.Takes path ↔ ∃ after, tree.write path text = .ok after := by
  simp only [Takes, write_eq_ok_iff, exists_and_left, and_congr_right_iff]
  intro _
  constructor
  · rintro ⟨location, leads, notDirectory, notRefusing⟩
    cases node : tree.node? location with
    | none => exact ⟨_, location, leads, .inr ⟨.inl node, rfl⟩⟩
    | some found =>
        cases found with
        | directory => exact absurd node notDirectory
        | file old => exact ⟨_, location, leads, .inr ⟨.inr ⟨old, node⟩, rfl⟩⟩
        | device refuses =>
            cases refuses with
            | true => exact absurd node notRefusing
            | false => exact ⟨_, location, leads, .inl ⟨node, rfl⟩⟩
  · rintro ⟨_, location, leads, ⟨node, _⟩ | ⟨node | ⟨_, node⟩, _⟩⟩
    all_goals exact ⟨location, leads, by simp [node], by simp [node]⟩

theorem stands_put {location : List String} (named : Path.namesDirectory path = false)
    (leads : tree.locate path = some location)
    (plain : tree.node? location ≠ some .directory) :
    (tree.put location (.file text)).Stands path text := by
  have nonempty : location ≠ [] := by
    rintro rfl
    exact plain rfl
  have passable : tree.isDirectoryAt location = false := by simpa [isDirectoryAt] using plain
  left
  rw [find?, locate_put passable leads, Option.bind_some, node?_put_self nonempty]
  simp [named]

theorem stands_of_write (written : tree.write path text = .ok after) : after.Stands path text := by
  obtain ⟨named, location, leads, ⟨node, rfl⟩ | ⟨free, rfl⟩⟩ := write_eq_ok_iff.mp written
  · right
    rw [find?, leads, Option.bind_some, node]
    simp [named]
  · refine stands_put named leads ?_
    rcases free with node | ⟨_, node⟩
    · simp [node]
    · simp [node]

end FileTree

def FileTree.withParent? (tree : FileTree) (path : String) : Option FileTree :=
  let directory := (Path.parent? path).getD ""
  let (made, present) :=
    if directory.isEmpty then (tree, true) else tree.makeDirectories directory
  if present then some made else none

/-- The directory of the path can be made, and a file in it can be written. -/
def FileTree.Saves (tree : FileTree) (path : String) : Prop :=
  ∃ made, tree.withParent? path = some made ∧ made.Takes path

theorem saveReport_cases (tree : FileTree) (path text : String) :
    (tree.Saves path ∧ ∃ after, saveReport tree path text = (after, .ok ()) ∧
      after.Stands path text) ∨
    (¬tree.Saves path ∧ ∃ after error, saveReport tree path text = (after, .error error)) := by
  rw [saveReport, FileTree.Saves, FileTree.withParent?]
  dsimp only
  generalize (if ((Path.parent? path).getD "").isEmpty then (tree, true)
    else tree.makeDirectories ((Path.parent? path).getD "")) = prepared
  obtain ⟨made, present⟩ := prepared
  cases present with
  | false => exact .inr ⟨by simp, _, _, rfl⟩
  | true =>
      have takes := made.takes_iff_exists_write path text
      cases written : made.write path text with
      | ok after =>
          have opened := takes.mpr ⟨after, written⟩
          exact .inl ⟨⟨made, rfl, opened⟩, after, rfl, FileTree.stands_of_write written⟩
      | error fault =>
          have refused : ¬made.Takes path := by
            rw [takes, written]
            simp
          refine .inr ⟨by simpa using refused, ?_⟩
          cases fault with
          | notOpened => exact ⟨_, _, rfl⟩
          | notWritten => exact ⟨_, _, rfl⟩

end TestDelegation
