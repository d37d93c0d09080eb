/-!
Texts cut at their line feeds. Main statement: `cutLines_joinEnded_eq_iff`, lines written one after
the other are found again if none of them holds a line feed, and only then.
-/

namespace TestDelegation.Text

def HoldsLineFeed (text : String) : Prop := '\n' ∈ text.toList

instance (text : String) : Decidable (HoldsLineFeed text) := inferInstanceAs (Decidable (_ ∈ _))

def cutLines (text : String) : List String := (text.toList.splitOn '\n').map String.ofList

def joinEnded (lines : List String) : String := String.join (lines.map fun line => line ++ "\n")

theorem cutLines_of_not_holdsLineFeed {text : String} (whole : ¬HoldsLineFeed text) :
    cutLines text = [text] := by
  rw [cutLines, List.splitOn_eq_singleton whole, List.map_singleton, String.ofList_toList]

theorem cutLines_append (first rest : String) :
    cutLines (first ++ "\n" ++ rest) = cutLines first ++ cutLines rest := by
  have written : (first ++ "\n" ++ rest).toList = first.toList ++ '\n' :: rest.toList := by
    simp
  rw [cutLines, written, List.splitOn_append_cons_self, List.map_append]
  rfl

theorem joinEnded_cons (line : String) (later : List String) :
    joinEnded (line :: later) = line ++ "\n" ++ joinEnded later := by
  rw [joinEnded, List.map_cons, String.join_cons]
  rfl

theorem joinEnded_append (earlier later : List String) :
    joinEnded (earlier ++ later) = joinEnded earlier ++ joinEnded later := by
  rw [joinEnded, List.map_append, String.join_append]
  rfl

theorem joinEnded_flatMap {α : Type} (lines : α → List String) (items : List α) :
    joinEnded (items.flatMap lines) =
      String.join (items.map fun item => joinEnded (lines item)) := by
  induction items with
  | nil => rfl
  | cons item later ih =>
      rw [List.flatMap_cons, joinEnded_append, ih, List.map_cons, String.join_cons]

theorem exists_joinEnded_eq {lines : List String} (filled : lines ≠ []) :
    ∃ front, joinEnded lines = front ++ "\n" := by
  have last : joinEnded [lines.getLast filled] = lines.getLast filled ++ "\n" := by
    rw [joinEnded_cons]
    exact String.append_empty
  have split := congrArg joinEnded (List.dropLast_concat_getLast filled)
  rw [joinEnded_append, last, ← String.append_assoc] at split
  exact ⟨_, split.symm⟩

theorem cutLines_joinEnded (lines : List String) :
    cutLines (joinEnded lines) = lines.flatMap cutLines ++ [""] := by
  induction lines with
  | nil => rfl
  | cons line later ih =>
      rw [joinEnded_cons, cutLines_append, ih, List.flatMap_cons, List.append_assoc]

theorem not_holdsLineFeed_of_mem_cutLines {text part : String} (listed : part ∈ cutLines text) :
    ¬HoldsLineFeed part := by
  have clear : ∀ chars : List Char, ∀ part ∈ chars.splitOn '\n', '\n' ∉ part := by
    intro chars
    induction chars with
    | nil => simp
    | cons char rest ih =>
        rw [List.splitOn_cons_eq_if_modifyHead]
        by_cases feed : (char == '\n') = true
        · rw [if_pos feed]
          exact List.forall_mem_cons.mpr ⟨List.not_mem_nil, ih⟩
        · obtain ⟨first, later, parts⟩ :=
            List.exists_cons_of_ne_nil (List.splitOn_ne_nil '\n' rest)
          rw [parts] at ih ⊢
          obtain ⟨clearFirst, clearLater⟩ := List.forall_mem_cons.mp ih
          rw [if_neg feed, List.modifyHead_cons]
          refine List.forall_mem_cons.mpr ⟨?_, clearLater⟩
          rw [List.mem_cons, not_or]
          exact ⟨fun same => feed (beq_iff_eq.mpr same.symm), clearFirst⟩
  obtain ⟨chars, cut, rfl⟩ := List.mem_map.mp listed
  rw [HoldsLineFeed, String.toList_ofList]
  exact clear text.toList chars cut

/-- The lines are found again exactly when none of them is cut itself. -/
theorem cutLines_joinEnded_eq_iff (lines : List String) :
    cutLines (joinEnded lines) = lines ++ [""] ↔ ∀ line ∈ lines, ¬HoldsLineFeed line := by
  constructor
  · intro found line listed
    have part : line ∈ cutLines (joinEnded lines) := by
      rw [found]
      exact List.mem_append_left _ listed
    exact not_holdsLineFeed_of_mem_cutLines part
  · intro whole
    rw [cutLines_joinEnded]
    refine congrArg (· ++ [""]) ?_
    induction lines with
    | nil => rfl
    | cons line later ih =>
        obtain ⟨clear, clearLater⟩ := List.forall_mem_cons.mp whole
        rw [List.flatMap_cons, cutLines_of_not_holdsLineFeed clear, ih clearLater]
        rfl

end TestDelegation.Text
