import Mathlib.Data.List.Basic
import TestDelegation.Proofs.Text.Lines
import TestDelegation.Report.Junit

/-!
The text of a cause in a report. Main statement: `renderCause_composes`, a cause is rendered before
the one nested in it, and each throwable and each of its frames has its line once, in their order.
-/

namespace TestDelegation

def introduction (level : Nat) : String := if 0 < level then "caused by: " else ""

def appendThrown (text : String) (entry : Thrown × Nat) : String :=
  entry.1.stackTrace.foldl (fun text frame => text ++ ("    " ++ frame.display ++ "\n"))
    (text ++ introduction entry.2 ++ entry.1.display ++ "\n")

theorem foldl_append_eq_join {α : Type} (part : α → String) (text : String) (items : List α) :
    items.foldl (fun text item => text ++ part item) text =
      text ++ String.join (items.map part) := by
  induction items generalizing text with
  | nil => simp
  | cons item later ih =>
      rw [List.foldl_cons, ih, List.map_cons, String.join_cons, String.append_assoc]

theorem appendThrown_eq (text : String) (entry : Thrown × Nat) :
    appendThrown text entry = text ++ (introduction entry.2 ++ renderThrown entry.1) := by
  rw [appendThrown, foldl_append_eq_join, renderThrown]
  simp only [String.append_assoc]

namespace FailureCause

theorem chain_eq (cause : FailureCause) :
    cause.chain = cause.outer :: cause.inner?.elim [] chain := by
  obtain ⟨outer, nested⟩ := cause
  cases nested with
  | nil => rfl
  | cons next later => rfl

theorem renderCause_eq_join (cause : FailureCause) :
    renderCause cause = String.join (cause.chain.zipIdx.map fun entry =>
      introduction entry.2 ++ renderThrown entry.1) := by
  -- below the outermost every throwable is introduced alike, whatever its level
  have nested : ∀ (later : List Thrown) (level : Nat), 0 < level →
      (later.zipIdx level).map (fun entry => introduction entry.2 ++ renderThrown entry.1) =
        later.map fun thrown => "caused by: " ++ renderThrown thrown := by
    intro later
    induction later with
    | nil => intro level deep; rfl
    | cons thrown later ih =>
        intro level deep
        rw [List.zipIdx_cons, List.map_cons, List.map_cons, ih (level + 1) (Nat.succ_pos level),
          introduction, if_pos deep]
  rw [chain, List.zipIdx_cons, List.map_cons, String.join_cons, nested _ _ (Nat.succ_pos 0)]
  rw [introduction, if_neg (Nat.lt_irrefl 0), String.empty_append, renderCause]

theorem renderCause_eq_foldl (cause : FailureCause) :
    renderCause cause = cause.chain.zipIdx.foldl appendThrown "" := by
  have step : appendThrown = fun text entry =>
      text ++ (introduction entry.2 ++ renderThrown entry.1) :=
    funext fun text => funext fun entry => appendThrown_eq text entry
  rw [step, foldl_append_eq_join, String.empty_append, renderCause_eq_join]

theorem renderCause_of_inner {cause inner : FailureCause} (nested : cause.inner? = some inner) :
    renderCause cause = renderCause cause.withoutCause ++ "caused by: " ++ renderCause inner := by
  obtain ⟨outer, deeper⟩ := cause
  cases deeper with
  | nil => cases nested
  | cons next later =>
      obtain rfl := Option.some.inj nested
      simp [renderCause, withoutCause, String.append_assoc]

end FailureCause

/-- A throwable by its level, or one of its frames. -/
inductive CausePlace where
  | thrown (level : Nat)
  | frame (level index : Nat)

namespace CausePlace

def level : CausePlace → Nat
  | thrown level => level
  | frame level _ => level

inductive Before : CausePlace → CausePlace → Prop
  | level {first second : CausePlace} : first.level < second.level → Before first second
  | frames (level index : Nat) : Before (thrown level) (frame level index)
  | frame (level : Nat) {first second : Nat} : first < second →
      Before (frame level first) (frame level second)

theorem Before.irrefl {place : CausePlace} (before : Before place place) : False := by
  cases before with
  | level less => exact Nat.lt_irrefl _ less
  | frame _ less => exact Nat.lt_irrefl _ less

end CausePlace

theorem pairwise_zipIdx {α : Type} (items : List α) :
    items.zipIdx.Pairwise fun first second => first.2 < second.2 := by
  apply List.pairwise_map.mp
  rw [List.zipIdx_map_snd]
  exact List.pairwise_lt_range'

namespace FailureCause

/-- The line for a place, if the cause has that. -/
def lineAt? (cause : FailureCause) : CausePlace → Option String
  | .thrown level => cause.chain[level]?.map fun thrown => introduction level ++ thrown.display
  | .frame level index => cause.chain[level]?.bind fun thrown =>
      thrown.stackTrace[index]?.map fun frame => "    " ++ frame.display

def placesAt (entry : Thrown × Nat) : List CausePlace :=
  .thrown entry.2 :: entry.1.stackTrace.zipIdx.map fun frame => .frame entry.2 frame.2

def places (cause : FailureCause) : List CausePlace := cause.chain.zipIdx.flatMap placesAt

def linesAt (entry : Thrown × Nat) : List String :=
  (introduction entry.2 ++ entry.1.display) ::
    entry.1.stackTrace.map fun frame => "    " ++ frame.display

theorem level_of_mem_placesAt {entry : Thrown × Nat} {place : CausePlace}
    (listed : place ∈ placesAt entry) : place.level = entry.2 := by
  rcases List.mem_cons.mp listed with rfl | frame
  · rfl
  · obtain ⟨_, _, rfl⟩ := List.mem_map.mp frame
    rfl

theorem pairwise_placesAt (entry : Thrown × Nat) :
    (placesAt entry).Pairwise CausePlace.Before := by
  refine List.pairwise_cons.mpr ⟨?_, List.pairwise_map.mpr ?_⟩
  · intro place listed
    obtain ⟨frame, _, rfl⟩ := List.mem_map.mp listed
    exact .frames entry.2 frame.2
  · exact (pairwise_zipIdx entry.1.stackTrace).imp (.frame entry.2)

theorem pairwise_places (cause : FailureCause) : cause.places.Pairwise CausePlace.Before := by
  refine List.pairwise_flatMap.mpr ⟨fun entry _ => pairwise_placesAt entry, ?_⟩
  refine (pairwise_zipIdx cause.chain).imp ?_
  intro outer inner deeper place listed other otherListed
  refine .level ?_
  rw [level_of_mem_placesAt listed, level_of_mem_placesAt otherListed]
  exact deeper

theorem nodup_places (cause : FailureCause) : cause.places.Nodup := by
  refine cause.pairwise_places.imp ?_
  rintro place _ before rfl
  exact before.irrefl

theorem mem_places_iff (cause : FailureCause) (place : CausePlace) :
    place ∈ cause.places ↔ (cause.lineAt? place).isSome = true := by
  rw [Option.isSome_iff_exists, places, List.mem_flatMap]
  cases place with
  | thrown level =>
      simp [placesAt, lineAt?, List.mk_mem_zipIdx_iff_getElem?]
  | frame level index =>
      cases found : cause.chain[level]? with
      | none => simp [placesAt, lineAt?, List.mk_mem_zipIdx_iff_getElem?, found]
      | some thrown => simp [placesAt, lineAt?, List.mk_mem_zipIdx_iff_getElem?, found]

theorem filterMap_placesAt {cause : FailureCause} {entry : Thrown × Nat}
    (listed : entry ∈ cause.chain.zipIdx) :
    (placesAt entry).filterMap cause.lineAt? = linesAt entry := by
  have found : cause.chain[entry.2]? = some entry.1 := List.mk_mem_zipIdx_iff_getElem?.mp listed
  have lines : ∀ frame ∈ entry.1.stackTrace.zipIdx,
      cause.lineAt? (.frame entry.2 frame.2) = some ("    " ++ frame.1.display) := by
    intro frame framed
    have known : entry.1.stackTrace[frame.2]? = some frame.1 :=
      List.mk_mem_zipIdx_iff_getElem?.mp framed
    rw [lineAt?, found, Option.bind_some, known, Option.map_some]
  have frames : (entry.1.stackTrace.zipIdx.map fun frame =>
      CausePlace.frame entry.2 frame.2).filterMap cause.lineAt? =
        entry.1.stackTrace.map fun frame => "    " ++ frame.display :=
    calc (entry.1.stackTrace.zipIdx.map fun frame =>
          CausePlace.frame entry.2 frame.2).filterMap cause.lineAt?
      _ = entry.1.stackTrace.zipIdx.filterMap (some ∘ fun frame => "    " ++ frame.1.display) := by
        rw [List.filterMap_map]
        exact List.filterMap_congr lines
      _ = (entry.1.stackTrace.zipIdx.map Prod.fst).map fun frame => "    " ++ frame.display := by
        rw [List.filterMap_eq_map, List.map_map]
        rfl
      _ = entry.1.stackTrace.map fun frame => "    " ++ frame.display := by
        rw [List.zipIdx_map_fst]
  rw [placesAt, List.filterMap_cons, lineAt?, found, frames]
  rfl

theorem filterMap_places (cause : FailureCause) :
    cause.places.filterMap cause.lineAt? = cause.chain.zipIdx.flatMap linesAt := by
  rw [places, List.filterMap_flatMap, List.flatMap, List.flatMap]
  exact congrArg _ (List.map_congr_left fun entry listed => filterMap_placesAt listed)

theorem joinEnded_linesAt (entry : Thrown × Nat) :
    Text.joinEnded (linesAt entry) = introduction entry.2 ++ renderThrown entry.1 := by
  have frames : Text.joinEnded (entry.1.stackTrace.map fun frame => "    " ++ frame.display) =
      String.join (entry.1.stackTrace.map fun frame => "    " ++ frame.display ++ "\n") := by
    rw [Text.joinEnded, List.map_map]
    rfl
  rw [linesAt, Text.joinEnded_cons, frames, renderThrown]
  simp only [String.append_assoc]

theorem renderCause_eq_joinEnded (cause : FailureCause) :
    renderCause cause = Text.joinEnded (cause.places.filterMap cause.lineAt?) := by
  rw [renderCause_eq_join, filterMap_places, Text.joinEnded_flatMap]
  exact congrArg _ (List.map_congr_left fun entry _ => (joinEnded_linesAt entry).symm)

theorem exists_renderCause_eq (cause : FailureCause) :
    ∃ front, renderCause cause = front ++ "\n" := by
  rw [renderCause_eq_joinEnded, filterMap_places, chain, List.zipIdx_cons, List.flatMap_cons,
    linesAt]
  exact Text.exists_joinEnded_eq (List.cons_ne_nil _ _)

/--
The text of a cause is that of its own level, and after an introduction that of the nested cause.
Every throwable and every frame has its line once, outer levels first.
-/
theorem renderCause_composes (cause : FailureCause) :
    cause.chain = cause.outer :: cause.inner?.elim [] chain ∧
    renderCause cause = cause.chain.zipIdx.foldl appendThrown "" ∧
    (∀ inner, cause.inner? = some inner →
      renderCause cause = renderCause cause.withoutCause ++ "caused by: " ++ renderCause inner) ∧
    (∃ places : List CausePlace, places.Pairwise CausePlace.Before ∧ places.Nodup ∧
      (∀ place, place ∈ places ↔ (cause.lineAt? place).isSome = true) ∧
      renderCause cause = Text.joinEnded (places.filterMap cause.lineAt?)) ∧
    (∃ front, renderCause cause = front ++ "\n") ∧ renderCause cause ≠ "" := by
  obtain ⟨front, ended⟩ := cause.exists_renderCause_eq
  refine ⟨cause.chain_eq, cause.renderCause_eq_foldl, fun inner => renderCause_of_inner,
    ⟨cause.places, cause.pairwise_places, cause.nodup_places, cause.mem_places_iff,
      cause.renderCause_eq_joinEnded⟩, ⟨front, ended⟩, ?_⟩
  rw [ended]
  simp

def saveFrame : StackFrame := ⟨"it.Store", "save", some "Store.kt", .zero 32⟩

def diskFull : FailureCause :=
  ⟨⟨some "java.io.IOException", some "disk full", [saveFrame]⟩, [⟨none, some "no\nspace", []⟩]⟩

def cannotSave : FailureCause :=
  (new "java.lang.IllegalStateException" "cannot save").withCause diskFull

theorem renderCause_composes_cannotSave :
    cannotSave.inner? = some diskFull ∧
      renderCause cannotSave =
        "java.lang.IllegalStateException: cannot save\n" ++ "caused by: " ++ renderCause diskFull ∧
      renderCause diskFull = "java.io.IOException: disk full\n" ++
        "    at it.Store.save(Store.kt:0)\n" ++ "caused by: no\nspace\n" :=
  ⟨rfl, (renderCause_composes cannotSave).2.2.1 diskFull rfl, by decide⟩

end FailureCause

end TestDelegation
