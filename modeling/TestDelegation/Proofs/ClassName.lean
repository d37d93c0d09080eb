import TestDelegation.Proofs.Codec.Decoding
import TestDelegation.Proofs.Json.RoundTrip
import TestDelegation.Proofs.Settings
import TestDelegation.Runner

/-!
Class names and their segments. Main statement: `ClassName.made_of_segments`. A text is cut at its
points in one way only, so whatever is asked of a name can be read off any segments that join to it.
-/

namespace TestDelegation

theorem segments_eq_splitOn (chars : List Char) : segments chars = chars.splitOn '.' := by
  induction chars with
  | nil => rfl
  | cons char rest ih =>
      rw [segments, ih, List.splitOn_cons_eq_if_modifyHead]
      obtain ⟨first, later, cut⟩ := List.exists_cons_of_ne_nil (List.splitOn_ne_nil '.' rest)
      simp only [cut, List.modifyHead_cons]

theorem splitAtLast?_eq_none_iff {chars : List Char} :
    splitAtLast? chars = none ↔ '.' ∉ chars := by
  induction chars with
  | nil => simp [splitAtLast?]
  | cons char rest ih =>
      rw [splitAtLast?, List.mem_cons, not_or, ← ih]
      cases splitAtLast? rest with
      | some pieces => simp
      | none =>
          by_cases point : char = '.'
          · simp [point]
          · simp [point, Ne.symm point]

theorem splitAtLast?_append {after : List Char} (pointless : '.' ∉ after) (before : List Char) :
    splitAtLast? (before ++ '.' :: after) = some (before, after) := by
  induction before with
  | nil => simp [splitAtLast?, splitAtLast?_eq_none_iff.mpr pointless]
  | cons char rest ih => simp [splitAtLast?, ih]

theorem not_mem_of_mem_splitOn {chars part : List Char} (cut : part ∈ chars.splitOn '.') :
    '.' ∉ part := by
  induction chars generalizing part with
  | nil => simp_all
  | cons char rest ih =>
      rw [List.splitOn_cons_eq_if_modifyHead] at cut
      split at cut
      · rcases List.mem_cons.mp cut with rfl | later
        · exact List.not_mem_nil
        · exact ih later
      · rename_i shown
        obtain ⟨first, later, pieces⟩ := List.exists_cons_of_ne_nil (List.splitOn_ne_nil '.' rest)
        rw [pieces, List.modifyHead_cons, List.mem_cons] at cut
        rcases cut with rfl | inLater
        · have clear : '.' ∉ first := ih (by simp [pieces])
          exact List.not_mem_cons_of_ne_of_not_mem (by rintro rfl; exact shown (by decide)) clear
        · exact ih (by simp [pieces, inLater])

namespace ClassName

theorem point_toList : ".".toList = ['.'] := rfl

theorem toList_intercalate_point (parts : List String) :
    (".".intercalate parts).toList = ['.'].intercalate (parts.map String.toList) :=
  String.toList_intercalate

theorem segments_intercalate {parts : List String} (filled : parts ≠ [])
    (pointless : ∀ part ∈ parts, '.' ∉ part.toList) :
    segments (".".intercalate parts).toList = parts.map String.toList := by
  rw [segments_eq_splitOn, toList_intercalate_point, List.splitOn_intercalate]
  · simpa using pointless
  · simpa using filled

theorem exists_pointless (text : String) :
    ∃ parts : List String, parts ≠ [] ∧ text = ".".intercalate parts ∧
      ∀ part ∈ parts, '.' ∉ part.toList := by
  refine ⟨(text.toList.splitOn '.').map String.ofList, by simp, ?_, ?_⟩
  · apply String.toList_inj.mp
    simp
  · simpa using fun part => not_mem_of_mem_splitOn

theorem forall_mem_intercalate_iff {parts : List String} {keep : Char → Prop} (point : keep '.') :
    (∀ char ∈ (".".intercalate parts).toList, keep char) ↔
      ∀ part ∈ parts, ∀ char ∈ part.toList, keep char := by
  induction parts with
  | nil => simp
  | cons part rest ih =>
      cases rest with
      | nil => simp
      | cons next rest =>
          rw [String.intercalate_cons_cons, List.forall_mem_cons, ← ih]
          simp [or_imp, forall_and, point]

/-- Some text without points and blanks. -/
structure IsSegment (part : String) : Prop where
  filled : part ≠ ""
  pointless : '.' ∉ part.toList
  shown : ∀ char ∈ part.toList, Text.isBlank char = false

/-- The text is these segments with points between them. -/
structure JoinsTo (parts : List String) (text : String) : Prop where
  joined : text = ".".intercalate parts
  filled : parts ≠ []
  segments : ∀ part ∈ parts, IsSegment part

/-- What is wrong with a text: it is empty, else it holds a blank, else a piece of it is empty. -/
inductive Faulty : String → ClassNameFault → Prop
  | empty : Faulty "" .empty
  | blank {text : String} {char : Char} : char ∈ text.toList → Text.isBlank char = true →
      Faulty text .blank
  | emptySegment {text : String} {parts : List String} : text ≠ "" →
      (∀ char ∈ text.toList, Text.isBlank char = false) → text = ".".intercalate parts →
      (∀ part ∈ parts, '.' ∉ part.toList) → "" ∈ parts → Faulty text .emptySegment

theorem classNameFault?_of_filled {text : String} (filled : text ≠ "") :
    classNameFault? text =
      if text.toList.any Text.isBlank = true then some .blank
      else if [] ∈ segments text.toList then some .emptySegment else none := by
  have some : text.toList.isEmpty = false := by simpa using filled
  simp [classNameFault?, some]

theorem classNameFault?_eq_some_iff {text : String} {fault : ClassNameFault} :
    classNameFault? text = some fault ↔ Faulty text fault := by
  constructor
  · intro found
    by_cases empty : text = ""
    · subst empty
      obtain rfl : ClassNameFault.empty = fault := Option.some.inj found
      exact .empty
    · rw [classNameFault?_of_filled empty] at found
      split at found
      · rename_i blank
        obtain ⟨char, member, blank⟩ := List.any_eq_true.mp blank
        obtain rfl := Option.some.inj found
        exact .blank member blank
      · rename_i noBlank
        split at found
        · rename_i hollow
          obtain rfl := Option.some.inj found
          obtain ⟨parts, filled, rfl, pointless⟩ := exists_pointless text
          rw [segments_intercalate filled pointless] at hollow
          refine .emptySegment empty ?_ rfl pointless (by simpa using hollow)
          simpa using noBlank
        · cases found
  · intro faulty
    cases faulty with
    | empty => rfl
    | blank member blank =>
        have filled : text ≠ "" := by
          rintro rfl
          simp at member
        rw [classNameFault?_of_filled filled, if_pos (List.any_eq_true.mpr ⟨_, member, blank⟩)]
    | emptySegment filled noBlank joined pointless hollow =>
        rw [classNameFault?_of_filled filled, if_neg (by simpa using noBlank), joined,
          segments_intercalate (List.ne_nil_of_mem hollow) pointless, if_pos]
        exact List.mem_map.mpr ⟨"", hollow, rfl⟩

theorem JoinsTo.segments_eq {parts : List String} {text : String} (joins : JoinsTo parts text) :
    TestDelegation.segments text.toList = parts.map String.toList := by
  rw [joins.joined]
  exact segments_intercalate joins.filled fun part listed => (joins.segments part listed).pointless

theorem JoinsTo.text_ne_empty {parts : List String} {text : String} (joins : JoinsTo parts text) :
    text ≠ "" := by
  rintro rfl
  have whole := joins.segments_eq
  have hollow : [] ∈ parts.map String.toList := by
    rw [← whole]
    exact List.mem_singleton_self []
  obtain ⟨part, listed, nothing⟩ := List.mem_map.mp hollow
  exact (joins.segments part listed).filled (by simpa using nothing)

theorem classNameFault?_eq_none_iff {text : String} :
    classNameFault? text = none ↔ ∃ parts, JoinsTo parts text := by
  constructor
  · intro sound
    have filled : text ≠ "" := by
      rintro rfl
      cases sound
    obtain ⟨parts, some, rfl, pointless⟩ := exists_pointless text
    rw [classNameFault?_of_filled filled, segments_intercalate some pointless] at sound
    split at sound
    · cases sound
    · rename_i noBlank
      split at sound
      · cases sound
      · rename_i noHollow
        have shown := (forall_mem_intercalate_iff (by decide)).mp
          (show ∀ char ∈ (".".intercalate parts).toList, Text.isBlank char = false by
            simpa using noBlank)
        refine ⟨parts, rfl, some, fun part listed => ⟨?_, pointless part listed, shown part listed⟩⟩
        rintro rfl
        exact noHollow (List.mem_map.mpr ⟨"", listed, rfl⟩)
  · rintro ⟨parts, joins⟩
    have shown : ∀ char ∈ text.toList, Text.isBlank char = false := by
      rw [joins.joined, forall_mem_intercalate_iff (by decide)]
      exact fun part listed => (joins.segments part listed).shown
    have noHollow : [] ∉ parts.map String.toList := by
      simpa using fun listed => (joins.segments "" listed).filled rfl
    rw [classNameFault?_of_filled joins.text_ne_empty, if_neg (by simpa using shown),
      joins.segments_eq, if_neg noHollow]

theorem parse_eq_ok_iff {text : String} {name : ClassName} :
    parse text = .ok name ↔ name.text = text := by
  constructor
  · intro parsed
    rw [parse] at parsed
    split at parsed
    · obtain rfl := Except.ok.inj parsed
      rfl
    · cases parsed
  · rintro rfl
    rw [parse]
    split
    · rfl
    · rename_i found
      simp [name.sound] at found

theorem parse_eq_error_iff {text : String} {error : ClassNameError} :
    parse text = .error error ↔ error.input = text ∧ Faulty text error.fault := by
  rw [← classNameFault?_eq_some_iff, parse]
  split
  · rename_i found
    simp [found]
  · rename_i fault found
    rw [found, Except.error.injEq]
    obtain ⟨input, reported⟩ := error
    simp [eq_comm]

section Parts

variable {name : ClassName} {front : List String} {last : String}

theorem exists_joinsTo (name : ClassName) :
    ∃ (front : List String) (last : String), JoinsTo (front ++ [last]) name.text := by
  obtain ⟨parts, joins⟩ := classNameFault?_eq_none_iff.mp name.sound
  have whole := List.dropLast_append_getLast joins.filled
  exact ⟨parts.dropLast, parts.getLast joins.filled, whole.symm ▸ joins⟩

theorem splitAtLast?_of_joinsTo (joins : JoinsTo (front ++ [last]) name.text) :
    splitAtLast? name.text.toList =
      if front = [] then none else some ((".".intercalate front).toList, last.toList) := by
  have pointless := (joins.segments last (by simp)).pointless
  split
  · rename_i alone
    have whole : name.text = last := by simpa [alone] using joins.joined
    rwa [whole, splitAtLast?_eq_none_iff]
  · rename_i inPackage
    rw [joins.joined, String.intercalate_append_of_ne_nil inPackage (by simp),
      String.intercalate_singleton, String.toList_append, String.toList_append, point_toList,
      List.append_assoc, List.singleton_append, splitAtLast?_append pointless]

theorem package_of_joinsTo (joins : JoinsTo (front ++ [last]) name.text) :
    name.package = ".".intercalate front := by
  rw [package, splitAtLast?_of_joinsTo joins]
  by_cases alone : front = []
  · rw [if_pos alone, alone]
    rfl
  · rw [if_neg alone]
    exact String.ofList_toList

theorem simpleName_of_joinsTo (joins : JoinsTo (front ++ [last]) name.text) :
    name.simpleName = last := by
  rw [simpleName, splitAtLast?_of_joinsTo joins]
  by_cases alone : front = []
  · rw [if_pos alone]
    simpa [alone] using joins.joined
  · rw [if_neg alone]
    exact String.ofList_toList

theorem topLevelNamespace_of_joinsTo (joins : JoinsTo (front ++ [last]) name.text) :
    name.topLevelNamespace = front.headD "" := by
  rw [topLevelNamespace, package_of_joinsTo joins]
  cases front with
  | nil => rfl
  | cons first later =>
      rw [segments_intercalate (List.cons_ne_nil first later) fun part listed =>
        (joins.segments part (List.mem_append_left _ listed)).pointless]
      exact String.ofList_toList

theorem package_eq_empty_iff (joins : JoinsTo (front ++ [last]) name.text) :
    name.package = "" ↔ front = [] := by
  rw [package_of_joinsTo joins]
  constructor
  · intro nothing
    cases front with
    | nil => rfl
    | cons first later =>
        have filled := (joins.segments first (by simp)).filled
        cases later with
        | nil => exact absurd (by simpa using nothing) filled
        | cons second later => simp at nothing
  · rintro rfl
    rfl

theorem topLevelNamespace_eq_iff {required : String} (asked : required ≠ "") :
    name.topLevelNamespace = required ↔
      '.' ∉ required.toList ∧ ∃ rest, name.text = required ++ "." ++ rest := by
  obtain ⟨front, last, joins⟩ := exists_joinsTo name
  rw [topLevelNamespace_of_joinsTo joins]
  cases front with
  | nil =>
      have joined : name.text = last := by simpa using joins.joined
      have pointless := (joins.segments last (by simp)).pointless
      refine iff_of_false (fun same => asked same.symm) ?_
      rintro ⟨_, rest, begins⟩
      rw [← joined, begins] at pointless
      simp at pointless
  | cons first later =>
      have pointless := (joins.segments first (by simp)).pointless
      have joined : name.text = first ++ "." ++ ".".intercalate (later ++ [last]) := by
        rw [joins.joined, List.cons_append, String.intercalate_cons_of_ne_nil (by simp)]
      constructor
      · rintro rfl
        exact ⟨pointless, _, joined⟩
      · rintro ⟨also, rest, begins⟩
        have cut := congrArg (fun text : String => text.toList.splitOn '.')
          (joined.symm.trans begins)
        simp only [String.append_assoc, String.toList_append, point_toList, List.singleton_append,
          List.splitOn_append_cons_self_of_not_mem pointless,
          List.splitOn_append_cons_self_of_not_mem also] at cut
        exact String.toList_inj.mp (List.cons.inj cut).1

theorem text_eq_rebuilt (name : ClassName) :
    name.text = if name.package = "" then name.simpleName
      else name.package ++ "." ++ name.simpleName := by
  obtain ⟨front, last, joins⟩ := exists_joinsTo name
  rw [simpleName_of_joinsTo joins, joins.joined]
  by_cases inPackage : front = []
  · rw [if_pos ((package_eq_empty_iff joins).mpr inPackage), inPackage, List.nil_append,
      String.intercalate_singleton]
  · rw [if_neg fun nothing => inPackage ((package_eq_empty_iff joins).mp nothing),
      package_of_joinsTo joins, String.intercalate_append_of_ne_nil inPackage (by simp),
      String.intercalate_singleton]

end Parts

def readAs (text : String) : Except ReadError ClassName :=
  (parse text).mapError fun error => .shape (.refused error.message)

theorem className_string (text : String) :
    Decoder.className (Scan.ofJson (.string text)) = readAs text := by
  simp only [Decoder.className, Decoder.string, Scan.ofJson, readAs]
  cases parse text <;> rfl

theorem checkNamespace_eq_ok_iff (runner : Runner) :
    runner.checkNamespace = .ok () ↔ runner.settings.Admits runner.className := by
  constructor
  · intro passed
    by_contra outside
    rw [Runner.checkNamespace, Settings.checkNamespace_of_not_admits outside] at passed
    cases passed
  · exact Settings.checkNamespace_of_admits

theorem admits_iff {settings : Settings} {name : ClassName} :
    settings.Admits name ↔ settings.requiredNamespace = "" ∨
      '.' ∉ settings.requiredNamespace.toList ∧
        ∃ rest, name.text = settings.requiredNamespace ++ "." ++ rest := by
  by_cases asked : settings.requiredNamespace = ""
  · simp [Settings.Admits, asked]
  · rw [Settings.Admits, topLevelNamespace_eq_iff asked]

/--
A text is a name exactly if it is made of segments; the first fault is the one reported, read from
a payload too. The segments decide what the package, the simple name and the namespace are, and
whether a runner may be used for the class.
-/
theorem made_of_segments :
    (∀ text : String,
      ((∃ name, parse text = .ok name) ↔ ∃ parts, JoinsTo parts text) ∧
      (∀ name, parse text = .ok name ↔ name.text = text) ∧
      (∀ error, parse text = .error error ↔ error.input = text ∧ Faulty text error.fault) ∧
      (∀ payload, Json.parse payload = .ok (.string text) →
        Decoder.ofText (fun _ => Decoder.className) payload = readAs text) ∧
      Decoder.ofJson (fun _ => Decoder.className) (.string text) = readAs text) ∧
    (∀ name : ClassName,
      Decoder.ofText (fun _ => Decoder.className) (Json.string name.text).render = .ok name ∧
      (∃ front last, JoinsTo (front ++ [last]) name.text) ∧
      (∀ front last, JoinsTo (front ++ [last]) name.text →
        name.package = ".".intercalate front ∧ name.simpleName = last ∧
          name.topLevelNamespace = front.headD "") ∧
      name.text = if name.package = "" then name.simpleName
        else name.package ++ "." ++ name.simpleName) ∧
    ∀ runner : Runner, runner.checkNamespace = .ok () ↔
      runner.settings.requiredNamespace = "" ∨
      '.' ∉ runner.settings.requiredNamespace.toList ∧
        ∃ rest, runner.className.text = runner.settings.requiredNamespace ++ "." ++ rest := by
  have read : ∀ text payload, Json.parse payload = .ok (.string text) →
      Decoder.ofText (fun _ => Decoder.className) payload = readAs text := by
    intro text payload parsed
    rw [Decoder.ofText_eq parsed, className_string]
  refine ⟨fun text => ⟨?_, fun name => parse_eq_ok_iff, fun error => parse_eq_error_iff,
    read text, className_string text⟩, fun name => ⟨?_, exists_joinsTo name, ?_,
    text_eq_rebuilt name⟩, fun runner => (checkNamespace_eq_ok_iff runner).trans admits_iff⟩
  · rw [← classNameFault?_eq_none_iff]
    constructor
    · rintro ⟨name, parsed⟩
      rw [← parse_eq_ok_iff.mp parsed]
      exact name.sound
    · exact fun sound => ⟨⟨text, sound⟩, parse_eq_ok_iff.mpr rfl⟩
  · rw [read name.text _ (Json.parse_render (.string _) (by simp [Json.depth])), readAs,
      parse_eq_ok_iff.mpr rfl]
    rfl
  · exact fun front last joins => ⟨package_of_joinsTo joins, simpleName_of_joinsTo joins,
      topLevelNamespace_of_joinsTo joins⟩

def escapedName : String := "\"it.jira.\\u0054est\""

theorem made_of_segments_escapedName :
    Json.parse escapedName = .ok (.string "it.jira.Test") ∧
      JoinsTo (["it", "jira"] ++ ["Test"]) "it.jira.Test" ∧
      ∃ name, Decoder.ofText (fun _ => Decoder.className) escapedName = .ok name ∧
        name.package = "it.jira" ∧ name.simpleName = "Test" ∧ name.topLevelNamespace = "it" := by
  have parsed : Json.parse escapedName = .ok (.string "it.jira.Test") := by rfl
  have each : ∀ part ∈ ["it", "jira", "Test"], part ≠ "" ∧ '.' ∉ part.toList ∧
      ∀ char ∈ part.toList, Text.isBlank char = false := by simp [Text.isBlank]
  have joins : JoinsTo (["it", "jira"] ++ ["Test"]) "it.jira.Test" :=
    ⟨by decide, by decide, fun part listed =>
      ⟨(each part listed).1, (each part listed).2.1, (each part listed).2.2⟩⟩
  obtain ⟨texts, names, _⟩ := made_of_segments
  obtain ⟨accepted, same, _, read, _⟩ := texts "it.jira.Test"
  obtain ⟨name, found⟩ := accepted.mpr ⟨_, joins⟩
  have whole := (same name).mp found
  obtain ⟨_, _, parts, _⟩ := names name
  obtain ⟨package, simpleName, topLevel⟩ := parts ["it", "jira"] "Test" (whole ▸ joins)
  refine ⟨parsed, joins, name, ?_, package.trans (by decide), simpleName, topLevel⟩
  rw [read _ parsed, readAs, found]
  rfl

end ClassName

end TestDelegation
