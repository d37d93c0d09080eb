import TestDelegation.Payload.Encoder
import TestDelegation.Proofs.Json.RoundTrip
import TestDelegation.Proofs.Payload.Spelling

/-!
What an encoded payload is as a JSON value. Main statements: `ResultDetail.spelledBy_encode`, an
encoded payload spells itself, and `ResultDetail.clean_encode`, it repeats no key and holds no
number that is lost when it is printed.
-/

namespace TestDelegation

variable {α : Type}

theorem RemoteDescription.induct {motive : RemoteDescription → Prop}
    (step : ∀ displayName annotations testClass children,
      (∀ child ∈ children, motive child) →
        motive ⟨displayName, annotations, testClass, children⟩) : ∀ described, motive described := by
  refine @RemoteDescription.rec motive (fun children => ∀ child ∈ children, motive child) ?_ ?_ ?_
  · exact step
  · simp
  · intro child rest first later
    exact List.forall_mem_cons.mpr ⟨first, later⟩

theorem RemoteDescription.encodeAll_eq_map (children : List RemoteDescription) :
    encode.encodeAll children = children.map encode := by
  induction children with
  | nil => rfl
  | cons child rest ih => simp [encode.encodeAll, ih]

theorem RemoteDescription.childrenMember_eq (children : List RemoteDescription) :
    encode.childrenMember children = listMember "fChildren" encode children := by
  cases children with
  | nil => rfl
  | cons child rest => simp [encode.childrenMember, encodeAll_eq_map, listMember]

theorem membersNamed_nil (names : List String) : membersNamed names [] = [] := rfl

theorem membersNamed_cons (names : List String) (key : String) (value : Json)
    (rest : List (String × Json)) : membersNamed names ((key, value) :: rest) =
      if key ∈ names then (key, value) :: membersNamed names rest else membersNamed names rest := by
  simp [membersNamed, List.filter_cons]

theorem membersNamed_append (names : List String) (first second : List (String × Json)) :
    membersNamed names (first ++ second) =
      membersNamed names first ++ membersNamed names second :=
  List.filter_append first second

theorem membersNamed_optionalMember (names : List String) (key : String) (encode : α → Json)
    (value : Option α) : membersNamed names (optionalMember key encode value) =
      if key ∈ names then optionalMember key encode value else [] := by
  cases value with
  | none => simp [optionalMember, membersNamed]
  | some _ => simp [optionalMember, membersNamed_cons, membersNamed_nil]

theorem membersNamed_listMember (names : List String) (key : String) (encode : α → Json)
    (items : List α) : membersNamed names (listMember key encode items) =
      if key ∈ names then listMember key encode items else [] := by
  cases items with
  | nil => simp [listMember, membersNamed]
  | cons _ _ => simp [listMember, membersNamed_cons, membersNamed_nil]

theorem spellsField_of_single {names : List String} {members : List (String × Json)}
    {leftOut : Prop} {spells : Json → Prop} (key : String) {value : Json}
    (named : membersNamed names members = [(key, value)]) (spelled : spells value) :
    SpellsField names members leftOut spells :=
  .inr ⟨(key, value), named, spelled⟩

theorem spellsField_of_optional {names : List String} {members : List (String × Json)}
    {spells : α → Json → Prop} (key : String) {encode : α → Json} {value : Option α}
    (named : membersNamed names members = optionalMember key encode value)
    (spelled : ∀ inner ∈ value, spells inner (encode inner)) :
    SpellsField names members (value = none) (SpellsOption spells value) := by
  cases value with
  | none => exact .inl ⟨named, rfl⟩
  | some inner => exact .inr ⟨(key, encode inner), named, spelled inner rfl⟩

theorem spellsList_map {spells : α → Json → Prop} {encode : α → Json} {items : List α}
    (spelled : ∀ item ∈ items, spells item (encode item)) :
    SpellsList spells items (.array (items.map encode)) :=
  ⟨_, rfl, List.forall₂_map_right_iff.mpr (List.forall₂_same.mpr spelled)⟩

theorem spellsList_texts (texts : List String) :
    SpellsList SpellsText texts (.array (texts.map .string)) :=
  spellsList_map fun _ _ => rfl

theorem spellsField_of_list {names : List String} {members : List (String × Json)}
    {spells : α → Json → Prop} (key : String) {encode : α → Json} {items : List α}
    (named : membersNamed names members = listMember key encode items)
    (spelled : ∀ item ∈ items, spells item (encode item)) :
    SpellsField names members (items = []) (SpellsList spells items) := by
  cases items with
  | nil => exact .inl ⟨named, rfl⟩
  | cons first rest => exact .inr ⟨_, named, spellsList_map spelled⟩

attribute [local simp] membersNamed_nil membersNamed_cons membersNamed_append
  membersNamed_optionalMember membersNamed_listMember

theorem SignedWord.spelledBy_encode {bits : Nat} (word : SignedWord bits) :
    word.SpelledBy word.encode := rfl

theorem SignedWord.countedBy_encode {bits : Nat} (word : SignedWord bits) :
    word.CountedBy word.encode := .inl rfl

theorem Annotation.spelledBy_encode (mark : Annotation) : mark.SpelledBy mark.encode :=
  .inr ⟨_, rfl, spellsField_of_single "annotationType" (by simp) rfl⟩

theorem ClassLiteral.spelledBy_encode (literal : ClassLiteral) :
    literal.SpelledBy literal.encode := .inl rfl

theorem StackFrame.spelledBy_encode (frame : StackFrame) : frame.SpelledBy frame.encode := by
  refine ⟨_, rfl, ?_, ?_, ?_, ?_⟩
  · exact spellsField_of_single "declaringClass" (by simp) rfl
  · exact spellsField_of_single "methodName" (by simp) rfl
  · exact spellsField_of_optional "fileName" (by simp) fun _ _ => rfl
  · exact spellsField_of_single "lineNumber" (by simp) frame.lineNumber.spelledBy_encode

theorem Thrown.spelledByMembers_members (thrown : Thrown) {later : List (String × Json)}
    (apart : ∀ names, "cause" ∉ names → membersNamed names later = []) :
    thrown.SpelledByMembers (thrown.members ++ later) := by
  refine ⟨?_, ?_, ?_⟩
  · exact spellsField_of_optional "type" (by simp [members, apart]) fun _ _ => rfl
  · exact spellsField_of_optional "message" (by simp [members, apart]) fun _ _ => rfl
  · exact spellsField_of_list "stackTrace" (by simp [members, apart])
      fun frame _ => frame.spelledBy_encode

theorem Thrown.spelledBy_encode (thrown : Thrown) (nested : List Thrown) :
    thrown.SpelledBy nested (thrown.encode nested) := by
  induction nested generalizing thrown with
  | nil =>
      refine ⟨thrown.members, rfl, ?_, .inl ⟨by simp [members], trivial⟩⟩
      have fields := @spelledByMembers_members thrown [] (by simp)
      rwa [List.append_nil] at fields
  | cons inner nested ih =>
      refine ⟨thrown.members ++ [("cause", inner.encode nested)], rfl, ?_, ?_⟩
      · exact thrown.spelledByMembers_members fun names other => by simp [other]
      · exact spellsField_of_single "cause" (by simp [members]) (ih inner)

theorem FailureCause.spelledBy_encode (cause : FailureCause) : cause.SpelledBy cause.encode :=
  cause.outer.spelledBy_encode cause.nested

theorem RemoteDescription.spelledBy_encode (described : RemoteDescription) :
    described.SpelledBy described.encode := by
  induction described using RemoteDescription.induct with
  | step displayName annotations testClass children ih =>
      refine spelledBy_iff.mpr ⟨_, rfl, ?_, ?_, ?_, ?_⟩
      · exact spellsField_of_single "fDisplayName" (by simp [childrenMember_eq]) rfl
      · exact spellsField_of_list "fAnnotations" (by simp [childrenMember_eq])
          fun mark _ => mark.spelledBy_encode
      · exact spellsField_of_optional "fTestClass" (by simp [childrenMember_eq])
          fun literal _ => literal.spelledBy_encode
      · exact spellsField_of_list "fChildren" (by simp [childrenMember_eq]) ih

theorem RemoteFailure.spelledBy_encode (failure : RemoteFailure) :
    failure.SpelledBy failure.encode := by
  refine ⟨_, rfl, ?_, ?_⟩
  · exact spellsField_of_optional "description" (by simp)
      fun described _ => described.spelledBy_encode
  · exact spellsField_of_single "cause" (by simp) failure.cause.spelledBy_encode

theorem RunSummary.spelledBy_encode (summary : RunSummary) : summary.SpelledBy summary.encode := by
  refine ⟨_, rfl, ?_, ?_, ?_, ?_, ?_⟩
  · exact spellsField_of_single "count" (by simp) summary.count.countedBy_encode
  · exact spellsField_of_single "ignoreCount" (by simp) summary.ignoreCount.countedBy_encode
  · exact spellsField_of_single "runTime" (by simp) summary.runTime.countedBy_encode
  · exact spellsField_of_single "startTime" (by simp) summary.startTime.countedBy_encode
  · exact spellsField_of_list "failures" (by simp) fun failure _ => failure.spelledBy_encode

theorem RunSummary.maybeSpelledBy_encode (summary : Option RunSummary) :
    MaybeSpelledBy summary (encodeMaybe RunSummary.encode summary) := by
  cases summary with
  | none =>
      refine .inr ⟨_, rfl, ?_, .inl ⟨by simp, trivial⟩⟩
      exact spellsField_of_single "present" (by simp) rfl
  | some summary =>
      refine ⟨_, rfl, ?_, ?_⟩
      · exact spellsField_of_single "present" (by simp) rfl
      · exact spellsField_of_single "value" (by simp) summary.spelledBy_encode

theorem SortedMap.spelledBy_encode {spells : α → Json → Prop} {encode : α → Json}
    (spelled : ∀ value, spells value (encode value)) (map : SortedMap α) :
    SpellsMap spells map (map.encode encode) := by
  refine ⟨_, map.entries, rfl, List.Perm.refl _, ?_⟩
  exact List.forall₂_map_right_iff.mpr
    (List.forall₂_same.mpr fun entry _ => ⟨rfl, spelled entry.2⟩)

theorem ResultDetail.spelledBy_encode (detail : ResultDetail) : detail.SpelledBy detail.encode := by
  refine ⟨_, rfl, ?_, ?_, ?_, ?_, ?_⟩
  · exact spellsField_of_optional "classname" (by simp) fun _ _ => rfl
  · exact spellsField_of_single "testResult" (by simp)
      (RunSummary.maybeSpelledBy_encode detail.testResult)
  · exact spellsField_of_single "passedMethods" (by simp) (spellsList_texts detail.passedMethods)
  · exact spellsField_of_single "ignoredMethods" (by simp)
      (spellsList_texts detail.ignoredMethods)
  · exact spellsField_of_single "failedMethods" (by simp)
      (SortedMap.spelledBy_encode RemoteFailure.spelledBy_encode detail.failedMethods)

/-- Values of one sort under some of the names, in their order. -/
structure NamedMembers (holds : Json → Prop) (names : List String)
    (members : List (String × Json)) : Prop where
  listed : (members.map Prod.fst).Sublist names
  each : ∀ member ∈ members, holds member.2

namespace NamedMembers

variable {holds : Json → Prop}

theorem nil : NamedMembers holds [] [] := ⟨List.Sublist.refl _, by simp⟩

theorem cons {names : List String} {key : String} {value : Json} {rest : List (String × Json)}
    (first : holds value) (later : NamedMembers holds names rest) :
    NamedMembers holds (key :: names) ((key, value) :: rest) :=
  ⟨later.listed.cons_cons key, List.forall_mem_cons.mpr ⟨first, later.each⟩⟩

theorem append {firstNames secondNames : List String} {first second : List (String × Json)}
    (before : NamedMembers holds firstNames first)
    (after : NamedMembers holds secondNames second) :
    NamedMembers holds (firstNames ++ secondNames) (first ++ second) := by
  refine ⟨?_, fun member found => ?_⟩
  · rw [List.map_append]
    exact before.listed.append after.listed
  · rcases List.mem_append.mp found with inFirst | inSecond
    · exact before.each member inFirst
    · exact after.each member inSecond

theorem optional (holds : Json → Prop) (key : String) {encode : α → Json} (value : Option α)
    (each : ∀ inner ∈ value, holds (encode inner)) :
    NamedMembers holds [key] (optionalMember key encode value) := by
  cases value with
  | none => exact ⟨List.nil_sublist _, by simp [optionalMember]⟩
  | some inner => exact .cons (each inner rfl) .nil

theorem list (holds : Json → Prop) (key : String) {encode : α → Json} {items : List α}
    (whole : holds (.array (items.map encode))) :
    NamedMembers holds [key] (listMember key encode items) := by
  cases items with
  | nil => exact ⟨List.nil_sublist _, by simp [listMember]⟩
  | cons first rest => exact .cons whole .nil

end NamedMembers

/-- No key is repeated and no number is lost when the value is printed. -/
structure Json.Clean (value : Json) : Prop where
  exact : value.Exact
  distinct : value.DistinctKeys

namespace Json

theorem clean_string (text : String) : (Json.string text).Clean := ⟨.string text, .string text⟩

theorem clean_bool (value : Bool) : (Json.bool value).Clean := ⟨.bool value, .bool value⟩

theorem clean_array {items : List Json} (each : ∀ item ∈ items, item.Clean) :
    (Json.array items).Clean :=
  ⟨.array fun item member => (each item member).exact,
    .array fun item member => (each item member).distinct⟩

theorem clean_array_map {encode : α → Json} {items : List α}
    (each : ∀ item ∈ items, (encode item).Clean) : (Json.array (items.map encode)).Clean :=
  clean_array (List.forall_mem_map.mpr each)

theorem clean_texts (texts : List String) : (Json.array (texts.map .string)).Clean :=
  clean_array_map fun text _ => clean_string text

theorem clean_object (names : List String) {members : List (String × Json)}
    (apart : names.Nodup) (named : NamedMembers Clean names members) :
    (Json.object members).Clean :=
  ⟨.object fun member found => (named.each member found).exact,
    .object (apart.sublist named.listed) fun member found => (named.each member found).distinct⟩

end Json

theorem SignedWord.clean_encode {bits : Nat} (fits : bits ≤ 64) (word : SignedWord bits) :
    word.encode.Clean := by
  obtain ⟨long, same⟩ := word.exists_wider fits
  have lower : -signedLimit 64 ≤ long.toInt := long.property.1
  have upper : long.toInt < signedLimit 64 := long.property.2
  have limits : signedLimit 64 < Json.unsignedLimit := by decide
  rw [same] at lower upper
  exact ⟨.integer lower (Int.lt_trans upper limits), .number _⟩

theorem Annotation.clean_encode (mark : Annotation) : mark.encode.Clean :=
  Json.clean_object ["annotationType"] (by decide)
    (.cons (Json.clean_string mark.annotationType) .nil)

theorem ClassLiteral.clean_encode (literal : ClassLiteral) : literal.encode.Clean :=
  Json.clean_string literal.name

theorem StackFrame.clean_encode (frame : StackFrame) : frame.encode.Clean := by
  have declared : NamedMembers Json.Clean ["declaringClass", "methodName"] [
      ("declaringClass", .string frame.declaringClass), ("methodName", .string frame.methodName)] :=
    .cons (Json.clean_string _) (.cons (Json.clean_string _) .nil)
  have file := NamedMembers.optional Json.Clean "fileName" frame.fileName
    fun name _ => Json.clean_string name
  have line : NamedMembers Json.Clean ["lineNumber"] [("lineNumber", frame.lineNumber.encode)] :=
    .cons (frame.lineNumber.clean_encode (by decide)) .nil
  exact Json.clean_object _ (by decide) ((declared.append file).append line)

theorem Thrown.named_members_clean (thrown : Thrown) :
    NamedMembers Json.Clean ["type", "message", "stackTrace"] thrown.members := by
  have type := NamedMembers.optional Json.Clean "type" thrown.exceptionType
    fun text _ => Json.clean_string text
  have message := NamedMembers.optional Json.Clean "message" thrown.message
    fun text _ => Json.clean_string text
  have frames := NamedMembers.list Json.Clean "stackTrace"
    (Json.clean_array_map fun frame (_ : frame ∈ thrown.stackTrace) => frame.clean_encode)
  exact (type.append message).append frames

theorem Thrown.clean_encode (thrown : Thrown) (nested : List Thrown) :
    (thrown.encode nested).Clean := by
  induction nested generalizing thrown with
  | nil => exact Json.clean_object _ (by decide) thrown.named_members_clean
  | cons inner nested ih =>
      have cause : NamedMembers Json.Clean ["cause"] [("cause", inner.encode nested)] :=
        .cons (ih inner) .nil
      exact Json.clean_object _ (by decide) (thrown.named_members_clean.append cause)

theorem FailureCause.clean_encode (cause : FailureCause) : cause.encode.Clean :=
  cause.outer.clean_encode cause.nested

theorem RemoteDescription.clean_encode (described : RemoteDescription) :
    described.encode.Clean := by
  induction described using RemoteDescription.induct with
  | step displayName annotations testClass children ih =>
      have name : NamedMembers Json.Clean ["fDisplayName"] [("fDisplayName", .string displayName)] :=
        .cons (Json.clean_string _) .nil
      have marks := NamedMembers.list Json.Clean "fAnnotations"
        (Json.clean_array_map fun mark (_ : mark ∈ annotations) => mark.clean_encode)
      have literal := NamedMembers.optional Json.Clean "fTestClass" testClass
        fun literal _ => literal.clean_encode
      have children := NamedMembers.list Json.Clean "fChildren" (Json.clean_array_map ih)
      rw [← childrenMember_eq] at children
      exact Json.clean_object _ (by decide) (((name.append marks).append literal).append children)

theorem RemoteFailure.clean_encode (failure : RemoteFailure) : failure.encode.Clean := by
  have description := NamedMembers.optional Json.Clean "description" failure.description
    fun described _ => described.clean_encode
  have cause : NamedMembers Json.Clean ["cause"] [("cause", failure.cause.encode)] :=
    .cons failure.cause.clean_encode .nil
  exact Json.clean_object _ (by decide) (description.append cause)

theorem RunSummary.clean_encode (summary : RunSummary) : summary.encode.Clean := by
  have counters : NamedMembers Json.Clean ["count", "ignoreCount", "runTime", "startTime"] [
      ("count", summary.count.encode), ("ignoreCount", summary.ignoreCount.encode),
      ("runTime", summary.runTime.encode), ("startTime", summary.startTime.encode)] :=
    .cons (summary.count.clean_encode (by decide)) <|
    .cons (summary.ignoreCount.clean_encode (by decide)) <|
    .cons (summary.runTime.clean_encode (by decide)) <|
    .cons (summary.startTime.clean_encode (by decide)) .nil
  have failures := NamedMembers.list Json.Clean "failures"
    (Json.clean_array_map fun failure (_ : failure ∈ summary.failures) => failure.clean_encode)
  exact Json.clean_object _ (by decide) (counters.append failures)

theorem clean_encodeMaybe {encode : α → Json} (each : ∀ value, (encode value).Clean)
    (value : Option α) : (encodeMaybe encode value).Clean := by
  cases value with
  | none =>
      exact Json.clean_object ["present"] (by decide) (.cons (Json.clean_bool _) .nil)
  | some value =>
      exact Json.clean_object ["present", "value"] (by decide)
        (.cons (Json.clean_bool _) (.cons (each value) .nil))

theorem SortedMap.clean_encode {encode : α → Json} (each : ∀ value, (encode value).Clean)
    (map : SortedMap α) : (map.encode encode).Clean := by
  refine Json.clean_object _ (distinctNames_of_strictlySorted map.sorted) ⟨?_, ?_⟩
  · simp [Function.comp_def]
  · exact List.forall_mem_map.mpr fun entry _ => each entry.2

theorem ResultDetail.clean_encode (detail : ResultDetail) : detail.encode.Clean := by
  have classname := NamedMembers.optional Json.Clean "classname" detail.classname
    fun name _ => Json.clean_string name
  refine Json.clean_object
    (["classname"] ++ ["testResult", "passedMethods", "ignoredMethods", "failedMethods"])
    (by decide) (classname.append ?_)
  exact .cons (clean_encodeMaybe RunSummary.clean_encode detail.testResult) <|
    .cons (Json.clean_texts detail.passedMethods) <|
    .cons (Json.clean_texts detail.ignoredMethods) <|
    .cons (detail.failedMethods.clean_encode RemoteFailure.clean_encode) .nil

end TestDelegation
