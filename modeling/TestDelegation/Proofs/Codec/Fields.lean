import TestDelegation.Proofs.Codec.Pruning
import TestDelegation.Proofs.Json.Places

/-!
Which fields the walk of a codec drops and at which it stops, told by their places in the value.
-/

namespace TestDelegation

open Json (Step Before)

/--
Whether the keys of an object are fields, by the way to it from its end. They are, unless the
object is the value of a field for the method map.
-/
def keysAreFields : List Step → Bool
  | .member key :: above => !(keysAreFields above && key == methodMapField)
  | _ => true

theorem keysAreFields_member (above : List Step) (key : String) :
    keysAreFields (.member key :: above) = fieldsBelow (keysAreFields above) key := rfl

namespace Codec

/-- Whether the place at the end of a way, given from its end, is a field of an excluded kind. -/
def excludesAt (codec : Codec) : List Step → Bool
  | .member key :: above => keysAreFields above && (fieldKind? key).any codec.isExcluded
  | _ => false

/-- No field on the way, its end included, is of an excluded kind. -/
def Keeps (codec : Codec) (way : List Step) : Prop :=
  ∀ front, front <+: way → codec.excludesAt front.reverse = false

/-- A field that is kept stands at the end of the way, of a kind that the codec cannot decode. -/
structure Offends (codec : Codec) (value : Json) (way : List Step) (missing : MissingAdapter) :
    Prop where
  reached : (value.at? way).isSome = true
  kept : codec.Keeps way
  field : ∃ above, way = above ++ [.member missing.field] ∧ keysAreFields above.reverse = true
  kind : fieldKind? missing.field = some missing.kind
  unadapted : codec.hasAdapter missing.kind = false

/-- The walked value is the value without the places that the codec drops. -/
structure Remains (codec : Codec) (value walked : Json) : Prop where
  dropped : ∀ way, ¬codec.Keeps way → walked.at? way = none
  kept : ∀ way, codec.Keeps way → (walked.at? way).map Json.outline =
    (value.at? way).map fun place => place.outline.filterKeys fun key =>
      !codec.excludesAt (.member key :: way.reverse)

variable {codec : Codec}

theorem keeps_nil : codec.Keeps [] := by
  intro front within
  rw [List.prefix_nil.mp within]
  rfl

theorem keeps_append_singleton_iff {way : List Step} {step : Step} :
    codec.Keeps (way ++ [step]) ↔
      codec.Keeps way ∧ codec.excludesAt (step :: way.reverse) = false := by
  simp only [Keeps, List.prefix_concat_iff]
  constructor
  · intro keeps
    refine ⟨fun front within => keeps front (.inr within), ?_⟩
    simpa using keeps (way ++ [step]) (.inl rfl)
  · rintro ⟨earlier, last⟩ front (rfl | within)
    · simpa using last
    · exact earlier front within

theorem lookup_keptMembers (fields : Bool) (members : List (String × Json)) (key : String) :
    (kept.keptMembers codec fields members).lookup key =
      if codec.drops fields key then none
      else (members.lookup key).map (codec.kept (fieldsBelow fields key)) := by
  induction members with
  | nil => simp [kept.keptMembers]
  | cons first rest ih =>
      obtain ⟨name, value⟩ := first
      rw [kept.keptMembers, List.lookup_cons]
      by_cases same : key = name
      · subst same
        by_cases dropped : codec.drops fields key = true
        · simp [dropped, ih]
        · simp [dropped]
      · have other : (key == name) = false := by simpa using same
        by_cases dropped : codec.drops fields name = true
        · simp [dropped, other, ih]
        · simp [dropped, List.lookup_cons, other, ih]

theorem below?_kept (above : List Step) (value : Json) (step : Step) :
    (codec.kept (keysAreFields above) value).below? step =
      if codec.excludesAt (step :: above) then none
      else (value.below? step).map (codec.kept (keysAreFields (step :: above))) := by
  cases value with
  | object members =>
      cases step with
      | member key => exact lookup_keptMembers (keysAreFields above) members key
      | item _ => rfl
  | array items =>
      cases step with
      | member _ => exact (ite_self none).symm
      | item index =>
          rw [kept, keptItems_eq_map, Json.below?, List.getElem?_map]
          rfl
  | _ => exact (ite_self none).symm

theorem at?_kept_of_keeps {way : List Step} (keeps : codec.Keeps way) (value : Json) :
    (codec.kept true value).at? way =
      (value.at? way).map (codec.kept (keysAreFields way.reverse)) := by
  induction way using List.reverseRecOn with
  | nil => rfl
  | append_singleton front step ih =>
      obtain ⟨earlier, last⟩ := keeps_append_singleton_iff.mp keeps
      rw [Json.at?_append_singleton, Json.at?_append_singleton, ih earlier, List.reverse_concat]
      cases value.at? front with
      | none => rfl
      | some inner =>
          rw [Option.map_some, Option.bind_some, Option.bind_some, below?_kept, last]
          rfl

theorem at?_kept_of_not_keeps {way : List Step} (gone : ¬codec.Keeps way) (value : Json) :
    (codec.kept true value).at? way = none := by
  induction way using List.reverseRecOn with
  | nil => exact absurd keeps_nil gone
  | append_singleton front step ih =>
      rw [Json.at?_append_singleton]
      by_cases earlier : codec.Keeps front
      · have excluded : codec.excludesAt (step :: front.reverse) = true := by
          by_contra stays
          rw [Bool.not_eq_true] at stays
          exact gone (keeps_append_singleton_iff.mpr ⟨earlier, stays⟩)
        rw [at?_kept_of_keeps earlier]
        cases value.at? front with
        | none => rfl
        | some inner =>
            rw [Option.map_some, Option.bind_some, below?_kept, excluded]
            rfl
      · rw [ih earlier, Option.bind_none]

theorem outline_kept (fields : Bool) (value : Json) :
    (codec.kept fields value).outline =
      value.outline.filterKeys fun key => !codec.drops fields key := by
  cases value with
  | object members =>
      rw [kept, keptMembers_eq, Json.outline, Json.outline, Json.Outline.filterKeys, List.map_map,
        List.filter_map]
      rfl
  | array items => rw [kept, keptItems_eq_map, Json.outline, List.length_map]; rfl
  | _ => rfl

theorem remains_kept (codec : Codec) (value : Json) :
    codec.Remains value (codec.kept true value) where
  dropped _ gone := at?_kept_of_not_keeps gone value
  kept way keeps := by
    rw [at?_kept_of_keeps keeps, Option.map_map]
    exact Option.map_congr fun place _ => outline_kept (keysAreFields way.reverse) place

theorem ordered_kept (codec : Codec) {value : Json} (ordered : value.Ordered) (fields : Bool) :
    (codec.kept fields value).Ordered := by
  induction ordered generalizing fields with
  | null => exact .null
  | bool value => exact .bool value
  | number value => exact .number value
  | string value => exact .string value
  | array _ ih =>
      rw [kept, keptItems_eq_map]
      exact .array (List.forall_mem_map.mpr fun item listed => ih item listed true)
  | object sorted _ ih =>
      rw [kept, keptMembers_eq]
      refine .object ?_ (List.forall_mem_map.mpr fun member stays => ?_)
      · exact List.pairwise_map.mpr (List.Pairwise.filter _ sorted)
      · exact ih member (List.mem_filter.mp stays).1 _

theorem Remains.eq {value first second : Json} (left : codec.Remains value first)
    (right : codec.Remains value second) (distinct : first.DistinctKeys) : first = second := by
  refine Json.eq_of_sameOutlines distinct fun way => ?_
  by_cases keeps : codec.Keeps way
  · rw [left.kept way keeps, right.kept way keeps]
  · rw [left.dropped way keeps, right.dropped way keeps]

def missingAt? (codec : Codec) : List Step → Option MissingAdapter
  | .member key :: above => codec.missingAdapter? (keysAreFields above) key
  | _ => none

def OffendsBelow (codec : Codec) : List Step → Json → List Step → MissingAdapter → Prop
  | _, _, [], _ => False
  | above, value, step :: further, missing =>
    codec.excludesAt (step :: above) = false ∧ ∃ inner, value.below? step = some inner ∧
      ((further = [] ∧ codec.missingAt? (step :: above) = some missing) ∨
        OffendsBelow codec (step :: above) inner further missing)

def OffendsAt (codec : Codec) (above : List Step) (child : Step × Json) (way : List Step)
    (missing : MissingAdapter) : Prop :=
  codec.excludesAt (child.1 :: above) = false ∧ ∃ further, way = child.1 :: further ∧
    ((further = [] ∧ codec.missingAt? (child.1 :: above) = some missing) ∨
      codec.OffendsBelow (child.1 :: above) child.2 further missing)

variable {above way : List Step} {missing : MissingAdapter} {value : Json}

theorem missingAdapter?_eq_some_iff {fields : Bool} {key : String} :
    codec.missingAdapter? fields key = some missing ↔
      fields = true ∧ key = missing.field ∧ fieldKind? missing.field = some missing.kind ∧
        codec.hasAdapter missing.kind = false := by
  obtain ⟨field, kind⟩ := missing
  cases fields with
  | false => simp [missingAdapter?]
  | true => grind [missingAdapter?]

theorem missingAt?_eq_some_iff :
    codec.missingAt? way = some missing ↔ ∃ above, way = .member missing.field :: above ∧
      keysAreFields above = true ∧ fieldKind? missing.field = some missing.kind ∧
        codec.hasAdapter missing.kind = false := by
  cases way with
  | nil => simp [missingAt?]
  | cons step above =>
      cases step with
      | item _ => simp [missingAt?]
      | member key =>
          rw [missingAt?, missingAdapter?_eq_some_iff]
          grind

theorem offendsBelow_ne_nil (offends : codec.OffendsBelow above value way missing) : way ≠ [] := by
  rintro rfl
  exact offends

theorem forall_prefix_cons_iff {holds : List Step → Prop} {step : Step} {further : List Step} :
    (∀ front, front <+: step :: further → holds front) ↔
      holds [] ∧ ∀ front, front <+: further → holds (step :: front) := by
  constructor
  · intro all
    refine ⟨all [] List.nil_prefix, fun front within => ?_⟩
    exact all (step :: front) ((List.prefix_cons_inj step).mpr within)
  · rintro ⟨first, later⟩ front within
    rcases List.prefix_cons_iff.mp within with rfl | ⟨rest, rfl, shorter⟩
    · exact first
    · exact later rest shorter

theorem offendsBelow_iff (stays : codec.excludesAt above = false) :
    codec.OffendsBelow above value way missing ↔
      way ≠ [] ∧ (value.at? way).isSome = true ∧
        (∀ front, front <+: way → codec.excludesAt (front.reverse ++ above) = false) ∧
        codec.missingAt? (way.reverse ++ above) = some missing := by
  induction way generalizing above value with
  | nil => simp [OffendsBelow]
  | cons step further ih =>
      have turned : ∀ front : List Step,
          (step :: front).reverse ++ above = front.reverse ++ step :: above := by simp
      rw [OffendsBelow, Json.at?, forall_prefix_cons_iff]
      simp only [turned, List.reverse_nil, List.nil_append, stays, true_and]
      cases value.below? step with
      | none => simp
      | some inner =>
          simp only [Option.some.injEq, exists_eq_left', Option.bind_some]
          cases further with
          | nil => simp [OffendsBelow, Json.at?]
          | cons second further =>
              simp only [reduceCtorEq, false_and, false_or, ne_eq, not_false_eq_true, true_and]
              constructor
              · rintro ⟨next, deeper⟩
                exact ((ih next).mp deeper).2
              · rintro ⟨reached, keeps, lacks⟩
                have next := keeps [] List.nil_prefix
                exact ⟨next, (ih next).mpr ⟨List.cons_ne_nil _ _, reached, keeps, lacks⟩⟩

theorem offends_iff :
    codec.Offends value way missing ↔ codec.OffendsBelow [] value way missing := by
  rw [offendsBelow_iff rfl, List.append_nil, missingAt?_eq_some_iff]
  simp only [List.append_nil]
  constructor
  · rintro ⟨reached, kept, ⟨above, rfl, fields⟩, kind, unadapted⟩
    exact ⟨by simp, reached, kept, above.reverse, by simp, fields, kind, unadapted⟩
  · rintro ⟨_, reached, kept, above, turned, fields, kind, unadapted⟩
    refine ⟨reached, kept, ⟨above.reverse, ?_, by simpa using fields⟩, kind, unadapted⟩
    rw [← List.reverse_reverse way, turned, List.reverse_cons]

/--
What comes of going through places in order, given those that offend. The first of them, if there
is one, is where it stops.
-/
def StopsFirst {α : Type} (offends : List Step → MissingAdapter → Prop) :
    Except MissingAdapter α → Prop
  | .ok _ => ∀ way missing, ¬offends way missing
  | .error missing => ∃ way, offends way missing ∧
      ∀ other found, offends other found → other = way ∨ Before way other

section StopsFirst

variable {α β γ : Type} {first : Except MissingAdapter α} {second : Except MissingAdapter β}
  {offends earlier later : List Step → MissingAdapter → Prop}

theorem StopsFirst.map (stops : StopsFirst offends first) (change : α → β) :
    StopsFirst offends (first.map change) := by
  cases first with
  | ok _ => exact stops
  | error _ => exact stops

theorem StopsFirst.step (stops : StopsFirst offends first) (step : Step) :
    StopsFirst (fun way missing => ∃ further, way = step :: further ∧ offends further missing)
      first := by
  cases first with
  | ok _ =>
      rintro way missing ⟨further, rfl, found⟩
      exact stops further missing found
  | error missing =>
      obtain ⟨way, stopped, before⟩ := stops
      refine ⟨step :: way, ⟨way, rfl, stopped⟩, ?_⟩
      rintro _ found ⟨other, rfl, offending⟩
      rcases before other found offending with rfl | after
      · exact .inl rfl
      · exact .inr (.cons after)

theorem StopsFirst.bind (firstStops : StopsFirst earlier first)
    (secondStops : StopsFirst later second)
    (before : ∀ {way other missing found}, earlier way missing → later other found →
      Before way other) (combine : α → β → γ) :
    StopsFirst (fun way missing => earlier way missing ∨ later way missing)
      (first.bind fun left => second.bind fun right => .ok (combine left right)) := by
  cases first with
  | error _ =>
      obtain ⟨way, stopped, least⟩ := firstStops
      refine ⟨way, .inl stopped, ?_⟩
      rintro other found (offending | offending)
      · exact least other found offending
      · exact .inr (before stopped offending)
  | ok _ =>
      cases second with
      | ok _ =>
          intro way missing
          exact not_or.mpr ⟨firstStops way missing, secondStops way missing⟩
      | error _ =>
          obtain ⟨way, stopped, least⟩ := secondStops
          refine ⟨way, .inr stopped, ?_⟩
          rintro other found (offending | offending)
          · exact absurd offending (firstStops other found)
          · exact least other found offending

end StopsFirst

def OffendsAmong (codec : Codec) (above : List Step) (siblings : List (Step × Json))
    (way : List Step) (missing : MissingAdapter) : Prop :=
  ∃ child ∈ siblings, codec.OffendsAt above child way missing

theorem offendsBelow_eq_offendsAmong (ordered : value.Ordered) :
    codec.OffendsBelow above value = codec.OffendsAmong above value.children := by
  funext way missing
  refine propext ?_
  cases way with
  | nil => simp [OffendsBelow, OffendsAmong, OffendsAt]
  | cons step further =>
      rw [OffendsBelow, OffendsAmong]
      constructor
      · rintro ⟨stays, inner, below, offends⟩
        exact ⟨(step, inner), (Json.below?_eq_some_iff ordered).mp below, stays, further, rfl,
          offends⟩
      · rintro ⟨⟨_, inner⟩, listed, stays, _, same, offends⟩
        cases same
        exact ⟨stays, inner, (Json.below?_eq_some_iff ordered).mpr listed, offends⟩

theorem not_offendsAmong_nil : ¬codec.OffendsAmong above [] way missing := by
  simp [OffendsAmong]

theorem offendsAmong_cons (child : Step × Json) (siblings : List (Step × Json)) :
    codec.OffendsAmong above (child :: siblings) = fun way missing =>
      codec.OffendsAt above child way missing ∨ codec.OffendsAmong above siblings way missing := by
  funext way missing
  simp [OffendsAmong]

theorem before_of_offends {child : Step × Json} {siblings : List (Step × Json)}
    (after : ∀ sibling ∈ siblings, child.1.Before sibling.1) {other : List Step}
    {found : MissingAdapter} (first : codec.OffendsAt above child way missing)
    (second : codec.OffendsAmong above siblings other found) : Before way other := by
  obtain ⟨_, further, rfl, _⟩ := first
  obtain ⟨sibling, listed, _, beyond, rfl, _⟩ := second
  exact .rel (after sibling listed)

theorem offendsAt_of_passed (child : Step × Json)
    (stays : codec.excludesAt (child.1 :: above) = false)
    (passed : codec.missingAt? (child.1 :: above) = none) :
    codec.OffendsAt above child = fun way missing => ∃ further, way = child.1 :: further ∧
      codec.OffendsBelow (child.1 :: above) child.2 further missing := by
  funext way missing
  simp [OffendsAt, stays, passed]

theorem pruneItems_stopsFirst {items : List Json} (index : Nat)
    (each : ∀ item ∈ items, ∀ index,
      StopsFirst (codec.OffendsBelow (.item index :: above) item) (codec.prune true item)) :
    StopsFirst
      (codec.OffendsAmong above (items.mapIdx fun offset item => (.item (index + offset), item)))
      (prune.pruneItems codec items) := by
  induction items generalizing index with
  | nil => exact fun _ _ => not_offendsAmong_nil
  | cons first rest ih =>
      obtain ⟨firstStops, restStops⟩ := List.forall_mem_cons.mp each
      rw [List.mapIdx_cons, offendsAmong_cons, prune.pruneItems]
      refine StopsFirst.bind ?_ ?_ (before_of_offends ?_) List.cons
      · rw [offendsAt_of_passed _ rfl rfl]
        exact (firstStops _).step _
      · simpa only [Nat.add_assoc, Nat.add_comm 1] using ih (index + 1) restStops
      · intro sibling listed
        obtain ⟨offset, _, rfl⟩ := List.mem_mapIdx.mp listed
        exact .item (by omega)

theorem pruneMembers_stopsFirst {members : List (String × Json)} (sorted : StrictlySorted members)
    (each : ∀ member ∈ members,
      StopsFirst (codec.OffendsBelow (.member member.1 :: above) member.2)
        (codec.prune (keysAreFields (.member member.1 :: above)) member.2)) :
    StopsFirst
      (codec.OffendsAmong above (members.map fun member => (.member member.1, member.2)))
      (prune.pruneMembers codec (keysAreFields above) members) := by
  induction members with
  | nil => exact fun _ _ => not_offendsAmong_nil
  | cons first rest ih =>
      obtain ⟨firstStops, restStops⟩ := List.forall_mem_cons.mp each
      obtain ⟨headFirst, restSorted⟩ := List.pairwise_cons.mp sorted
      obtain ⟨key, value⟩ := first
      have after : ∀ sibling ∈ rest.map fun member => (Step.member member.1, member.2),
          (Step.member key).Before sibling.1 := by
        intro sibling listed
        obtain ⟨member, found, rfl⟩ := List.mem_map.mp listed
        exact .member (Text.utf8Bytes_lt_utf8Bytes (headFirst member found))
      rw [List.map_cons, offendsAmong_cons, prune.pruneMembers]
      -- A member is dropped without a look into it, stops the walk itself, or is walked into.
      by_cases dropped : codec.drops (keysAreFields above) key = true
      · have silent : ∀ way missing, ¬codec.OffendsAt above (.member key, value) way missing := by
          rintro way missing ⟨stays, _⟩
          exact absurd (dropped.symm.trans stays) Bool.true_eq_false.mp
        simpa only [dropped, if_true, silent, false_or] using ih restSorted restStops
      · rw [if_neg dropped]
        rw [Bool.not_eq_true] at dropped
        have stays : codec.excludesAt (.member key :: above) = false := dropped
        cases stops : codec.missingAdapter? (keysAreFields above) key with
        | some missing =>
            have here : codec.OffendsAt above (.member key, value) [.member key] missing :=
              ⟨stays, [], rfl, .inl ⟨rfl, stops⟩⟩
            refine ⟨_, .inl here, ?_⟩
            rintro other found (⟨_, further, rfl, ⟨rfl, _⟩ | deeper⟩ | elsewhere)
            · exact .inl rfl
            · exact .inr (Json.before_below _ (offendsBelow_ne_nil deeper))
            · exact .inr (before_of_offends after here elsewhere)
        | none =>
            refine StopsFirst.bind ?_ (ih restSorted restStops) (before_of_offends after)
              fun value members => (key, value) :: members
            rw [offendsAt_of_passed (.member key, value) stays stops]
            exact firstStops.step _

theorem stopsFirst_of_childless {walked : Json} (ordered : value.Ordered)
    (childless : value.children = []) :
    StopsFirst (codec.OffendsBelow above value) (Except.ok walked) := by
  rw [offendsBelow_eq_offendsAmong ordered, childless]
  exact fun _ _ => not_offendsAmong_nil

theorem prune_stopsFirst (above : List Step) (ordered : value.Ordered) :
    StopsFirst (codec.OffendsBelow above value) (codec.prune (keysAreFields above) value) := by
  induction ordered generalizing above with
  | null => exact stopsFirst_of_childless .null rfl
  | bool held => exact stopsFirst_of_childless (.bool held) rfl
  | number held => exact stopsFirst_of_childless (.number held) rfl
  | string held => exact stopsFirst_of_childless (.string held) rfl
  | array ordered ih =>
      rw [offendsBelow_eq_offendsAmong (.array ordered), prune]
      refine StopsFirst.map ?_ _
      simpa only [Json.children, Nat.zero_add] using
        pruneItems_stopsFirst 0 fun item listed index => ih item listed (.item index :: above)
  | object sorted ordered ih =>
      rw [offendsBelow_eq_offendsAmong (.object sorted ordered), prune]
      exact (pruneMembers_stopsFirst sorted fun member listed => ih member listed _).map _

theorem prune_sorted_stopsFirst (codec : Codec) (value : Json) :
    StopsFirst (codec.Offends value.sorted) (codec.prune true value.sorted) := by
  have all : codec.Offends value.sorted = codec.OffendsBelow [] value.sorted := by
    funext way missing
    exact propext offends_iff
  rw [all]
  exact prune_stopsFirst [] value.ordered_sorted

def fieldsOfKind : ValueKind → List String
  | .annotations => ["fAnnotations", "annotations"]
  | .maybe => ["testResult"]
  | .atomicInteger => ["count", "ignoreCount"]
  | .atomicLong => ["runTime", "startTime"]
  | .classLiteral => ["fTestClass", "testClass"]
  | .serializableMarker => ["fUniqueId", "uniqueId"]

theorem fieldKind?_eq_some_iff {field : String} {kind : ValueKind} :
    fieldKind? field = some kind ↔ field ∈ fieldsOfKind kind := by
  constructor
  · intro found
    cases kind <;> grind [fieldKind?, fieldsOfKind]
  · intro listed
    cases kind <;> revert field <;> decide

theorem not_offends_method {front : List Step} (fields : keysAreFields front.reverse = true)
    (method : String) :
    ¬codec.Offends value (front ++ [.member methodMapField, .member method]) missing := by
  intro offends
  obtain ⟨above, same, fieldsAbove⟩ := offends.field
  rw [List.append_cons] at same
  rw [← List.append_inj_left' same rfl, List.reverse_concat, keysAreFields_member, fields,
    fieldsBelow_methodMapField] at fieldsAbove
  exact absurd fieldsAbove Bool.false_ne_true

theorem prune_fields (codec : Codec) (value : Json) :
    ((∃ walked, codec.prune true value.sorted = .ok walked) ↔
      ∀ way missing, ¬codec.Offends value.sorted way missing) ∧
    (∀ walked, codec.prune true value.sorted = .ok walked →
      codec.Remains value.sorted walked ∧
        ∀ other, codec.Remains value.sorted other → walked = other) ∧
    (∀ missing, codec.prune true value.sorted = .error missing →
      ∃ way, codec.Offends value.sorted way missing ∧ ∀ other found,
        codec.Offends value.sorted other found → other = way ∨ Before way other) ∧
    (∀ front method, keysAreFields front.reverse = true →
      let place := front ++ [Step.member methodMapField, .member method]
      (codec.Keeps (front ++ [.member methodMapField]) → codec.Keeps place) ∧
        (∀ missing, ¬codec.Offends value.sorted place missing) ∧
          keysAreFields place.reverse = true) := by
  have stops := codec.prune_sorted_stopsFirst value
  refine ⟨?_, fun walked passed => ?_, fun missing stopped => ?_, fun front method fields => ?_⟩
  · cases walk : codec.prune true value.sorted with
    | ok walked =>
        rw [walk] at stops
        exact ⟨fun _ => stops, fun _ => ⟨walked, rfl⟩⟩
    | error missing =>
        rw [walk] at stops
        obtain ⟨way, offends, _⟩ := stops
        exact ⟨nofun, fun free => absurd offends (free way missing)⟩
  · obtain ⟨_, rfl⟩ := prune_eq_ok_iff.mp passed
    have remains := remains_kept codec value.sorted
    have distinct := Json.distinctKeys_of_ordered (codec.ordered_kept value.ordered_sorted true)
    exact ⟨remains, fun other fits => remains.eq fits distinct⟩
  · rw [stopped] at stops
    exact stops
  · have names : keysAreFields (.member methodMapField :: front.reverse) = false := by
      rw [keysAreFields_member, fields, fieldsBelow_methodMapField]
    refine ⟨fun keeps => ?_, fun missing => not_offends_method fields method, ?_⟩
    · rw [List.append_cons]
      refine keeps_append_singleton_iff.mpr ⟨keeps, ?_⟩
      rw [List.reverse_concat, excludesAt, names, Bool.false_and]
    · rw [List.append_cons, List.reverse_concat, List.reverse_concat, keysAreFields_member, names]
      rfl

def kindfulValue : Json :=
  .object [("annotations", .null), ("count", .null), ("failedMethods",
    .object [("count", .object [("note", .null), ("uniqueId", .null)])]), ("runTime", .null),
    ("testClass", .null), ("testResult", .null)]

def partialCodec : Codec where
  adapters := [.annotations, .maybe, .atomicInteger]
  excluded := [.atomicInteger, .serializableMarker]

theorem prune_fields_kindfulValue :
    (Codec.default.prune true kindfulValue.sorted = .ok (.object [("annotations", .null),
        ("count", .null), ("failedMethods", .object [("count", .object [("note", .null)])]),
        ("runTime", .null), ("testClass", .null), ("testResult", .null)]) ∧
      ∀ way missing, ¬Codec.default.Offends kindfulValue.sorted way missing) ∧
    (partialCodec.prune true kindfulValue.sorted = .error ⟨"runTime", .atomicLong⟩ ∧
      ∃ way, partialCodec.Offends kindfulValue.sorted way ⟨"runTime", .atomicLong⟩) := by
  obtain ⟨accepts, _⟩ := prune_fields Codec.default kindfulValue
  obtain ⟨_, _, refuses, _⟩ := prune_fields partialCodec kindfulValue
  refine ⟨⟨rfl, accepts.mp ⟨_, rfl⟩⟩, rfl, ?_⟩
  obtain ⟨way, offends, _⟩ := refuses ⟨"runTime", .atomicLong⟩ rfl
  exact ⟨way, offends⟩

end Codec

end TestDelegation
