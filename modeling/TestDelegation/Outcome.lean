import TestDelegation.Payload.Detail

/-!
Outcomes of the methods of one test class. Main definition: `OutcomeSet`, in which every method
stands once.
-/

namespace TestDelegation

inductive OutcomeKind where
  | passed
  | ignored
  | failed
  deriving DecidableEq, Repr

namespace OutcomeKind

def all : List OutcomeKind := [.passed, .ignored, .failed]

def name : OutcomeKind → String
  | .passed => "passed"
  | .ignored => "ignored"
  | .failed => "failed"

end OutcomeKind

inductive TestOutcome where
  | passed
  | ignored
  | failed (cause : FailureCause)
  deriving DecidableEq

def TestOutcome.kind : TestOutcome → OutcomeKind
  | .passed => .passed
  | .ignored => .ignored
  | .failed _ => .failed

structure MethodOutcome where
  method : String
  outcome : TestOutcome
  deriving DecidableEq

def MethodOutcome.kind (method : MethodOutcome) : OutcomeKind := method.outcome.kind

structure OutcomeConflict where
  method : String
  first : OutcomeKind
  second : OutcomeKind
  deriving DecidableEq

def OutcomeConflict.message (conflict : OutcomeConflict) : String :=
  "method `" ++ conflict.method ++ "` is listed as both " ++ conflict.first.name ++ " and " ++
    conflict.second.name

/-- The first method that repeats one before it, among those seen or in the list. -/
def conflictFrom? (seen : List MethodOutcome) : List MethodOutcome → Option OutcomeConflict
  | [] => none
  | current :: rest =>
    match seen.find? fun earlier => earlier.method == current.method with
    | some earlier => some ⟨current.method, earlier.kind, current.kind⟩
    | none => conflictFrom? (seen ++ [current]) rest

theorem distinct_of_conflictFrom?_eq_none {seen outcomes : List MethodOutcome}
    (apart : (seen.map MethodOutcome.method).Nodup)
    (clear : conflictFrom? seen outcomes = none) :
    ((seen ++ outcomes).map MethodOutcome.method).Nodup := by
  induction outcomes generalizing seen with
  | nil => simpa using apart
  | cons current rest ih =>
      simp only [conflictFrom?] at clear
      split at clear
      · simp at clear
      · rename_i unseen
        have next := @ih (seen ++ [current]) ?_ clear
        · simpa using next
        · simp only [List.map_append, List.map_cons, List.map_nil]
          refine List.nodup_append.mpr ⟨apart, by simp, ?_⟩
          intro method member other same
          obtain ⟨earlier, earlierMember, rfl⟩ := List.mem_map.mp member
          have different := List.find?_eq_none.mp unseen earlier earlierMember
          simp only [List.mem_singleton] at same
          subst same
          simpa using different

structure OutcomeSet where
  outcomes : List MethodOutcome
  distinct : (outcomes.map MethodOutcome.method).Nodup
  deriving DecidableEq

namespace OutcomeSet

def empty : OutcomeSet := ⟨[], by simp⟩

instance : Inhabited OutcomeSet := ⟨empty⟩

def ofOutcomes (outcomes : List MethodOutcome) : Except OutcomeConflict OutcomeSet :=
  match found : conflictFrom? [] outcomes with
  | some conflict => .error conflict
  | none =>
    .ok ⟨outcomes, @distinct_of_conflictFrom?_eq_none [] outcomes (by simp) found⟩

def ofKind (set : OutcomeSet) (kind : OutcomeKind) : List String :=
  (set.outcomes.filter fun outcome => outcome.kind == kind).map MethodOutcome.method

def passed (set : OutcomeSet) : List String := set.ofKind .passed

def ignored (set : OutcomeSet) : List String := set.ofKind .ignored

def failed (set : OutcomeSet) : List (String × FailureCause) :=
  set.outcomes.filterMap fun outcome =>
    match outcome.outcome with
    | .failed cause => some (outcome.method, cause)
    | .passed => none
    | .ignored => none

def partitions (set : OutcomeSet) : List (OutcomeKind × List String) :=
  OutcomeKind.all.filterMap fun kind =>
    match sortedEntries ((set.ofKind kind).map fun method => (method, ())) with
    | [] => none
    | entries => some (kind, entries.map Prod.fst)

def totalCount (set : OutcomeSet) : Nat := set.outcomes.length

def isEmpty (set : OutcomeSet) : Bool := set.outcomes.isEmpty

end OutcomeSet

def distinctFrom (seen : List String) : List String → List String
  | [] => []
  | name :: rest =>
    if seen.contains name then distinctFrom seen rest
    else name :: distinctFrom (name :: seen) rest

def distinctNames (names : List String) : List String := distinctFrom [] names

namespace ResultDetail

def methodOutcomes (detail : ResultDetail) : List MethodOutcome :=
  (distinctNames detail.passedMethods).map (fun method => ⟨method, .passed⟩) ++
  (distinctNames detail.ignoredMethods).map (fun method => ⟨method, .ignored⟩) ++
  detail.failedMethods.entries.map fun entry => ⟨entry.1, .failed entry.2.cause⟩

end ResultDetail

namespace OutcomeSet

def ofDetail (detail : ResultDetail) : Except OutcomeConflict OutcomeSet :=
  ofOutcomes detail.methodOutcomes

def toDetail (set : OutcomeSet) (classname : Option String) : ResultDetail where
  classname := classname
  testResult := none
  passedMethods := set.passed
  ignoredMethods := set.ignored
  failedMethods := set.failed.foldl (fun map entry => map.insert entry.1 ⟨none, entry.2⟩) .empty

end OutcomeSet

end TestDelegation
