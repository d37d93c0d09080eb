import Mathlib.Data.List.Forall2

/-!
When a chain of steps that may fail succeeds, and what steps through a list make of its items.
-/

namespace TestDelegation

variable {ε δ α β : Type}

theorem ok_bind (value : α) (next : α → Except ε β) : (Except.ok value >>= next) = next value :=
  rfl

theorem error_bind (error : ε) (next : α → Except ε β) :
    (Except.error error >>= next) = .error error := rfl

theorem bind_eq_ok_iff {step : Except ε α} {next : α → Except ε β} {result : β} :
    (step >>= next) = .ok result ↔ ∃ value, step = .ok value ∧ next value = .ok result := by
  cases step with
  | error _ => simp [bind, Except.bind]
  | ok value => simp [bind, Except.bind]

theorem map_eq_ok_iff {step : Except ε α} {change : α → β} {result : β} :
    step.map change = .ok result ↔ ∃ value, step = .ok value ∧ change value = result := by
  cases step with
  | error _ => simp [Except.map]
  | ok value => simp [Except.map]

theorem mapError_eq_ok_iff {step : Except ε α} {change : ε → δ} {result : α} :
    step.mapError change = .ok result ↔ step = .ok result := by
  cases step with
  | error _ => exact iff_of_false nofun nofun
  | ok value => exact ⟨fun same => congrArg _ (Except.ok.inj same),
      fun same => congrArg _ (Except.ok.inj same)⟩

theorem pure_eq_ok_iff {value result : α} :
    (pure value : Except ε α) = .ok result ↔ value = result := by
  simp [pure, Except.pure]

theorem isOk_iff {result : Except ε α} :
    result.isOk = true ↔ ∃ value, result = .ok value := by
  cases result <;> simp [Except.isOk, Except.toBool]

theorem mapM_eq_some_map {items : List α} {read : α → Option β} {known : α → β}
    (each : ∀ item ∈ items, read item = some (known item)) :
    items.mapM read = some (items.map known) := by
  induction items with
  | nil => rfl
  | cons item rest ih =>
      obtain ⟨first, later⟩ := List.forall_mem_cons.mp each
      rw [List.mapM_cons, first, ih later]
      rfl

theorem forall₂_map_iff {ι κ : Type} {first : ι → α → Prop} {second : κ → α → Prop}
    {image : ι → κ} {items : List ι} {results : List α}
    (each : ∀ item ∈ items, ∀ result, first item result ↔ second (image item) result) :
    List.Forall₂ first items results ↔ List.Forall₂ second (items.map image) results := by
  induction items generalizing results with
  | nil => simp
  | cons item items ih =>
      obtain ⟨head, tail⟩ := List.forall_mem_cons.mp each
      simp only [List.map_cons, List.forall₂_cons_left_iff, head, ih tail]

theorem exists_mem_of_forall₂ {relates : α → β → Prop} {values : List α}
    {results : List β} {result : β} (each : List.Forall₂ relates values results)
    (listed : result ∈ results) : ∃ value ∈ values, relates value result := by
  induction each with
  | nil => cases listed
  | cons first _ ih =>
      rcases List.mem_cons.mp listed with rfl | later
      · exact ⟨_, List.mem_cons_self, first⟩
      · obtain ⟨value, found, related⟩ := ih later
        exact ⟨value, List.mem_cons_of_mem _ found, related⟩

end TestDelegation
