import Mathlib.Logic.Basic
import TestDelegation.Proofs.Notification.Firing

/-!
Where a stop cuts a list of notices. Main definitions: `Notifier.StopRaised`, whether anybody has
asked for a stop by some look, and `Notifier.Cuts`, the part of the notices before the first that is
refused. Main statement: `attemptAll_cuts`.
-/

namespace TestDelegation

inductive Notice.BeginsReport : Notice → Prop
  | started (description : Description) : BeginsReport (.testStarted description)
  | ignored (description : Description) : BeginsReport (.testIgnored description)
  | failed (failure : Failure) : BeginsReport (.testFailure failure)

theorem Notice.canBeRefused_iff {notice : Notice} :
    notice.canBeRefused = true ↔ notice.BeginsReport := by
  constructor
  · intro refusable
    cases notice with
    | testStarted description => exact .started description
    | testIgnored description => exact .ignored description
    | testFailure failure => exact .failed failure
    | runStarted _ => simp [canBeRefused] at refusable
    | runFinished _ => simp [canBeRefused] at refusable
    | testFinished _ => simp [canBeRefused] at refusable
  · intro begins
    cases begins <;> rfl

namespace Notifier

/--
A stop was requested by the look that comes after so many others, when these events have been
delivered from now on: it was requested before, or by somebody outside, or by a listener that
received one of the events.
-/
def StopRaised (notifier : Notifier) (looks : Nat) (events : List Event) : Prop :=
  notifier.stopRequested = true ∨
  (∃ earlier ≤ looks, notifier.interrupts (notifier.looks + earlier) = true) ∨
  ∃ listener ∈ notifier.listeners, ∃ seen, seen ≠ [] ∧ seen <+: events ∧
    listener.asksToStop (listener.received ++ seen) = true

variable {notifier : Notifier} {notice : Notice}

theorem StopRaised.mono {looks more : Nat} {events longer : List Event}
    (raised : notifier.StopRaised looks events) (later : looks ≤ more)
    (extended : events <+: longer) : notifier.StopRaised more longer := by
  rcases raised with before | ⟨earlier, bound, asked⟩ | ⟨listener, member, seen, some, part, asks⟩
  · exact .inl before
  · exact .inr (.inl ⟨earlier, by omega, asked⟩)
  · exact .inr (.inr ⟨listener, member, seen, some, part.trans extended, asks⟩)

theorem stopRaised_now_iff : notifier.StopRaised 0 [] ↔ notifier.look.2 = true := by
  have none_seen : ∀ seen : List Event, ¬(seen ≠ [] ∧ seen <+: []) := by
    rintro seen ⟨some, part⟩
    exact some (List.prefix_nil.mp part)
  simp only [StopRaised, look, Bool.or_eq_true]
  constructor
  · rintro (before | ⟨earlier, bound, asked⟩ | ⟨_, _, seen, some, part, _⟩)
    · exact .inl before
    · obtain rfl : earlier = 0 := by omega
      exact .inr asked
    · exact absurd ⟨some, part⟩ (none_seen seen)
  · rintro (before | asked)
    · exact .inl before
    · exact .inr (.inl ⟨0, Nat.le_refl 0, asked⟩)

theorem stopRaised_look_iff {looks : Nat} {events : List Event} :
    notifier.look.1.StopRaised looks events ↔ notifier.StopRaised (looks + 1) events := by
  simp only [StopRaised, look, Bool.or_eq_true]
  constructor
  · rintro ((before | asked) | ⟨earlier, bound, asked⟩ | asks)
    · exact .inl before
    · exact .inr (.inl ⟨0, by omega, asked⟩)
    · refine .inr (.inl ⟨earlier + 1, by omega, ?_⟩)
      rwa [Nat.add_right_comm] at asked
    · exact .inr (.inr asks)
  · rintro (before | ⟨earlier, bound, asked⟩ | asks)
    · exact .inl (.inl before)
    · cases earlier with
      | zero => exact .inl (.inr asked)
      | succ earlier =>
          refine .inr (.inl ⟨earlier, by omega, ?_⟩)
          rwa [Nat.add_right_comm]
    · exact .inr (.inr asks)

theorem stopRequested_fire_iff : (notifier.fire notice).stopRequested = true ↔
    notifier.stopRequested = true ∨ ∃ listener ∈ notifier.listeners,
      listener.asksToStop (listener.received ++ [notifier.eventAt 0 notice]) = true := by
  change (_ || List.any (List.map _ _) _) = true ↔ _
  simp [Listener.receive, eventAt]

theorem stopRaised_fire_iff {looks : Nat} {events : List Event} :
    (notifier.fire notice).StopRaised looks events ↔
      notifier.StopRaised looks (notifier.eventAt 0 notice :: events) := by
  have delivered : (notifier.fire notice).listeners = notifier.listeners.map fun listener =>
      listener.receiveAll [notifier.eventAt 0 notice] := (fires_fire notifier notice).listeners
  simp only [StopRaised, stopRequested_fire_iff, delivered, List.mem_map, exists_exists_and_eq_and,
    Listener.asksToStop_receiveAll, Listener.received_receiveAll, List.append_assoc,
    List.cons_append, List.nil_append]
  constructor
  · rintro ((before | ⟨listener, member, asks⟩) | asked |
      ⟨listener, member, seen, _, part, asks⟩)
    · exact .inl before
    · exact .inr (.inr ⟨listener, member, _, by simp, by simp, asks⟩)
    · exact .inr (.inl asked)
    · refine .inr (.inr ⟨listener, member, notifier.eventAt 0 notice :: seen, by simp, ?_, ?_⟩)
      · exact List.cons_prefix_cons.mpr ⟨rfl, part⟩
      · exact asks
  · rintro (before | asked | ⟨listener, member, seen, some, part, asks⟩)
    · exact .inl (.inl before)
    · exact .inr (.inl asked)
    · rcases List.prefix_cons_iff.mp part with none_ | ⟨later, rfl, within⟩
      · exact absurd none_ some
      · by_cases first : later = []
        · subst first
          exact .inl (.inr ⟨listener, member, asks⟩)
        · exact .inr (.inr ⟨listener, member, later, first, within, asks⟩)

theorem attempt_cases (notifier : Notifier) (notice : Notice) :
    (notice.canBeRefused = false ∧ notifier.attempt notice = (notifier.fire notice, .ok ())) ∨
    (notice.canBeRefused = true ∧ notifier.look.2 = false ∧
      notifier.attempt notice = (notifier.look.1.fire notice, .ok ())) ∨
    (notice.canBeRefused = true ∧ notifier.look.2 = true ∧
      notifier.attempt notice = (notifier.look.1, .error .stopped)) := by
  cases refusable : notice.canBeRefused with
  | false => exact .inl ⟨rfl, by simp [attempt, refusable]⟩
  | true =>
      cases stopped : notifier.look.2 with
      | false =>
          refine .inr (.inl ⟨rfl, rfl, ?_⟩)
          have looked : notifier.look = (notifier.look.1, false) := Prod.ext rfl stopped
          rw [attempt, refusable, if_pos rfl, looked]
      | true =>
          refine .inr (.inr ⟨rfl, rfl, ?_⟩)
          have looked : notifier.look = (notifier.look.1, true) := Prod.ext rfl stopped
          rw [attempt, refusable, if_pos rfl, looked]

/--
Whether a notice meets a stop when it is attempted after the others, where some looks come before
the first of them.
-/
def Refuses (notifier : Notifier) (checks : Nat) (before : List Notice) (notice : Notice) : Prop :=
  notice.BeginsReport ∧
    notifier.StopRaised (checks + before.countP Notice.canBeRefused) (notifier.events before)

/-- The first list is the part of the second before the first notice that is refused. -/
structure Cuts (notifier : Notifier) (checks : Nat) (fired notices : List Notice) : Prop where
  accepted : ∀ before notice after, fired = before ++ notice :: after →
    ¬notifier.Refuses checks before notice
  rest : fired = notices ∨
    ∃ notice after, notices = fired ++ notice :: after ∧ notifier.Refuses checks fired notice

variable {checks : Nat} {before fired notices : List Notice}

theorem refuses_first_iff :
    notifier.Refuses 0 [] notice ↔ notice.canBeRefused = true ∧ notifier.look.2 = true := by
  rw [Refuses, Notice.canBeRefused_iff, List.countP_nil, events_nil, stopRaised_now_iff]

theorem refuses_look_iff :
    notifier.look.1.Refuses checks before notice ↔ notifier.Refuses (checks + 1) before notice := by
  have same : notifier.look.1.events before = notifier.events before :=
    events_congr rfl rfl rfl before
  rw [Refuses, Refuses, stopRaised_look_iff, same, Nat.add_right_comm]

theorem refuses_fire_iff {first : Notice} (unchecked : first.canBeRefused = false) :
    (notifier.fire first).Refuses checks before notice ↔
      notifier.Refuses checks (first :: before) notice := by
  have events : notifier.events (first :: before) =
      notifier.eventAt 0 first :: (notifier.fire first).events before :=
    (fires_fire notifier first).events_append before
  rw [Refuses, Refuses, stopRaised_fire_iff, events, List.countP_cons, unchecked]
  simp

theorem refuses_look_fire_iff {first : Notice} (checked : first.canBeRefused = true) :
    (notifier.look.1.fire first).Refuses checks before notice ↔
      notifier.Refuses checks (first :: before) notice := by
  have events : notifier.events (first :: before) =
      notifier.look.1.eventAt 0 first :: (notifier.look.1.fire first).events before :=
    (fires_fire notifier.look.1 first).events_append before
  rw [Refuses, Refuses, stopRaised_fire_iff, stopRaised_look_iff, events, List.countP_cons, checked]
  simp [Nat.add_assoc]

theorem Cuts.nil (notifier : Notifier) (checks : Nat) : notifier.Cuts checks [] [] where
  accepted := by simp
  rest := .inl rfl

theorem Cuts.refused {rest : List Notice} (refuses : notifier.Refuses checks [] notice) :
    notifier.Cuts checks [] (notice :: rest) where
  accepted := by simp
  rest := .inr ⟨notice, rest, rfl, refuses⟩

theorem Cuts.cons {next : Notifier} {first : Notice}
    (accepted : ¬notifier.Refuses checks [] first)
    (later : ∀ {before notice}, next.Refuses checks before notice ↔
      notifier.Refuses checks (first :: before) notice)
    (cuts : next.Cuts checks fired notices) :
    notifier.Cuts checks (first :: fired) (first :: notices) where
  accepted := by
    intro before notice after same
    cases before with
    | nil =>
        obtain ⟨rfl, _⟩ := List.cons.inj same
        exact accepted
    | cons head before =>
        obtain ⟨rfl, tails⟩ := List.cons.inj same
        rw [← later]
        exact cuts.accepted before notice after tails
  rest := by
    rcases cuts.rest with whole | ⟨notice, after, split, refuses⟩
    · exact .inl (by rw [whole])
    · exact .inr ⟨notice, after, by rw [split, List.cons_append], later.mp refuses⟩

theorem Cuts.look (cuts : notifier.look.1.Cuts checks fired notices) :
    notifier.Cuts (checks + 1) fired notices where
  accepted := by
    intro before notice after same
    rw [← refuses_look_iff]
    exact cuts.accepted before notice after same
  rest := by
    rcases cuts.rest with whole | ⟨notice, after, split, refuses⟩
    · exact .inl whole
    · exact .inr ⟨notice, after, split, refuses_look_iff.mp refuses⟩

/--
Attempting notices one after another fires those before the first that is refused, and fails if
there is such a one; the stop request is up then.
-/
theorem attemptAll_cuts (notifier : Notifier) (notices : List Notice) :
    ∃ fired, notifier.Fires fired (notifier.attemptAll notices).1 ∧
      notifier.Cuts 0 fired notices ∧
      ((fired = notices ∧ (notifier.attemptAll notices).2 = .ok ()) ∨
        (fired ≠ notices ∧ (notifier.attemptAll notices).2 = .error .stopped ∧
          (notifier.attemptAll notices).1.stopRequested = true)) := by
  induction notices generalizing notifier with
  | nil => exact ⟨[], fires_nil notifier, .nil notifier 0, .inl ⟨rfl, rfl⟩⟩
  | cons notice rest ih =>
      rw [attemptAll]
      rcases attempt_cases notifier notice with
        ⟨unchecked, attempted⟩ | ⟨checked, clear, attempted⟩ | ⟨checked, stopped, attempted⟩
      · obtain ⟨fired, fires, cuts, outcome⟩ := ih (notifier.fire notice)
        rw [attempted]
        refine ⟨notice :: fired, (fires_fire notifier notice).trans fires,
          .cons ?_ (refuses_fire_iff unchecked) cuts, by simpa using outcome⟩
        rw [refuses_first_iff, unchecked]
        simp
      · obtain ⟨fired, fires, cuts, outcome⟩ := ih (notifier.look.1.fire notice)
        rw [attempted]
        have one : notifier.Fires [notice] (notifier.look.1.fire notice) :=
          (fires_look notifier).trans (fires_fire notifier.look.1 notice)
        refine ⟨notice :: fired, one.trans fires, .cons ?_ (refuses_look_fire_iff checked) cuts,
          by simpa using outcome⟩
        rw [refuses_first_iff, clear]
        simp
      · rw [attempted]
        refine ⟨[], fires_look notifier, .refused (refuses_first_iff.mpr ⟨checked, stopped⟩), .inr ?_⟩
        exact ⟨by simp, rfl, stopped⟩

/-- Nobody ever asks for a stop, whatever is fired from now on. -/
def Calm (notifier : Notifier) : Prop := ∀ looks events, ¬notifier.StopRaised looks events

theorem Calm.stopRequested_eq_false (calm : notifier.Calm) : notifier.stopRequested = false := by
  cases requested : notifier.stopRequested with
  | false => rfl
  | true => exact absurd (.inl requested) (calm 0 [])

theorem Calm.look (calm : notifier.Calm) : notifier.look.1.Calm := by
  intro looks events
  rw [stopRaised_look_iff]
  exact calm (looks + 1) events

theorem Calm.fire (calm : notifier.Calm) (notice : Notice) : (notifier.fire notice).Calm := by
  intro looks events
  rw [stopRaised_fire_iff]
  exact calm looks _

theorem Calm.attempt (calm : notifier.Calm) (notice : Notice) :
    (notifier.attempt notice).1.Calm := by
  rcases attempt_cases notifier notice with
    ⟨_, attempted⟩ | ⟨_, _, attempted⟩ | ⟨_, _, attempted⟩
  · rw [attempted]
    exact calm.fire notice
  · rw [attempted]
    exact calm.look.fire notice
  · rw [attempted]
    exact calm.look

theorem Calm.attemptAll (calm : notifier.Calm) (notices : List Notice) :
    (notifier.attemptAll notices).1.Calm := by
  induction notices generalizing notifier with
  | nil => exact calm
  | cons notice rest ih =>
      have next := calm.attempt notice
      rw [Notifier.attemptAll]
      split
      · rename_i same
        rw [same] at next
        exact ih next
      · rename_i same
        rw [same] at next
        exact next

theorem Cuts.eq_of_calm (calm : notifier.Calm) (cuts : notifier.Cuts checks fired notices) :
    fired = notices := by
  rcases cuts.rest with whole | ⟨_, _, _, refuses⟩
  · exact whole
  · exact absurd refuses.2 (calm _ _)

def undisturbed (notifier : Notifier) : Notifier :=
  { notifier with
    listeners := notifier.listeners.map fun listener =>
      { listener with asksToStop := fun _ => false }
    stopRequested := false
    interrupts := fun _ => false }

theorem calm_undisturbed (notifier : Notifier) : notifier.undisturbed.Calm := by
  intro looks events
  simp [StopRaised, undisturbed]

end Notifier

end TestDelegation
