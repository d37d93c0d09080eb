import TestDelegation.Notification.Notifier

/-!
What a notifier has done once it fired some notices. Main definition: `Notifier.Fires`. One firing
and a chain of firings are described by it, and later modules do not open `Notifier.fire`.
-/

namespace TestDelegation

namespace Listener

def receiveAll (listener : Listener) (events : List Event) : Listener :=
  { listener with received := listener.received ++ events }

@[simp] theorem received_receiveAll (listener : Listener) (events : List Event) :
    (listener.receiveAll events).received = listener.received ++ events := rfl

@[simp] theorem asksToStop_receiveAll (listener : Listener) (events : List Event) :
    (listener.receiveAll events).asksToStop = listener.asksToStop := rfl

@[simp] theorem receiveAll_nil (listener : Listener) : listener.receiveAll [] = listener := by
  simp [receiveAll]

@[simp] theorem receiveAll_receiveAll (listener : Listener) (first second : List Event) :
    (listener.receiveAll first).receiveAll second = listener.receiveAll (first ++ second) := by
  simp [receiveAll]

end Listener

theorem map_receiveAll_nil (listeners : List Listener) :
    listeners.map (fun listener => listener.receiveAll []) = listeners := by
  simp

theorem map_receiveAll_receiveAll (listeners : List Listener) (first second : List Event) :
    (listeners.map fun listener => listener.receiveAll first).map
        (fun listener => listener.receiveAll second) =
      listeners.map fun listener => listener.receiveAll (first ++ second) := by
  simp

def RunResult.recordAll (result : RunResult) (notices : List Notice) : RunResult :=
  notices.foldl RunResult.record result

namespace Notifier

def eventAt (notifier : Notifier) (position : Nat) (notice : Notice) : Event :=
  let reading := notifier.clock (notifier.readings + position)
  { timestamp := reading.timestamp
    elapsed := reading.uptime.since notifier.startedAt
    notice := notice }

/-- The events of notices that are fired one after another from now on. -/
def events (notifier : Notifier) (notices : List Notice) : List Event :=
  notices.mapIdx notifier.eventAt

/--
From one state to the other exactly these notices were fired, each once and in this order. The
stop request and the number of looks at it are left open.
-/
structure Fires (before : Notifier) (notices : List Notice) (after : Notifier) : Prop where
  listeners : after.listeners =
    before.listeners.map fun listener => listener.receiveAll (before.events notices)
  result : after.result = before.result.recordAll notices
  readings : after.readings = before.readings + notices.length
  clock : after.clock = before.clock
  startedAt : after.startedAt = before.startedAt
  interrupts : after.interrupts = before.interrupts

variable {before middle after : Notifier} {first second : List Notice}

@[simp] theorem events_nil (notifier : Notifier) : notifier.events [] = [] := rfl

@[simp] theorem map_notice_events (notifier : Notifier) (notices : List Notice) :
    (notifier.events notices).map Event.notice = notices := by
  apply List.ext_getElem
  · simp [events]
  · intro index _ _
    simp [events, eventAt]

theorem events_congr {notifier other : Notifier} (clock : other.clock = notifier.clock)
    (readings : other.readings = notifier.readings)
    (startedAt : other.startedAt = notifier.startedAt) (notices : List Notice) :
    other.events notices = notifier.events notices := by
  have same : other.eventAt = notifier.eventAt := by
    funext position notice
    simp only [eventAt, clock, readings, startedAt]
  rw [events, same, events]

theorem Fires.events_append (fires : before.Fires first middle) (second : List Notice) :
    before.events (first ++ second) = before.events first ++ middle.events second := by
  have later : middle.eventAt = fun position => before.eventAt (position + first.length) := by
    funext position notice
    have shifted : before.readings + first.length + position =
        before.readings + (position + first.length) := by omega
    simp only [eventAt, fires.clock, fires.readings, fires.startedAt, shifted]
  rw [events, List.mapIdx_append, events, events, later]

theorem fires_look (notifier : Notifier) : notifier.Fires [] notifier.look.1 where
  listeners := (map_receiveAll_nil notifier.listeners).symm
  result := rfl
  readings := rfl
  clock := rfl
  startedAt := rfl
  interrupts := rfl

theorem fires_nil (notifier : Notifier) : notifier.Fires [] notifier where
  listeners := (map_receiveAll_nil notifier.listeners).symm
  result := rfl
  readings := rfl
  clock := rfl
  startedAt := rfl
  interrupts := rfl

theorem fires_fire (notifier : Notifier) (notice : Notice) :
    notifier.Fires [notice] (notifier.fire notice) where
  listeners := rfl
  result := rfl
  readings := rfl
  clock := rfl
  startedAt := rfl
  interrupts := rfl

theorem listeners_startRun (notifier : Notifier) (description : Description) :
    ∃ event, event.notice = .runStarted description ∧
      (notifier.startRun description).listeners =
        notifier.listeners.map fun listener => listener.receiveAll [event] :=
  ⟨_, rfl, (fires_fire _ (.runStarted description)).listeners⟩

theorem listeners_finishRun (notifier : Notifier) :
    ∃ event, event.notice = .runFinished notifier.finishRun.2 ∧
      notifier.finishRun.1.listeners =
        notifier.listeners.map fun listener => listener.receiveAll [event] :=
  ⟨_, rfl, (fires_fire _ (.runFinished notifier.finishRun.2)).listeners⟩

theorem Fires.trans (fires : before.Fires first middle) (next : middle.Fires second after) :
    before.Fires (first ++ second) after where
  listeners := by
    rw [next.listeners, fires.listeners, map_receiveAll_receiveAll, fires.events_append]
  result := by
    rw [next.result, fires.result, RunResult.recordAll, RunResult.recordAll, RunResult.recordAll,
      List.foldl_append]
  readings := by
    rw [next.readings, fires.readings, List.length_append, Nat.add_assoc]
  clock := next.clock.trans fires.clock
  startedAt := next.startedAt.trans fires.startedAt
  interrupts := next.interrupts.trans fires.interrupts

end Notifier

end TestDelegation
