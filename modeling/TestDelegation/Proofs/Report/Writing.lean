import TestDelegation.Proofs.Files.Saving
import TestDelegation.Proofs.Report.Runs

/-!
What a reporter leaves in the files. Main statements: `receiveAll_of_unfinished`, nothing until a
run is finished, and `receiveAll_of_finished`, the report of it then.
-/

namespace TestDelegation.JunitReporter

variable {reporter : JunitReporter} {tree : FileTree} {events : List Event} {closing : Event}

theorem collect_keeps (reporter : JunitReporter) (event : Event) :
    (reporter.collect event).path = reporter.path ∧
      (reporter.collect event).fault = reporter.fault := by
  unfold collect
  split <;> exact ⟨rfl, rfl⟩

theorem receive_of_unfinished {event : Event}
    (unfinished : ∀ result, event.notice ≠ .runFinished result) :
    reporter.receive tree event = (reporter.collect event, tree) := by
  have nothing : reporter.report? event = none := by
    rw [report?]
    split
    · rename_i result finished
      exact absurd finished (unfinished result)
    · rfl
  rw [receive, nothing]

theorem receiveAll_cons (reporter : JunitReporter) (tree : FileTree) (event : Event)
    (rest : List Event) :
    reporter.receiveAll tree (event :: rest) =
      (reporter.receive tree event).1.receiveAll (reporter.receive tree event).2 rest := rfl

theorem receiveAll_append (reporter : JunitReporter) (tree : FileTree)
    (first second : List Event) :
    reporter.receiveAll tree (first ++ second) =
      (reporter.receiveAll tree first).1.receiveAll (reporter.receiveAll tree first).2 second := by
  rw [receiveAll, List.foldl_append]
  rfl

theorem receiveAll_append_singleton (reporter : JunitReporter) (tree : FileTree)
    (events : List Event) (event : Event) :
    reporter.receiveAll tree (events ++ [event]) =
      (reporter.receiveAll tree events).1.receive (reporter.receiveAll tree events).2 event :=
  reporter.receiveAll_append tree events [event]

theorem receiveAll_of_unfinished (reporter : JunitReporter) (tree : FileTree)
    (unfinished : ∀ event ∈ events, ∀ result, event.notice ≠ .runFinished result) :
    (reporter.receiveAll tree events).2 = tree ∧
      (reporter.receiveAll tree events).1.path = reporter.path ∧
      (reporter.receiveAll tree events).1.fault = reporter.fault := by
  induction events generalizing reporter with
  | nil => exact ⟨rfl, rfl, rfl⟩
  | cons event rest ih =>
      obtain ⟨first, later⟩ := List.forall_mem_cons.mp unfinished
      obtain ⟨path, fault⟩ := reporter.collect_keeps event
      rw [receiveAll_cons, receive_of_unfinished first, ← path, ← fault]
      exact ih (reporter.collect event) later

theorem receive_of_finished (reporter : JunitReporter) (tree : FileTree) {result : RunResult}
    (finished : closing.notice = .runFinished result) :
    reporter.receive tree closing =
      let (after, saved) := saveReport tree reporter.path (reporter.report result).render
      ((reporter.collect closing).written saved, after) := by
  rw [receive, report?, finished]

/-- The one report of a run is saved under the path, or nothing can be saved there. -/
theorem receiveAll_of_finished (path : String) (tree : FileTree) {result : RunResult}
    (unfinished : ∀ event ∈ events, ∀ result, event.notice ≠ .runFinished result)
    (finished : closing.notice = .runFinished result) :
    let told := ({ path } : JunitReporter).receiveAll tree (events ++ [closing])
    told.1.path = path ∧
    ((tree.Saves path ∧ told.1.finish = .ok () ∧ ∃ report : JunitReport,
      told.2.Stands path report.render ∧ HoldCases report.suites (events.map Event.notice)) ∨
    (¬tree.Saves path ∧ ∃ error, told.1.finish = .error error)) := by
  intro told
  have empty : HoldCases ({ path } : JunitReporter).suites [] := ⟨[], rfl, rfl⟩
  have holds := holdCases_receiveAll empty tree events
  have notices : ∀ notice ∈ events.map Event.notice, ∀ result, notice ≠ .runFinished result :=
    List.forall_mem_map.mpr unfinished
  rw [RunEvents.foldl_leftAfter_of_unfinished notices, List.nil_append] at holds
  obtain ⟨unchanged, own, faultless⟩ :=
    ({ path } : JunitReporter).receiveAll_of_unfinished tree unfinished
  have last : told =
      (({ path } : JunitReporter).receiveAll tree events).1.receive tree closing := by
    refine (receiveAll_append_singleton _ tree events closing).trans ?_
    rw [unchanged]
  generalize (({ path } : JunitReporter).receiveAll tree events).1 = reporter at *
  obtain ⟨collectedPath, collectedFault⟩ := reporter.collect_keeps closing
  rw [last, reporter.receive_of_finished tree finished, own]
  rcases saveReport_cases tree path (reporter.report result).render with
    ⟨saves, after, saved, stands⟩ | ⟨blocked, after, error, refused⟩
  · rw [saved]
    refine ⟨collectedPath.trans own, .inl ⟨saves, ?_, _, stands, holds⟩⟩
    change (reporter.collect closing).finish = .ok ()
    rw [finish, collectedFault, faultless]
  · rw [refused]
    exact ⟨collectedPath.trans own, .inr ⟨blocked, error, rfl⟩⟩

end TestDelegation.JunitReporter
