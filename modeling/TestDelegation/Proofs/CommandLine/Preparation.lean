import TestDelegation.CommandLine.Job

/-!
How a job is prepared, or why it is not. Main statement: `prepare_cases`.
-/

namespace TestDelegation.RunCommand

/-- The class name is invalid, or the settings cannot be read from variables that are all text. -/
def Unready (command : RunCommand) (surroundings : Surroundings) : Prop :=
  (∃ error, ClassName.parse command.className = .error error) ∨
    ∃ texts error, surroundings.environment.texts? = some texts ∧
      Settings.ofSources surroundings.tree surroundings.directory command.configFile texts =
        .error error

/-- A wrong class name is told first, then a variable that is no text, then wrong settings. -/
theorem prepare_cases (command : RunCommand) (surroundings : Surroundings) :
    (∃ error, ClassName.parse command.className = .error error ∧
      command.prepare surroundings = .error ⟨.setupError, [errorEntry error.message]⟩) ∨
    (∃ className, ClassName.parse command.className = .ok className ∧
      surroundings.environment.texts? = none ∧
      command.prepare surroundings = .error ⟨.crashed, []⟩) ∨
    (∃ className texts error, ClassName.parse command.className = .ok className ∧
      surroundings.environment.texts? = some texts ∧
      Settings.ofSources surroundings.tree surroundings.directory command.configFile texts =
        .error error ∧
      command.prepare surroundings =
        .error ⟨.setupError, [errorEntry (command.configErrorText error)]⟩) ∨
    ∃ className texts found log, ClassName.parse command.className = .ok className ∧
      surroundings.environment.texts? = some texts ∧
      Settings.ofSources surroundings.tree surroundings.directory command.configFile texts =
        .ok found ∧
      command.prepare surroundings =
        .ok ⟨command, className, found.override command.overrides, log⟩ := by
  rw [prepare]
  cases named : ClassName.parse command.className with
  | error error => exact .inl ⟨error, rfl, rfl⟩
  | ok className =>
      dsimp only
      refine .inr ?_
      cases decoded : surroundings.environment.texts? with
      | none => exact .inl ⟨className, rfl, rfl, rfl⟩
      | some texts =>
          dsimp only
          refine .inr ?_
          cases read : Settings.ofSources surroundings.tree surroundings.directory
              command.configFile texts with
          | error error => exact .inl ⟨className, texts, error, rfl, rfl, read, rfl⟩
          | ok found => exact .inr ⟨className, texts, found, _, rfl, rfl, read, rfl⟩

variable {command : RunCommand} {surroundings : Surroundings} {job : Job}
  {texts : List (String × String)}

theorem exists_job_of_ready (decoded : surroundings.environment.texts? = some texts)
    (ready : ¬command.Unready surroundings) : ∃ job, command.prepare surroundings = .ok job := by
  rcases command.prepare_cases surroundings with
    ⟨error, invalid, _⟩ | ⟨_, _, undecoded, _⟩ | ⟨_, _, error, _, read, broken, _⟩ |
      ⟨_, _, _, _, _, _, _, prepared⟩
  · exact absurd (.inl ⟨error, invalid⟩) ready
  · exact absurd (undecoded.symm.trans decoded) nofun
  · exact absurd (.inr ⟨_, error, read, broken⟩) ready
  · exact ⟨_, prepared⟩

theorem of_prepare (prepared : command.prepare surroundings = .ok job) :
    job.command = command ∧ ∃ texts found, surroundings.environment.texts? = some texts ∧
      Settings.ofSources surroundings.tree surroundings.directory command.configFile texts =
        .ok found ∧
      job.settings = found.override command.overrides := by
  rcases command.prepare_cases surroundings with
    ⟨_, _, failed⟩ | ⟨_, _, _, failed⟩ | ⟨_, _, _, _, _, _, failed⟩ |
      ⟨_, texts, found, _, _, decoded, read, made⟩
  · exact absurd (failed.symm.trans prepared) nofun
  · exact absurd (failed.symm.trans prepared) nofun
  · exact absurd (failed.symm.trans prepared) nofun
  · cases made.symm.trans prepared
    exact ⟨rfl, texts, found, decoded, read, rfl⟩

end TestDelegation.RunCommand
