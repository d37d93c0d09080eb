import Mathlib
import TestDelegation.Proofs.Success
import TestDelegation.Settings

/-!
Which file an error of the settings names. Main statement: `ofSources_names_file`. An error names
the file that the settings are read from, wherever the fault lies.
-/

namespace TestDelegation

/-- The values of a layer that settings can be made of. -/
structure Layer.Readable (layer : Layer) : Prop where
  baseUrl : layer.baseUrl ≠ some .container
  readTimeout : ∃ text duration, layer.readTimeout = some (.text text) ∧
    Duration.parse? text = some duration
  requiredNamespace : ∃ text, layer.requiredNamespace = some (.text text)

namespace Layer

variable {layer lower : Layer} {environment : List (String × String)}

theorem requiredText_eq_some_iff {value : Option LayerValue} {text : String} :
    requiredText value = some text ↔ value = some (.text text) := by
  rcases value with _ | _ | _ <;> simp [requiredText]

theorem exists_optionalText_iff {value : Option LayerValue} :
    (∃ text, optionalText value = some text) ↔ value ≠ some .container := by
  rcases value with _ | _ | _ <;> simp [optionalText]

theorem exists_ofLayer?_iff (layer : Layer) (olderBaseUrl : Option String) :
    (∃ settings, Settings.ofLayer? layer olderBaseUrl = some settings) ↔ layer.Readable := by
  simp only [Settings.ofLayer?, Option.bind_eq_bind, Option.bind_eq_some_iff,
    requiredText_eq_some_iff]
  constructor
  · rintro ⟨_, url, urlRead, text, given, duration, parsed, name, named, _⟩
    exact ⟨exists_optionalText_iff.mp ⟨url, urlRead⟩, ⟨text, duration, given, parsed⟩, name, named⟩
  · rintro ⟨plain, ⟨text, duration, given, parsed⟩, name, named⟩
    obtain ⟨url, urlRead⟩ := exists_optionalText_iff.mpr plain
    exact ⟨_, url, urlRead, text, given, duration, parsed, name, named, rfl⟩

theorem ofEnvironment_nil_above (lower : Layer) : (ofEnvironment []).above lower = lower := rfl

theorem readable_above_iff (readable : lower.Readable) :
    ((ofEnvironment environment).above lower).Readable ↔
      ∀ text, Settings.valueOf? environment Settings.readTimeoutVariable = some text →
        ∃ duration, Duration.parse? text = some duration := by
  constructor
  · intro above text given
    obtain ⟨counted, duration, counts, parsed⟩ := above.readTimeout
    simp only [Layer.above, ofEnvironment, given, Option.map_some, Option.some_or,
      Option.some.injEq, LayerValue.text.injEq] at counts
    subst counted
    exact ⟨duration, parsed⟩
  · intro timed
    refine ⟨?_, ?_, ?_⟩
    · cases given : Settings.valueOf? environment Settings.baseUrlVariable with
      | none => simpa [Layer.above, ofEnvironment, given] using readable.baseUrl
      | some url => simp [Layer.above, ofEnvironment, given]
    · cases given : Settings.valueOf? environment Settings.readTimeoutVariable with
      | none => simpa [Layer.above, ofEnvironment, given] using readable.readTimeout
      | some text =>
          obtain ⟨duration, parsed⟩ := timed text given
          exact ⟨text, duration, by simp [Layer.above, ofEnvironment, given], parsed⟩
    · cases given : Settings.valueOf? environment Settings.requiredNamespaceVariable with
      | none => simpa [Layer.above, ofEnvironment, given] using readable.requiredNamespace
      | some name => simp [Layer.above, ofEnvironment, given]

end Layer

namespace Settings

/-- The path, as it was given, of the file asked for, or of the default one if that is there. -/
inductive GivenFile (tree : FileTree) (root : String) : Option String → String → Prop
  | asked (path : String) : GivenFile tree root (some path) path
  | usual : tree.pathExists (defaultConfigFile root) = true →
      GivenFile tree root none (defaultConfigFile root)

variable {tree : FileTree} {root : String} {explicit : Option String}
  {environment : List (String × String)}

theorem namedFile?_eq_some_iff {path : String} :
    namedFile? tree root explicit = some path ↔ GivenFile tree root explicit path := by
  constructor
  · intro named
    cases explicit with
    | some file =>
        obtain rfl : file = path := Option.some.inj named
        exact .asked file
    | none =>
        by_cases present : tree.pathExists (defaultConfigFile root) = true
        · obtain rfl : defaultConfigFile root = path := by
            simpa [namedFile?, present] using named
          exact .usual present
        · simp [namedFile?, present] at named
  · intro given
    cases given with
    | asked => rfl
    | usual present => simp [namedFile?, present]

theorem ofSources_eq_error {error : ConfigError}
    (failed : ofSources tree root explicit environment = .error error) :
    error.file = namedFile? tree root explicit := by
  simp only [ofSources] at failed
  split at failed
  · cases failed
  · cases failed
    rfl

theorem exists_ofSources_iff :
    (∃ settings, ofSources tree root explicit environment = .ok settings) ↔
      ∃ file, Layer.ofFile? tree (explicit.getD (defaultConfigFile root)) explicit.isSome =
        some file ∧
        ((Layer.ofEnvironment environment).above (file.above Layer.builtIn)).Readable := by
  have read : ∀ settings, ofSources tree root explicit environment = .ok settings ↔
      ∃ file, Layer.ofFile? tree (explicit.getD (defaultConfigFile root)) explicit.isSome =
        some file ∧
        ofLayer? ((Layer.ofEnvironment environment).above (file.above Layer.builtIn))
          (valueOf? environment olderBaseUrlVariable) = some settings := by
    intro settings
    rw [← Option.bind_eq_some_iff, ofSources]
    simp only [Option.bind_eq_bind]
    cases Option.bind (Layer.ofFile? tree (explicit.getD (defaultConfigFile root)) explicit.isSome)
        fun file => ofLayer? ((Layer.ofEnvironment environment).above (file.above Layer.builtIn))
          (valueOf? environment olderBaseUrlVariable) with
    | none => simp
    | some found => simp
  simp only [read]
  constructor
  · rintro ⟨settings, file, found, made⟩
    exact ⟨file, found, (Layer.exists_ofLayer?_iff _ _).mp ⟨settings, made⟩⟩
  · rintro ⟨file, found, readable⟩
    obtain ⟨settings, made⟩ := (Layer.exists_ofLayer?_iff _ _).mpr readable
    exact ⟨settings, file, found, made⟩

theorem exists_error_iff :
    (∃ error, ofSources tree root explicit environment = .error error) ↔
      ¬∃ settings, ofSources tree root explicit environment = .ok settings := by
  cases ofSources tree root explicit environment <;> simp

/--
An error names the file that was given, if there is one. This holds for an error of the environment
too, which can only be a timeout of no known form.
-/
theorem ofSources_names_file (tree : FileTree) (root : String) (explicit : Option String)
    (environment : List (String × String)) :
    (∀ error, ofSources tree root explicit environment = .error error →
      ∀ path, error.file = some path ↔ GivenFile tree root explicit path) ∧
    ∀ settings, ofSources tree root explicit [] = .ok settings →
      ((∃ error, ofSources tree root explicit environment = .error error) ↔
        ∃ text, valueOf? environment readTimeoutVariable = some text ∧
          Duration.parse? text = none) ∧
      ∀ error, ofSources tree root explicit environment = .error error →
        (error.file = none ↔ ∀ path, ¬GivenFile tree root explicit path) := by
  have named : ∀ error, ofSources tree root explicit environment = .error error →
      ∀ path, error.file = some path ↔ GivenFile tree root explicit path := by
    intro error failed path
    rw [ofSources_eq_error failed, namedFile?_eq_some_iff]
  refine ⟨named, ?_⟩
  intro settings clear
  refine ⟨?_, ?_⟩
  · obtain ⟨file, found, readable⟩ := exists_ofSources_iff.mp ⟨settings, clear⟩
    rw [Layer.ofEnvironment_nil_above] at readable
    rw [exists_error_iff, exists_ofSources_iff, found]
    simp [Layer.readable_above_iff readable, Option.eq_none_iff_forall_ne_some]
  · intro error failed
    rw [Option.eq_none_iff_forall_ne_some]
    exact forall_congr' fun path => not_congr (named error failed path)

def emptyFileTree : FileTree := ⟨[(["c"], .file "")], []⟩

theorem read?_emptyFileTree : emptyFileTree.read? "c" = some "" := by cbv

theorem parse?_empty : Toml.parse? "" = some [] := by cbv

theorem ofSources_emptyFileTree (environment : List (String × String)) :
    ofSources emptyFileTree "" (some "c") environment =
      match ofLayer? ((Layer.ofEnvironment environment).above Layer.builtIn)
          (valueOf? environment olderBaseUrlVariable) with
      | some settings => .ok settings
      | none => .error ⟨some "c"⟩ := by
  have found : findConfigText? emptyFileTree "c" = some "" := by
    rw [findConfigText?, read?_emptyFileTree, Option.some_or]
  simp only [ofSources, Option.getD_some, Layer.ofFile?, found, parse?_empty, Option.map_some]
  rfl

theorem ofSources_emptyFile : ofSources emptyFileTree "" (some "c") [] = .ok default := by
  have made : ofLayer? Layer.builtIn none = some default := by decide +kernel
  have unset : valueOf? [] olderBaseUrlVariable = none := rfl
  rw [ofSources_emptyFileTree, Layer.ofEnvironment_nil_above, unset, made]

theorem ofSources_names_file_soon :
    ofSources emptyFileTree "" (some "c") [] = .ok default ∧
      ∃ error,
        ofSources emptyFileTree "" (some "c") [(readTimeoutVariable, "soon")] = .error error ∧
        error.file = some "c" ∧
        (error.file = none ↔ ∀ path, ¬GivenFile emptyFileTree "" (some "c") path) := by
  obtain ⟨named, environmental⟩ :=
    ofSources_names_file emptyFileTree "" (some "c") [(readTimeoutVariable, "soon")]
  obtain ⟨fails, unnamed⟩ := environmental default ofSources_emptyFile
  have unread : Duration.parse? "soon" = none := by decide +kernel
  obtain ⟨error, failed⟩ := fails.mpr ⟨"soon", rfl, unread⟩
  exact ⟨ofSources_emptyFile, error, failed, (named error failed "c").mpr (.asked "c"),
    unnamed error failed⟩

theorem file_named_for_variable :
    ofSources emptyFileTree "" (some "c") [] = .ok default ∧
      ofSources emptyFileTree "" (some "c") [(readTimeoutVariable, "soon")] =
        .error ⟨some "c"⟩ := by
  have refused : ofLayer?
      ((Layer.ofEnvironment [(readTimeoutVariable, "soon")]).above Layer.builtIn)
      (valueOf? [(readTimeoutVariable, "soon")] olderBaseUrlVariable) = none := by
    decide +kernel
  refine ⟨ofSources_emptyFile, ?_⟩
  rw [ofSources_emptyFileTree, refused]

end Settings

end TestDelegation
