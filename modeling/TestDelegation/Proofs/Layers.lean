import Mathlib
import TestDelegation.Proofs.CommandLine.Preparation
import TestDelegation.Proofs.Settings
import TestDelegation.Proofs.Toml.Entries

/-!
How settings are put together from their layers. Main statement: `ofSources_layers`, where the
configuration file gives its settings as strings.
-/

namespace TestDelegation

def Toml.Entries.text? (entries : Toml.Entries) (key : String) : Option String :=
  match entries.find? key with
  | some (.scalar (.text value)) => some value
  | _ => none

def Layer.value? (layer : Layer) (key : String) : Option LayerValue :=
  if key == "base-url" then layer.baseUrl
  else if key == "read-timeout" then layer.readTimeout
  else if key == "required-namespace" then layer.requiredNamespace
  else none

def settingKeys : List String := ["base-url", "read-timeout", "required-namespace"]

/-- A table gives the settings that it gives as strings, and by their own names only. -/
structure Toml.Entries.Plain (entries : Toml.Entries) : Prop where
  texts : ∀ key ∈ settingKeys, ∀ value, entries.find? key = some value →
    ∃ text, value = .scalar (.text text)
  named : ∀ entry ∈ entries, ∀ key, containerKey? entry.1 = some key → key ∉ settingKeys

/-- What the configuration file holds: a plain table, or nothing if the default one is missing. -/
inductive ConfigFile (tree : FileTree) (root : String) (explicit : Option String) :
    Toml.Entries → Prop
  | present {text : String} {entries : Toml.Entries} :
      findConfigText? tree (explicit.getD (Settings.defaultConfigFile root)) = some text →
      Toml.parse? text = some entries → entries.Plain → ConfigFile tree root explicit entries
  | missing : explicit = none → findConfigText? tree (Settings.defaultConfigFile root) = none →
      ConfigFile tree root explicit []

namespace Layer

variable {key : String} {entries : Toml.Entries}

theorem value?_set {layer : Layer} {name : String} (setting : key ∈ settingKeys)
    (value : LayerValue) :
    (layer.set name value).value? key = if name = key then some value else layer.value? key := by
  simp only [settingKeys, List.mem_cons, List.not_mem_nil, or_false] at setting
  rcases setting with rfl | rfl | rfl
  all_goals grind [set, value?]

theorem containerKey?_eq_none (setting : key ∈ settingKeys) : containerKey? key = none := by
  simp only [settingKeys, List.mem_cons, List.not_mem_nil, or_false] at setting
  rcases setting with rfl | rfl | rfl <;> decide

def takeIn (layer : Layer) (entry : String × Toml.Value) : Layer :=
  match containerKey? entry.1 with
  | some key => layer.set key .container
  | none => layer.set entry.1 (LayerValue.ofToml entry.2)

theorem ofToml_eq_foldl (entries : Toml.Entries) : ofToml entries = entries.foldl takeIn {} := rfl

theorem value?_takeIn {entry : String × Toml.Value} (layer : Layer) (setting : key ∈ settingKeys)
    (named : ∀ other, containerKey? entry.1 = some other → other ∉ settingKeys) :
    (layer.takeIn entry).value? key =
      if entry.1 = key then some (LayerValue.ofToml entry.2) else layer.value? key := by
  rw [takeIn]
  cases inside : containerKey? entry.1 with
  | none => exact value?_set setting _
  | some other =>
      have elsewhere : other ≠ key := by
        rintro rfl
        exact named other inside setting
      have way : entry.1 ≠ key := by
        rintro rfl
        rw [containerKey?_eq_none setting] at inside
        exact absurd inside nofun
      rw [if_neg way]
      exact (value?_set setting _).trans (if_neg elsewhere)

theorem value?_foldl_takeIn (layer : Layer) (setting : key ∈ settingKeys)
    (distinct : DistinctNames entries)
    (named : ∀ entry ∈ entries, ∀ other, containerKey? entry.1 = some other →
      other ∉ settingKeys) :
    (entries.foldl takeIn layer).value? key =
      ((entries.find? key).map LayerValue.ofToml).or (layer.value? key) := by
  induction entries generalizing layer with
  | nil => rfl
  | cons entry rest ih =>
      obtain ⟨apart, distinct⟩ := List.nodup_cons.mp distinct
      obtain ⟨firstNamed, restNamed⟩ := List.forall_mem_cons.mp named
      rw [List.foldl_cons, ih _ distinct restNamed, value?_takeIn layer setting firstNamed,
        Toml.Entries.find?, Toml.Entries.find?, List.lookup_cons]
      by_cases same : entry.1 = key
      · -- A later entry would win, but a table lists the key only once.
        have last : rest.lookup key = none := by
          refine List.lookup_eq_none_iff.mpr fun other listed => ?_
          rw [← same]
          exact bne_iff_ne.mpr fun again => apart (again ▸ List.mem_map_of_mem listed)
        simp [same, last]
      · have other : (key == entry.1) = false := by simpa using Ne.symm same
        simp [same, other]

theorem value?_ofToml (setting : key ∈ settingKeys) (distinct : DistinctNames entries)
    (plain : entries.Plain) :
    (ofToml entries).value? key = (entries.text? key).map .text := by
  rw [ofToml_eq_foldl, value?_foldl_takeIn {} setting distinct plain.named]
  have nothing : ({} : Layer).value? key = none := by simp [value?]
  rw [nothing, Option.or_none, Toml.Entries.text?]
  cases given : entries.find? key with
  | none => rfl
  | some value =>
      obtain ⟨text, rfl⟩ := plain.texts key setting value given
      rfl

end Layer

theorem Settings.valueOf?_append (first second : List (String × String)) (name : String) :
    valueOf? (first ++ second) name = (valueOf? second name).or (valueOf? first name) := by
  simp only [valueOf?, List.reverse_append, List.lookup_append]

theorem optionalText_map_text (given : Option String) :
    optionalText (given.map .text) = some given := by
  cases given <;> rfl

theorem requiredText_or_text (given : Option String) (usual : String) :
    requiredText ((given.map .text).or (some (.text usual))) = some (given.getD usual) := by
  cases given <;> rfl

namespace ConfigFile

variable {tree : FileTree} {root : String} {explicit : Option String} {entries : Toml.Entries}

theorem plain (file : ConfigFile tree root explicit entries) : entries.Plain := by
  cases file with
  | present _ _ plain => exact plain
  | missing _ _ => exact ⟨nofun, nofun⟩

theorem distinct (file : ConfigFile tree root explicit entries) : DistinctNames entries := by
  cases file with
  | present _ parsed _ => exact Toml.distinct_parse? parsed
  | missing _ _ => exact List.nodup_nil

theorem ofFile?_eq (file : ConfigFile tree root explicit entries) :
    Layer.ofFile? tree (explicit.getD (Settings.defaultConfigFile root)) explicit.isSome =
      some (Layer.ofToml entries) := by
  cases file with
  | present found parsed _ => simp only [Layer.ofFile?, found, parsed, Option.map_some]
  | missing unasked absent =>
      rw [Layer.ofFile?, unasked, Option.getD_none, absent]
      rfl

end ConfigFile

namespace Settings

def timeoutText (environment : List (String × String)) (entries : Toml.Entries) : String :=
  ((valueOf? environment readTimeoutVariable).or (entries.text? "read-timeout")).getD "30m"

/-- The base URL that counts, if a variable of its own or the file gives one. -/
def givenUrl? (environment : List (String × String)) (entries : Toml.Entries) : Option String :=
  (valueOf? environment baseUrlVariable).or (entries.text? "base-url")

/-- Each setting is that of the highest layer to give it, whatever gives the others. -/
structure Layered (environment : List (String × String)) (entries : Toml.Entries)
    (settings : Settings) : Prop where
  baseUrl : settings.baseUrl =
    (givenUrl? environment entries).or (valueOf? environment olderBaseUrlVariable)
  readTimeout : Duration.parse? (timeoutText environment entries) = some settings.readTimeout
  requiredNamespace : settings.requiredNamespace =
    ((valueOf? environment requiredNamespaceVariable).or
      (entries.text? "required-namespace")).getD defaultNamespace

variable {tree : FileTree} {root : String} {explicit : Option String} {entries : Toml.Entries}
  {environment : List (String × String)} {settings : Settings}

theorem ofLayer?_eq_some_iff (distinct : DistinctNames entries) (plain : entries.Plain) :
    ofLayer? ((Layer.ofEnvironment environment).above
        ((Layer.ofToml entries).above Layer.builtIn)) (valueOf? environment olderBaseUrlVariable) =
      some settings ↔ Layered environment entries settings := by
  have value : ∀ key ∈ settingKeys,
      (Layer.ofToml entries).value? key = (entries.text? key).map .text :=
    fun key setting => Layer.value?_ofToml setting distinct plain
  have baseUrl : (Layer.ofToml entries).baseUrl = (entries.text? "base-url").map .text :=
    value "base-url" (by decide)
  have readTimeout : (Layer.ofToml entries).readTimeout =
      (entries.text? "read-timeout").map .text := value "read-timeout" (by decide)
  have requiredNamespace : (Layer.ofToml entries).requiredNamespace =
      (entries.text? "required-namespace").map .text := value "required-namespace" (by decide)
  simp only [ofLayer?, Layer.above, Layer.ofEnvironment, Layer.builtIn, baseUrl, readTimeout,
    requiredNamespace, Option.or_none, ← Option.or_assoc, ← Option.map_or, optionalText_map_text,
    requiredText_or_text, Option.bind_eq_bind, Option.bind_some, Option.bind_eq_some_iff]
  constructor
  · rintro ⟨duration, parsed, same⟩
    cases same
    exact ⟨rfl, parsed, rfl⟩
  · rintro ⟨url, parsed, namespaceGiven⟩
    obtain ⟨_, duration, _⟩ := settings
    cases url
    cases namespaceGiven
    exact ⟨duration, parsed, rfl⟩

theorem ofSources_eq_ok_iff (file : ConfigFile tree root explicit entries) :
    ofSources tree root explicit environment = .ok settings ↔
      Layered environment entries settings := by
  rw [← ofLayer?_eq_some_iff file.distinct file.plain, ofSources]
  simp only [file.ofFile?_eq, Option.bind_eq_bind, Option.bind_some]
  cases ofLayer? ((Layer.ofEnvironment environment).above
      ((Layer.ofToml entries).above Layer.builtIn)) (valueOf? environment olderBaseUrlVariable) with
  | none => simp
  | some found => simp

theorem contentUrl?_eq_none_of_blank {url : String} (given : settings.baseUrl = some url)
    (blank : ∀ char ∈ url.toList, Text.isBlank char = true) : settings.contentUrl? = none := by
  have missing : ¬settings.HasAddress := fun address => (hasAddress_iff given).mp address blank
  rwa [← contentUrl?_isSome_iff, Bool.not_eq_true, Option.isSome_eq_false_iff,
    Option.isNone_iff_eq_none] at missing

theorem ofSources_layers (file : ConfigFile tree root explicit entries)
    (environment : List (String × String)) :
    ((∃ settings, ofSources tree root explicit environment = .ok settings) ↔
      ∃ duration, Duration.parse? (timeoutText environment entries) = some duration) ∧
    (∀ settings, ofSources tree root explicit environment = .ok settings →
      Layered environment entries settings) ∧
    (∀ settings url, ofSources tree root explicit environment = .ok settings →
      givenUrl? environment entries = some url →
      (∀ char ∈ url.toList, Text.isBlank char = true) →
      settings.baseUrl = some url ∧ settings.contentUrl? = none) ∧
    (∀ text duration, valueOf? environment readTimeoutVariable = some text →
      Duration.parse? text = some duration →
      ∃ settings, ofSources tree root explicit environment = .ok settings ∧
        settings.readTimeout = duration) ∧
    ∀ (command : RunCommand) (job : Job), command.configFile = explicit →
      command.prepare ⟨environment, root, tree⟩ = .ok job →
      ∃ found, ofSources tree root explicit environment = .ok found ∧
        job.settings.baseUrl = command.overrides.baseUrl.or found.baseUrl ∧
        job.settings.readTimeout = command.overrides.readTimeout.getD found.readTimeout ∧
        job.settings.requiredNamespace =
          command.overrides.requiredNamespace.getD found.requiredNamespace := by
  have read : ∀ settings, ofSources tree root explicit environment = .ok settings ↔
      Layered environment entries settings := fun settings => ofSources_eq_ok_iff file
  have readable : (∃ settings, ofSources tree root explicit environment = .ok settings) ↔
      ∃ duration, Duration.parse? (timeoutText environment entries) = some duration := by
    constructor
    · rintro ⟨settings, found⟩
      exact ⟨settings.readTimeout, ((read settings).mp found).readTimeout⟩
    · rintro ⟨duration, parsed⟩
      exact ⟨⟨_, duration, _⟩, (read _).mpr ⟨rfl, parsed, rfl⟩⟩
  refine ⟨readable, fun settings => (read settings).mp, ?_, ?_, ?_⟩
  · intro settings url found given blank
    have baseUrl : settings.baseUrl = some url := by
      rw [((read settings).mp found).baseUrl, given, Option.some_or]
    exact ⟨baseUrl, contentUrl?_eq_none_of_blank baseUrl blank⟩
  · intro text duration given parsed
    have counts : timeoutText environment entries = text := by
      rw [timeoutText, given, Option.some_or, Option.getD_some]
    rw [← counts] at parsed
    obtain ⟨settings, found⟩ := readable.mpr ⟨duration, parsed⟩
    refine ⟨settings, found, Option.some.inj ?_⟩
    rw [← ((read settings).mp found).readTimeout, parsed]
  · rintro command job rfl prepared
    obtain ⟨_, texts, found, decoded, found_, settings⟩ := RunCommand.of_prepare prepared
    cases (Environment.texts?_ofTexts environment).symm.trans decoded
    rw [settings]
    exact ⟨found, found_, rfl, rfl, rfl⟩

def blankText : String := "base-url = ' '\nread-timeout = 'soon'\n"

def blankTree : FileTree := ⟨[(["c"], .file blankText)], []⟩

def blankEntries : Toml.Entries :=
  [("base-url", .scalar (.text " ")), ("read-timeout", .scalar (.text "soon"))]

theorem read?_blankTree : blankTree.read? "c" = some blankText := by cbv

theorem parse?_blankText : Toml.parse? blankText = some blankEntries := by cbv

theorem plain_blankEntries : blankEntries.Plain where
  texts key _ value given := by
    obtain ⟨before, after, same, _⟩ := List.lookup_eq_some_iff.mp given
    have listed : (key, value) ∈ blankEntries := same ▸ by simp
    simp only [blankEntries, List.mem_cons, Prod.mk.injEq, List.not_mem_nil, or_false] at listed
    rcases listed with ⟨_, rfl⟩ | ⟨_, rfl⟩
    · exact ⟨" ", rfl⟩
    · exact ⟨"soon", rfl⟩
  named entry listed key inside := by
    have settings : ∀ entry ∈ blankEntries, entry.1 ∈ settingKeys := by decide
    have bare := Layer.containerKey?_eq_none (settings entry listed)
    exact absurd (bare.symm.trans inside) nofun

theorem configFile_blankTree : ConfigFile blankTree "" (some "c") blankEntries := by
  refine .present ?_ parse?_blankText plain_blankEntries
  rw [Option.getD_some, findConfigText?, read?_blankTree, Option.some_or]

theorem ofSources_blankTree :
    let environment := [(readTimeoutVariable, "soon"), (olderBaseUrlVariable, "http://host"),
      (readTimeoutVariable, "90s")]
    ConfigFile blankTree "" (some "c") blankEntries ∧
    ∃ settings, ofSources blankTree "" (some "c") environment = .ok settings ∧
      settings.readTimeout = .ofSeconds 90 ∧ settings.contentUrl? = none := by
  intro environment
  obtain ⟨_, _, blank, overridden, _⟩ := ofSources_layers configFile_blankTree environment
  have parsed : Duration.parse? "90s" = some (.ofSeconds 90) := by decide +kernel
  obtain ⟨settings, found, readTimeout⟩ := overridden "90s" _ rfl parsed
  refine ⟨configFile_blankTree, settings, found, readTimeout, ?_⟩
  exact (blank settings " " found rfl (List.forall_mem_singleton.mpr rfl)).2

end Settings

end TestDelegation
