import TestDelegation.ClassName
import TestDelegation.Duration.Parser
import TestDelegation.Files.Tree
import TestDelegation.Toml.Parser

/-!
Settings of a delegated run and where they come from. Layers, lowest first: built-in defaults, a
TOML file, environment variables, overrides. The older variable for the base URL counts only if no
layer gives a base URL.
-/

namespace TestDelegation

structure Settings where
  baseUrl : Option String
  readTimeout : Duration
  requiredNamespace : String
  deriving DecidableEq

namespace Settings

def configPath : String := ".config/delegate.toml"
def baseUrlVariable : String := "DELEGATE_BASE_URL"
def readTimeoutVariable : String := "DELEGATE_READ_TIMEOUT"
def requiredNamespaceVariable : String := "DELEGATE_REQUIRED_NAMESPACE"
def olderBaseUrlVariable : String := "baseurl"
def runTestPath : String := "rest/atlassiantestrunner/1.0/runtest"
def defaultReadTimeout : Duration := .ofSeconds 1800
def defaultNamespace : String := "it"

/-- The value of a variable; of several with its name the last one counts. -/
def valueOf? (environment : List (String × String)) (name : String) : Option String :=
  environment.reverse.lookup name

def new (baseUrl : Option String) : Settings := ⟨baseUrl, defaultReadTimeout, defaultNamespace⟩

def default : Settings := new none

def contentUrl? (settings : Settings) : Option String :=
  settings.baseUrl.filter fun url => !(Text.trim url).isEmpty

def withoutTrailingSlash (text : String) : String :=
  match text.toList.reverse with
  | '/' :: rest => String.ofList rest.reverse
  | _ => text

end Settings

inductive ConfigurationError where
  | missingBaseUrl
  | wrongNamespace (className : ClassName) (required : String)
  deriving DecidableEq

def ConfigurationError.message : ConfigurationError → String
  | .missingBaseUrl =>
    "missing base URL for the remote test runner; set `base-url` in `" ++ Settings.configPath ++
      "`, or the `" ++ Settings.baseUrlVariable ++ "` or `" ++ Settings.olderBaseUrlVariable ++
      "` environment variable"
  | .wrongNamespace className required =>
    "the class [" ++ className.text ++ "] is set up to run remotely but it is not in the '" ++
      required ++ ".' package\nPlease move the class into the '" ++ required ++
      ".' package or stop running it remotely"

namespace Settings

def resourceUrl (settings : Settings) (className : ClassName) :
    Except ConfigurationError String :=
  match settings.contentUrl? with
  | none => .error .missingBaseUrl
  | some url =>
    .ok (withoutTrailingSlash (Text.trim url) ++ "/" ++ runTestPath ++ "/" ++ className.text)

def checkNamespace (settings : Settings) (className : ClassName) :
    Except ConfigurationError Unit :=
  let required := settings.requiredNamespace
  if required.isEmpty || className.topLevelNamespace == required then .ok ()
  else .error (.wrongNamespace className required)

end Settings

inductive LayerValue where
  | text (value : String)
  | container
  deriving DecidableEq

structure Layer where
  baseUrl : Option LayerValue := none
  readTimeout : Option LayerValue := none
  requiredNamespace : Option LayerValue := none
  deriving DecidableEq

namespace Layer

/-- Each key from the upper layer if that gives it, otherwise from the lower one. -/
def above (upper lower : Layer) : Layer where
  baseUrl := upper.baseUrl.or lower.baseUrl
  readTimeout := upper.readTimeout.or lower.readTimeout
  requiredNamespace := upper.requiredNamespace.or lower.requiredNamespace

def set (layer : Layer) (key : String) (value : LayerValue) : Layer :=
  if key == "base-url" then { layer with baseUrl := some value }
  else if key == "read-timeout" then { layer with readTimeout := some value }
  else if key == "required-namespace" then { layer with requiredNamespace := some value }
  else layer

def builtIn : Layer where
  readTimeout := some (.text "30m")
  requiredNamespace := some (.text Settings.defaultNamespace)

def ofEnvironment (environment : List (String × String)) : Layer where
  baseUrl := (Settings.valueOf? environment Settings.baseUrlVariable).map .text
  readTimeout := (Settings.valueOf? environment Settings.readTimeoutVariable).map .text
  requiredNamespace := (Settings.valueOf? environment Settings.requiredNamespaceVariable).map .text

end Layer

def LayerValue.ofToml : Toml.Value → LayerValue
  | .scalar value => .text value.asText
  | .array _ => .container
  | .table _ _ => .container
  | .tables _ => .container

def isKeyTail : Nat → List Char → Bool
  | 0, _ => false
  | _, [] => true
  | fuel + 1, '.' :: rest =>
    let (name, rest) := rest.span Toml.isBareKeyChar
    !name.isEmpty && isKeyTail fuel rest
  | fuel + 1, '[' :: rest =>
    let unsigned :=
      match rest with
      | '-' :: rest => rest
      | rest => rest
    let (index, rest) := unsigned.span Decimal.isDigit
    match rest with
    | ']' :: rest => !index.isEmpty && isKeyTail fuel rest
    | _ => false
  | _, _ => false

/-- The key that a key of the file sets into, if it is written as a way into a container. -/
def containerKey? (key : String) : Option String :=
  let (name, rest) := key.toList.span Toml.isBareKeyChar
  if !name.isEmpty && !rest.isEmpty && isKeyTail (rest.length + 1) rest then
    some (String.ofList name)
  else none

/-- The keys of a file in their order; a key may also name a place inside a container. -/
def Layer.ofToml (entries : Toml.Entries) : Layer :=
  List.foldl (fun layer (entry : String × Toml.Value) =>
    match containerKey? entry.1 with
    | some key => layer.set key .container
    | none => layer.set entry.1 (LayerValue.ofToml entry.2)) {} entries

structure ConfigError where
  file : Option String
  deriving DecidableEq

def ConfigError.message (error : ConfigError) : String :=
  match error.file with
  | some file => "failed to parse delegate config at `" ++ file ++ "`"
  | none => "failed to parse delegate config"

def requiredText : Option LayerValue → Option String
  | some (.text value) => some value
  | _ => none

def optionalText : Option LayerValue → Option (Option String)
  | none => some none
  | some (.text value) => some (some value)
  | some .container => none

def Settings.ofLayer? (layer : Layer) (olderBaseUrl : Option String) : Option Settings := do
  let baseUrl ← optionalText layer.baseUrl
  let readTimeout ← Duration.parse? (← requiredText layer.readTimeout)
  let requiredNamespace ← requiredText layer.requiredNamespace
  return { baseUrl := baseUrl.or olderBaseUrl, readTimeout, requiredNamespace }

/-- A file that is not there under its name is looked for with `.toml` after the name. -/
def findConfigText? (tree : FileTree) (path : String) : Option String :=
  (tree.read? path).or ((Path.appendToName? path ".toml").bind tree.read?)

def Layer.ofFile? (tree : FileTree) (path : String) (explicit : Bool) : Option Layer :=
  match findConfigText? tree path with
  | some text => (Toml.parse? text).map Layer.ofToml
  | none => if explicit then none else some {}

namespace Settings

def defaultConfigFile (root : String) : String := Path.join root configPath

/-- The file that an error names: the one asked for, or the default one if it exists. -/
def namedFile? (tree : FileTree) (root : String) (explicit : Option String) : Option String :=
  match explicit with
  | some file => some file
  | none =>
    let file := defaultConfigFile root
    if tree.pathExists file then some file else none

def ofSources (tree : FileTree) (root : String) (explicit : Option String)
    (environment : List (String × String)) : Except ConfigError Settings :=
  let path := explicit.getD (defaultConfigFile root)
  let settings := do
    let file ← Layer.ofFile? tree path explicit.isSome
    let merged := (Layer.ofEnvironment environment).above (file.above Layer.builtIn)
    ofLayer? merged (valueOf? environment olderBaseUrlVariable)
  match settings with
  | some settings => .ok settings
  | none => .error ⟨namedFile? tree root explicit⟩

structure Overrides where
  baseUrl : Option String := none
  readTimeout : Option Duration := none
  requiredNamespace : Option String := none

def override (settings : Settings) (overrides : Overrides) : Settings where
  baseUrl := overrides.baseUrl.or settings.baseUrl
  readTimeout := overrides.readTimeout.getD settings.readTimeout
  requiredNamespace := overrides.requiredNamespace.getD settings.requiredNamespace

end Settings

end TestDelegation
