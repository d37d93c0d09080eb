import TestDelegation.CommandLine.Environment
import TestDelegation.Duration.Parser
import TestDelegation.Settings

/-!
The arguments of the command. Shared options may stand before or after `run`, where the later
place counts; then come the environment and the defaults. Main definition: `Invocation.parse`.
-/

namespace TestDelegation

inductive ColorChoice where
  | auto
  | always
  | never
  deriving DecidableEq, Repr

inductive MessageFormat where
  | human
  | json
  deriving DecidableEq, Repr

inductive UsageError where
  | unknownArgument (text : String)
  | unexpectedValue (option : String)
  | missingValue (option : String)
  | invalidValue (option value : String)
  | repeated (option : String)
  | notUnicode
  | unknownCommand (name : String)
  | missingCommand
  | missingClass
  deriving DecidableEq

def UsageError.message : UsageError → String
  | .unknownArgument text => "unexpected argument '" ++ text ++ "' found"
  | .unexpectedValue option => "no value is taken by '" ++ option ++ "'"
  | .missingValue option => "a value is required for '" ++ option ++ "'"
  | .invalidValue option value => "invalid value '" ++ value ++ "' for '" ++ option ++ "'"
  | .repeated option => "the argument '" ++ option ++ "' cannot be used multiple times"
  | .notUnicode => "invalid UTF-8 was detected in one or more arguments"
  | .unknownCommand name => "unrecognized subcommand '" ++ name ++ "'"
  | .missingCommand => "a subcommand is required"
  | .missingClass => "the name of a test class is required"

def ColorChoice.parse? (text : String) : Option ColorChoice :=
  [("auto", .auto), ("always", .always), ("never", .never)].lookup text

def MessageFormat.parse? (text : String) : Option MessageFormat :=
  [("human", .human), ("json", .json)].lookup text

def parseFlag? (text : String) : Option Bool :=
  [("true", true), ("false", false)].lookup text

inductive ValueOption where
  | config
  | baseUrl
  | readTimeout
  | requiredNamespace
  | color
  | junit
  | messageFormat
  deriving DecidableEq, Repr

namespace ValueOption

def shared : List ValueOption := [.config, .baseUrl, .readTimeout, .requiredNamespace, .color]

def name : ValueOption → String
  | .config => "config"
  | .baseUrl => "base-url"
  | .readTimeout => "read-timeout"
  | .requiredNamespace => "required-namespace"
  | .color => "color"
  | .junit => "junit"
  | .messageFormat => "message-format"

end ValueOption

inductive ArgumentPlace where
  | outer
  | run
  deriving DecidableEq, Repr

namespace ArgumentPlace

def valueOptions : ArgumentPlace → List ValueOption
  | .outer => ValueOption.shared
  | .run => ValueOption.shared ++ [.junit, .messageFormat]

def valueOption? (place : ArgumentPlace) (name : String) : Option ValueOption :=
  place.valueOptions.find? fun option => option.name == name

end ArgumentPlace

structure GivenArguments where
  configFile : Option String := none
  baseUrl : Option String := none
  readTimeout : Option Duration := none
  requiredNamespace : Option String := none
  color : Option ColorChoice := none
  junit : Option String := none
  messageFormat : Option MessageFormat := none
  verbose : Bool := false
  className : Option String := none

inductive EarlyEnd where
  | version
  | help
  | usage (error : UsageError)
  deriving DecidableEq

namespace GivenArguments

def setOnce {α : Type} (option : ValueOption) (earlier : Option α) (value : String)
    (parse? : String → Option α) : Except EarlyEnd (Option α) :=
  match parse? value with
  | none => .error (.usage (.invalidValue ("--" ++ option.name) value))
  | some found =>
    if earlier.isSome then .error (.usage (.repeated ("--" ++ option.name)))
    else .ok (some found)

def set (given : GivenArguments) (option : ValueOption) (value : String) :
    Except EarlyEnd GivenArguments := do
  match option with
  | .config =>
    return { given with configFile := ← setOnce option given.configFile value some }
  | .baseUrl => return { given with baseUrl := ← setOnce option given.baseUrl value some }
  | .readTimeout =>
    return { given with readTimeout := ← setOnce option given.readTimeout value Duration.parse? }
  | .requiredNamespace =>
    return { given with
      requiredNamespace := ← setOnce option given.requiredNamespace value some }
  | .color => return { given with color := ← setOnce option given.color value ColorChoice.parse? }
  | .junit => return { given with junit := ← setOnce option given.junit value some }
  | .messageFormat =>
    return { given with
      messageFormat := ← setOnce option given.messageFormat value MessageFormat.parse? }

def setVerbose (given : GivenArguments) : Except EarlyEnd GivenArguments :=
  if given.verbose then .error (.usage (.repeated "--verbose"))
  else .ok { given with verbose := true }

def setPositional (given : GivenArguments) (word : String) : Except EarlyEnd GivenArguments :=
  match given.className with
  | none => .ok { given with className := some word }
  | some _ => .error (.usage (.unknownArgument word))

def setPositionals (given : GivenArguments) : List String → Except EarlyEnd GivenArguments
  | [] => .ok given
  | word :: rest => do (← given.setPositional word).setPositionals rest

def setLetters (given : GivenArguments) (place : ArgumentPlace) :
    List Char → Except EarlyEnd GivenArguments
  | [] => .ok given
  | letter :: rest => do
    if letter == 'v' then (← given.setVerbose).setLetters place rest
    else if letter == 'V' && place == .outer then .error .version
    else if letter == 'h' then .error .help
    else .error (.usage (.unknownArgument (String.ofList ['-', letter])))

end GivenArguments

inductive WordForm where
  | escape
  | long (name : String) (value : Option String)
  | letters (letters : List Char)
  | plain

namespace WordForm

def ofWord (word : String) : WordForm :=
  match word.toList with
  | ['-', '-'] => .escape
  | '-' :: '-' :: chars =>
    match chars.span (· != '=') with
    | (name, []) => .long (String.ofList name) none
    | (name, _ :: value) => .long (String.ofList name) (some (String.ofList value))
  | ['-'] => .plain
  | '-' :: chars => .letters chars
  | _ => .plain

end WordForm

inductive LongOption where
  | verbose
  | version
  | help
  | value (option : ValueOption)

def ArgumentPlace.longOption? (place : ArgumentPlace) (name : String) : Option LongOption :=
  if name == "verbose" then some .verbose
  else if name == "help" then some .help
  else if name == "version" && place == .outer then some .version
  else (place.valueOption? name).map .value

structure ArgumentReader where
  given : GivenArguments := {}
  waiting : Option ValueOption := none

namespace ArgumentReader

def settle (reader : ArgumentReader) : Except EarlyEnd GivenArguments :=
  match reader.waiting with
  | none => .ok reader.given
  | some option => .error (.usage (.missingValue ("--" ++ option.name)))

def readLong (given : GivenArguments) (place : ArgumentPlace) (name : String) :
    Option String → Except EarlyEnd ArgumentReader
  | none =>
    match place.longOption? name with
    | none => .error (.usage (.unknownArgument ("--" ++ name)))
    | some .verbose => given.setVerbose.map fun given => { given := given }
    | some .version => .error .version
    | some .help => .error .help
    | some (.value option) => .ok { given := given, waiting := some option }
  | some value =>
    match place.longOption? name with
    | none => .error (.usage (.unknownArgument ("--" ++ name)))
    | some (.value option) => (given.set option value).map fun given => { given := given }
    | some .verbose => .error (.usage (.unexpectedValue "--verbose"))
    | some .version => .error (.usage (.unexpectedValue "--version"))
    | some .help => .error (.usage (.unexpectedValue "--help"))

def readRun (reader : ArgumentReader) : List String → Except EarlyEnd GivenArguments
  | [] => reader.settle
  | word :: rest =>
    match WordForm.ofWord word, reader.waiting with
    | .plain, some option => do
      readRun { given := ← reader.given.set option word } rest
    | .plain, none => do readRun { given := ← reader.given.setPositional word } rest
    | .escape, _ => do (← reader.settle).setPositionals rest
    | .long name value, _ => do readRun (← readLong (← reader.settle) .run name value) rest
    | .letters letters, _ => do
      readRun { given := ← (← reader.settle).setLetters .run letters } rest

def readHelp : List String → EarlyEnd
  | [] => .help
  | ["run"] => .help
  | "help" :: rest => readHelp rest
  | "run" :: word :: _ => .usage (.unknownCommand word)
  | word :: _ => .usage (.unknownCommand word)

def readOuter (reader : ArgumentReader) :
    List String → Except EarlyEnd (GivenArguments × GivenArguments)
  | [] => do
    let _ ← reader.settle
    .error (.usage .missingCommand)
  | word :: rest =>
    match WordForm.ofWord word, reader.waiting with
    | .plain, some option => do
      readOuter { given := ← reader.given.set option word } rest
    | .plain, none =>
      if word == "run" then (readRun {} rest).map fun run => (reader.given, run)
      else if word == "help" then .error (readHelp rest)
      else .error (.usage (.unknownCommand word))
    | .escape, _ => do
      let _ ← reader.settle
      match rest with
      | [] => .error (.usage .missingCommand)
      | word :: _ => .error (.usage (.unknownArgument word))
    | .long name value, _ => do readOuter (← readLong (← reader.settle) .outer name value) rest
    | .letters letters, _ => do
      readOuter { given := ← (← reader.settle).setLetters .outer letters } rest

end ArgumentReader

structure RunCommand where
  className : String
  junit : Option String
  messageFormat : MessageFormat
  configFile : Option String
  overrides : Settings.Overrides
  verbose : Bool
  color : ColorChoice

namespace Invocation

def verboseVariable : String := "DELEGATE_VERBOSE"
def colorVariable : String := "DELEGATE_COLOR"

/-- The value of a variable, if it is set; it is not looked at if both places give a value. -/
def fromVariable {α : Type} (environment : Environment) (name : String) (givenTwice : Bool)
    (parse? : String → Option α) : Except EarlyEnd (Option α) :=
  if givenTwice then .ok none
  else
    match environment.value? name with
    | none => .ok none
    | some bytes =>
      match String.fromUTF8? bytes with
      | none => .error (.usage .notUnicode)
      | some text =>
        match parse? text with
        | some value => .ok (some value)
        | none => .error (.usage (.invalidValue name text))

def parse (words : List String) (environment : Environment) : Except EarlyEnd RunCommand := do
  let (outer, run) ← ArgumentReader.readOuter {} words
  let verbose ← fromVariable environment verboseVariable (outer.verbose && run.verbose) parseFlag?
  let color ← fromVariable environment colorVariable (outer.color.isSome && run.color.isSome)
    ColorChoice.parse?
  match run.className with
  | none => .error (.usage .missingClass)
  | some className =>
    return {
      className
      junit := run.junit
      messageFormat := run.messageFormat.getD .human
      configFile := run.configFile.or outer.configFile
      overrides := {
        baseUrl := run.baseUrl.or outer.baseUrl
        readTimeout := run.readTimeout.or outer.readTimeout
        requiredNamespace := run.requiredNamespace.or outer.requiredNamespace }
      verbose := run.verbose || outer.verbose || verbose.getD false
      color := (run.color.or outer.color).or color |>.getD .auto }

end Invocation

end TestDelegation
