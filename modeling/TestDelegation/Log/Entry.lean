import TestDelegation.Decimal.Digits

/-!
Entries of the log: a message with further fields, at a level and from a named target.
-/

namespace TestDelegation

inductive LogLevel where
  | error
  | warning
  | info
  | debug
  | trace
  deriving DecidableEq, Repr

namespace LogLevel

def verbosity : LogLevel → Nat
  | .error => 1
  | .warning => 2
  | .info => 3
  | .debug => 4
  | .trace => 5

def heading : LogLevel → String
  | .error => "error"
  | .warning => "warning"
  | .info => "info"
  | .debug => "debug"
  | .trace => "trace"

end LogLevel

inductive TextStyle where
  | plain
  | bold
  | boldRed
  | boldYellow
  | dimmed
  deriving DecidableEq, Repr

namespace TextStyle

def codes? : TextStyle → Option String
  | .plain => none
  | .bold => some "1"
  | .boldRed => some "31;1"
  | .boldYellow => some "33;1"
  | .dimmed => some "2"

def apply (style : TextStyle) (text : String) : String :=
  match style.codes? with
  | none => text
  | some codes => "\x1b[" ++ codes ++ "m" ++ text ++ "\x1b[0m"

def when (colored : Bool) (style : TextStyle) : TextStyle := if colored then style else .plain

end TextStyle

def LogLevel.style : LogLevel → TextStyle
  | .error => .boldRed
  | .warning => .boldYellow
  | .info => .bold
  | .debug => .bold
  | .trace => .dimmed

structure LogEntry where
  level : LogLevel
  target : String
  message : String
  fields : List (String × String) := []
  deriving DecidableEq

namespace LogEntry

def fieldNames (entry : LogEntry) : List String := "message" :: entry.fields.map Prod.fst

def body (entry : LogEntry) : String :=
  entry.message ++
    String.join (entry.fields.map fun field => " " ++ field.1 ++ "=" ++ field.2)

def render (colored : Bool) (entry : LogEntry) : String :=
  (entry.level.style.when colored).apply entry.level.heading ++ ": " ++ entry.body ++ "\n"

end LogEntry

end TestDelegation
