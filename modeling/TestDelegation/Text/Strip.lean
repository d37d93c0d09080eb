/-!
Text with characters taken off: the blanks at its two ends, or everything that controls a terminal.
Main definitions: `trim` and `withoutControls`.
-/

namespace TestDelegation.Text

/-- The code points with the Unicode property White_Space. -/
def isBlank (char : Char) : Bool :=
  let code := char.toNat
  (0x09 ≤ code && code ≤ 0x0D) || code == 0x20 || code == 0x85 || code == 0xA0 ||
    code == 0x1680 || (0x2000 ≤ code && code ≤ 0x200A) || code == 0x2028 || code == 0x2029 ||
    code == 0x202F || code == 0x205F || code == 0x3000

def trimChars (chars : List Char) : List Char :=
  ((chars.dropWhile isBlank).reverse.dropWhile isBlank).reverse

def trim (text : String) : String :=
  String.ofList (trimChars text.toList)

/-- Where a reader of terminal output stands. -/
inductive TerminalState where
  | ground
  | escape
  | escapeIntermediate
  | controlSequence
  | deviceEntry
  | deviceParameters
  | deviceIntermediate
  | deviceIgnored
  | deviceData
  | systemCommand
  | message
  deriving DecidableEq, Repr

def isControl (char : Char) : Bool :=
  char.toNat < 0x20 || (0x80 ≤ char.toNat && char.toNat < 0xa0)

def isBetween (first last : Nat) (char : Char) : Bool :=
  first ≤ char.toNat && char.toNat ≤ last

def isCancel (char : Char) : Bool := char == '\x18' || char == '\x1a'

def TerminalState.inside (state : TerminalState) (char : Char) : TerminalState :=
  match state with
  | .ground => .ground
  | .escape =>
    if isBetween 0x20 0x2f char then .escapeIntermediate
    else if char == '[' then .controlSequence
    else if char == ']' then .systemCommand
    else if char == 'P' then .deviceEntry
    else if char == 'X' || char == '^' || char == '_' then .message
    else if isBetween 0x30 0x7e char then .ground
    else .escape
  | .escapeIntermediate => if isBetween 0x30 0x7e char then .ground else .escapeIntermediate
  | .controlSequence => if isBetween 0x40 0x7e char then .ground else .controlSequence
  | .deviceEntry =>
    if isBetween 0x20 0x2f char then .deviceIntermediate
    else if isBetween 0x30 0x3f char then .deviceParameters
    else if isBetween 0x40 0x7e char then .deviceData
    else .deviceEntry
  | .deviceParameters =>
    if isBetween 0x20 0x2f char then .deviceIntermediate
    else if isBetween 0x3c 0x3f char then .deviceIgnored
    else if isBetween 0x40 0x7e char then .deviceData
    else .deviceParameters
  | .deviceIntermediate =>
    if isBetween 0x30 0x3f char then .deviceIgnored
    else if isBetween 0x40 0x7e char then .deviceData
    else .deviceIntermediate
  | .deviceIgnored => .deviceIgnored
  | .deviceData => .deviceData
  | .systemCommand => if char == '\x07' then .ground else .systemCommand
  | .message => .message

def TerminalState.passesLineFeed : TerminalState → Bool
  | .ground => true
  | .escape => true
  | .escapeIntermediate => true
  | .controlSequence => true
  | _ => false

def stringTerminator : UInt8 := 0x9c

/-- What a reader of bytes makes of an encoding that is cut behind the string terminator. -/
def restOfEncoding (char : Char) : List Char :=
  let rest := (String.utf8EncodeChar char).dropWhile (· != stringTerminator)
  (rest.drop 1).filterMap fun byte => if 0xa0 ≤ byte then some '\ufffd' else none

def withoutControlsFrom (state : TerminalState) : List Char → List Char
  | [] => []
  | char :: rest =>
    if char == '\x1b' then withoutControlsFrom .escape rest
    else if state == .ground then
      if isControl char && char != '\n' then withoutControlsFrom .ground rest
      else char :: withoutControlsFrom .ground rest
    else if isCancel char then withoutControlsFrom .ground rest
    else if char == '\n' then
      if state.passesLineFeed then char :: withoutControlsFrom state rest
      else withoutControlsFrom state rest
    else if state == .deviceData && (String.utf8EncodeChar char).contains stringTerminator then
      restOfEncoding char ++ withoutControlsFrom .ground rest
    else withoutControlsFrom (state.inside char) rest

def withoutControls (text : String) : String :=
  String.ofList (withoutControlsFrom .ground text.toList)

end TestDelegation.Text
