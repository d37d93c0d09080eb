import TestDelegation.Decimal.Shortest
import TestDelegation.Json.Basic
import TestDelegation.Text.Quoted

/-!
JSON text without blanks. A character is escaped only where JSON demands it: the quote, the
backslash and everything below the space.
-/

namespace TestDelegation.Json

def escapedChar (char : Char) : List Char :=
  if char == '"' then ['\\', '"']
  else if char == '\\' then ['\\', '\\']
  else if char == '\x08' then ['\\', 'b']
  else if char == '\x0c' then ['\\', 'f']
  else if char == '\n' then ['\\', 'n']
  else if char == '\r' then ['\\', 'r']
  else if char == '\t' then ['\\', 't']
  else if char.toNat < 0x20 then
    ['\\', 'u', '0', '0', Text.hexDigit (char.toNat / 16), Text.hexDigit (char.toNat % 16)]
  else [char]

def stringChars (text : String) : List Char :=
  '"' :: text.toList.flatMap escapedChar ++ ['"']

def numeralChars : Numeral → List Char
  | .integer value => Decimal.integerChars value
  | .real value => value.jsonChars

def chars : Json → List Char
  | .null => ['n', 'u', 'l', 'l']
  | .bool true => ['t', 'r', 'u', 'e']
  | .bool false => ['f', 'a', 'l', 's', 'e']
  | .number value => numeralChars value
  | .string value => stringChars value
  | .array items => '[' :: itemsChars items ++ [']']
  | .object members => '\x7b' :: membersChars members ++ ['\x7d']
where
  itemsChars : List Json → List Char
    | [] => []
    | item :: rest => item.chars ++ laterItemsChars rest
  laterItemsChars : List Json → List Char
    | [] => []
    | item :: rest => ',' :: item.chars ++ laterItemsChars rest
  membersChars : List (String × Json) → List Char
    | [] => []
    | (key, value) :: rest => stringChars key ++ ':' :: value.chars ++ laterMembersChars rest
  laterMembersChars : List (String × Json) → List Char
    | [] => []
    | (key, value) :: rest =>
      ',' :: stringChars key ++ ':' :: value.chars ++ laterMembersChars rest

def render (value : Json) : String := String.ofList value.chars

end TestDelegation.Json
