import TestDelegation.Text.Strip

/-!
XML documents whose elements stand on lines of their own, indented by four blanks a level.
-/

namespace TestDelegation

structure XmlTag where
  name : String
  attributes : List (String × String) := []
  deriving DecidableEq

inductive Xml where
  | block (tag : XmlTag) (children : List Xml)
  | empty (tag : XmlTag)
  | text (tag : XmlTag) (content : String)

namespace Xml

def escapedChar (char : Char) : List Char :=
  if char == '<' then ['&', 'l', 't', ';']
  else if char == '>' then ['&', 'g', 't', ';']
  else if char == '&' then ['&', 'a', 'm', 'p', ';']
  else if char == '\'' then ['&', 'a', 'p', 'o', 's', ';']
  else if char == '"' then ['&', 'q', 'u', 'o', 't', ';']
  else [char]

/-- Text of a report: terminal control is dropped, and markup is escaped. -/
def escaped (text : String) : String :=
  String.ofList ((Text.withoutControls text).toList.flatMap escapedChar)

def attributeText (entry : String × String) : String :=
  " " ++ entry.1 ++ "=\"" ++ escaped entry.2 ++ "\""

def openingText (tag : XmlTag) : String :=
  "<" ++ tag.name ++ String.join (tag.attributes.map attributeText)

def closingTag (tag : XmlTag) : String := "</" ++ tag.name ++ ">"

def indentation (level : Nat) : String := String.ofList (List.replicate (4 * level) ' ')

def lines (level : Nat) : Xml → List String
  | .empty tag => [indentation level ++ openingText tag ++ "/>"]
  | .text tag content =>
    [indentation level ++ openingText tag ++ ">" ++ escaped content ++ closingTag tag]
  | .block tag children =>
    (indentation level ++ openingText tag ++ ">") ::
      (childLines (level + 1) children ++ [indentation level ++ closingTag tag])
where
  childLines (level : Nat) : List Xml → List String
    | [] => []
    | child :: rest => child.lines level ++ childLines level rest

def declaration : String := "<?xml version=\"1.0\" encoding=\"UTF-8\"?>"

def document (root : Xml) : String :=
  String.join ((declaration :: root.lines 0).map fun line => line ++ "\n")

end Xml

end TestDelegation
