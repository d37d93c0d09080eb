/-!
Kinds of payload values that have no natural JSON shape, and the fields that hold them.
-/

namespace TestDelegation

inductive ValueKind where
  | annotations
  /-- A value that may be present or not, with its presence written out. -/
  | maybe
  | atomicInteger
  | atomicLong
  | classLiteral
  /-- A value of which nothing is known but that it could be written; it cannot be decoded. -/
  | serializableMarker
  deriving DecidableEq, Repr

namespace ValueKind

def all : List ValueKind :=
  [.annotations, .maybe, .atomicInteger, .atomicLong, .classLiteral, .serializableMarker]

def name : ValueKind → String
  | .annotations => "annotation"
  | .maybe => "maybe"
  | .atomicInteger => "atomic-integer"
  | .atomicLong => "atomic-long"
  | .classLiteral => "class-literal"
  | .serializableMarker => "serializable-marker"

def ofName? (text : String) : Option ValueKind :=
  all.find? fun kind => kind.name == text

end ValueKind

def fieldKind? (field : String) : Option ValueKind :=
  if field == "fAnnotations" || field == "annotations" then some .annotations
  else if field == "testResult" then some .maybe
  else if field == "count" || field == "ignoreCount" then some .atomicInteger
  else if field == "runTime" || field == "startTime" then some .atomicLong
  else if field == "fTestClass" || field == "testClass" then some .classLiteral
  else if field == "fUniqueId" || field == "uniqueId" then some .serializableMarker
  else none

end TestDelegation
