/-!
Paths as texts: names joined by slashes, where `.` stands for the same directory and `..` for the
one above.
-/

namespace TestDelegation.Path

def parts (path : String) : List String :=
  (path.splitOn "/").filter fun part => !part.isEmpty && part != "."

def isAbsolute (path : String) : Bool := path.toList.head? == some '/'

def namesDirectory (path : String) : Bool :=
  match (path.splitOn "/").getLast? with
  | some last => last.isEmpty || last == "." || last == ".."
  | none => true

def trimReversed : Nat → List Char → List Char
  | 0, chars => chars
  | fuel + 1, chars =>
    match chars with
    | '/' :: char :: rest => trimReversed fuel (char :: rest)
    | '.' :: '/' :: rest => trimReversed fuel ('/' :: rest)
    | chars => chars

def parent? (path : String) : Option String :=
  let reversed := path.toList.reverse
  match trimReversed reversed.length reversed with
  | [] => none
  | ['/'] => none
  | trimmed =>
    let rest := trimmed.dropWhile (· != '/')
    some (String.ofList (trimReversed rest.length rest).reverse)

def join (root path : String) : String :=
  if isAbsolute path || root.isEmpty then path
  else if root.toList.getLast? == some '/' then root ++ path
  else root ++ "/" ++ path

def appendToName? (path suffix : String) : Option String :=
  let reversed := path.toList.reverse
  let trimmed := String.ofList (trimReversed reversed.length reversed).reverse
  match (trimmed.splitOn "/").getLast? with
  | some last =>
    if last.isEmpty || last == "." || last == ".." then none else some (trimmed ++ suffix)
  | none => none

end TestDelegation.Path
