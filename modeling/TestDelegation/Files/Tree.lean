import TestDelegation.Files.Path

/-!
A tree of files and directories as a value, with the operations that a program asks of a file
system.
-/

namespace TestDelegation

inductive FileNode where
  | directory
  | file (text : String)
  /-- A device that can be opened; it takes everything that is written, or refuses it. -/
  | device (refuses : Bool)
  deriving DecidableEq

structure FileTree where
  nodes : List (List String × FileNode)
  working : List String

inductive WriteFault where
  | notOpened
  | notWritten
  deriving DecidableEq

namespace FileTree

def node? (tree : FileTree) (location : List String) : Option FileNode :=
  if location.isEmpty then some .directory else tree.nodes.lookup location

def isDirectoryAt (tree : FileTree) (location : List String) : Bool :=
  tree.node? location == some .directory

def put (tree : FileTree) (location : List String) (node : FileNode) : FileTree :=
  let others := tree.nodes.filter fun entry => entry.1 != location
  { tree with nodes := others ++ [(location, node)] }

def start (tree : FileTree) (path : String) : List String :=
  if Path.isAbsolute path then [] else tree.working

/-- Where parts lead; every directory on the way must exist, the last part need not. -/
def walk (tree : FileTree) (location : List String) : List String → Option (List String)
  | [] => some location
  | part :: rest =>
    if !tree.isDirectoryAt location then none
    else if part == ".." then walk tree location.dropLast rest
    else walk tree (location ++ [part]) rest

def locate (tree : FileTree) (path : String) : Option (List String) :=
  if path.isEmpty then none else tree.walk (tree.start path) (Path.parts path)

def find? (tree : FileTree) (path : String) : Option FileNode :=
  match (tree.locate path).bind tree.node? with
  | some node => if Path.namesDirectory path && node != .directory then none else some node
  | none => none

def pathExists (tree : FileTree) (path : String) : Bool := (tree.find? path).isSome

def read? (tree : FileTree) (path : String) : Option String :=
  match tree.find? path with
  | some (.file text) => some text
  | _ => none

/-- Makes the directories that are missing on a way; stops where something else is. -/
def makeAlong (tree : FileTree) (location : List String) : List String → FileTree × Bool
  | [] => (tree, true)
  | part :: rest =>
    if part == ".." then makeAlong tree location.dropLast rest
    else
      let next := location ++ [part]
      match tree.node? next with
      | some .directory => makeAlong tree next rest
      | some _ => (tree, false)
      | none => makeAlong (tree.put next .directory) next rest

def makeDirectories (tree : FileTree) (path : String) : FileTree × Bool :=
  tree.makeAlong (tree.start path) (Path.parts path)

def write (tree : FileTree) (path text : String) : Except WriteFault FileTree :=
  if Path.namesDirectory path then .error .notOpened
  else
    match tree.locate path with
    | none => .error .notOpened
    | some location =>
      match tree.node? location with
      | some .directory => .error .notOpened
      | some (.device true) => .error .notWritten
      | some (.device false) => .ok tree
      | some (.file _) => .ok (tree.put location (.file text))
      | none => .ok (tree.put location (.file text))

def remove (tree : FileTree) (path : String) : FileTree :=
  match tree.locate path with
  | none => tree
  | some location =>
    { tree with nodes := tree.nodes.filter fun entry => !location.isPrefixOf entry.1 }

def withWorking (name : String) : FileTree where
  nodes :=
    [([name], .directory), (["tmp"], .directory), (["dev"], .directory),
      (["dev", "full"], .device true), (["dev", "null"], .device false)]
  working := [name]

end FileTree

end TestDelegation
