import ScgiStub.SystemFault
import ScgiStub.Text.Utf8

/-! # Files and the paths to them

A path is walked name by name. Every name on the way has to stand for a
directory; the last may stand for anything or, for a new file, for nothing.
-/

namespace ScgiStub

/-- A place among the files: the names on the way to it from the root. -/
abbrev Location := List String

inductive Node where
  | directory
  | socket
  /-- A file, or a link wherever it leads. -/
  | other
  deriving DecidableEq, Repr

structure FileTree where
  nodes : List (Location × Node) := []
  here : Location := []

namespace Path

def sizeBound : Nat := 4096

def maxNameSize : Nat := 255

def holdsNul (path : String) : Bool :=
  '\x00' ∈ path.toList

def startsWithSlash (path : String) : Bool :=
  path.toList.head? = some '/'

def endsWithSlash (path : String) : Bool :=
  path.toList.getLast? = some '/'

def names (path : String) : List String :=
  (path.splitOn "/").filter (· ≠ "")

/-- Where a name leads from a directory. One dot leads nowhere else and two lead
back, though not out of the root. -/
def follow (location : Location) (name : String) : Except SystemFault Location :=
  if name = "." then .ok location
  else if name = ".." then .ok location.dropLast
  else if maxNameSize < name.utf8ByteSize then .error .nameTooLong
  else .ok (location ++ [name])

end Path

namespace FileTree

def node? (t : FileTree) : Location → Option Node
  | [] => some .directory
  | location => t.nodes.lookup location

def insert (t : FileTree) (location : Location) (node : Node) : FileTree :=
  { t with nodes := (location, node) :: t.nodes }

def erase (t : FileTree) (location : Location) : FileTree :=
  { t with nodes := t.nodes.filter fun entry => entry.1 ≠ location }

def start (t : FileTree) (path : String) : Location :=
  if Path.startsWithSlash path then [] else t.here

def enter (t : FileTree) (location : Location) : List String → Except SystemFault Location
  | [] => .ok location
  | name :: names =>
    match Path.follow location name with
    | .error fault => .error fault
    | .ok next =>
      match t.node? next with
      | some .directory => t.enter next names
      | some _ => .error .notADirectory
      | none => .error .notFound

def directoryOf (t : FileTree) (path : String) : Except SystemFault Location :=
  t.enter (t.start path) (Path.names path).dropLast

/-- What a path leads to. Only a directory has a slash after its name. -/
def find (t : FileTree) (path : String) : Except SystemFault (Location × Node) := do
  if path = "" then throw .notFound
  let directory ← t.directoryOf path
  let location ← (Path.names path).getLast?.elim (pure directory) (Path.follow directory)
  match t.node? location with
  | none => throw .notFound
  | some node =>
    if Path.endsWithSlash path ∧ node ≠ .directory then throw .notADirectory
    else return (location, node)

def status (t : FileTree) (path : String) : Except SystemFault (Location × Node) :=
  if Path.holdsNul path then .error .nulInPath
  else if Path.sizeBound ≤ path.utf8ByteSize then .error .nameTooLong
  else t.find path

/-- Something done to the files. What was done before it failed stays done. -/
abbrev Change (ε : Type) := ExceptT ε (StateM FileTree)

def makeDirectories (location : Location) : List String → Change SystemFault Unit
  | [] => pure ()
  | name :: names => do
    let next ← Path.follow location name
    match (← get).node? next with
    | some .directory => makeDirectories next names
    | some _ => throw .alreadyExists
    | none =>
      modify (·.insert next .directory)
      makeDirectories next names

end FileTree

end ScgiStub
