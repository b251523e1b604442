import ScgiStub.FileTree

/-! # Paths of sockets

What the system has to say about a path when a socket is bound to it or reached
through it.
-/

namespace ScgiStub.SocketPath

/-- The address of a socket has room for this many bytes. -/
def addressSize : Nat := 108

/-- The names of the directories above a path. A dot is no directory of its
own. -/
def parents (path : String) : List String :=
  ((Path.names path).filter (· ≠ ".")).dropLast

def makeParents (path : String) : FileTree.Change SystemFault Unit := do
  FileTree.makeDirectories ((← get).start path) (parents path)

/-- Binds a socket to a free path. The address ends with a byte after the path,
and without a path the system thinks of a name that is no file. -/
def bind (path : String) : FileTree.Change SystemFault Unit := do
  if addressSize ≤ path.utf8ByteSize then throw .socketPathTooLong
  if path = "" then return
  let t ← get
  let directory ← t.directoryOf path
  match (Path.names path).getLast? with
  | none | some "." | some ".." => throw .addressInUse
  | some name =>
    let location ← Path.follow directory name
    if (t.node? location).isSome then throw .addressInUse
    if Path.endsWithSlash path then throw .notFound
    set (t.insert location .socket)

/-- The socket that a client reaches through a path. A path that starts with a
zero byte is a name that is no file, and nobody listens there. -/
def connect (t : FileTree) (path : String) : Except SystemFault Location :=
  let tooLong := addressSize < path.utf8ByteSize
  if path.toList.head? = some '\x00' then
    .error (if tooLong then .nameTooLong else .connectionRefused)
  else if Path.holdsNul path then .error .invalidArgument
  else if tooLong then .error .nameTooLong
  else
    match t.find path with
    | .error fault => .error fault
    | .ok (location, .socket) => .ok location
    | .ok _ => .error .connectionRefused

end ScgiStub.SocketPath
