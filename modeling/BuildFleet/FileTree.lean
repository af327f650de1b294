import BuildFleet.Json.Reader

/-!
# File trees

Files and directories, and what opening a path among them gives.  A path is walked component by
component; the way back leads out of the tree into directories in which nothing else is found.  A
path that begins with a slash does not begin in the tree; what it leads to are the directories that
every system has, and the devices.

A directory can be opened like a file, but reading from it fails.
-/

namespace BuildFleet

/-- What the files of a system answer to a request to open one: its bytes as a stream, or why there
are none. -/
abbrev Files := String → Except SystemError Json.Input

/-- A file that was opened, or a directory. -/
inductive FileNode where
  | file (bytes : Json.Bytes)
  | directory
  deriving DecidableEq

/-- The entries of a tree, each by the components of its path from the root of the tree.  The
directories on the way to an entry need no entry of their own. -/
structure FileTree where
  entries : List (List String × FileNode)
  /-- What the devices deliver, by their names. -/
  devices : List (String × Json.Bytes) := [("null", [])]

namespace FileTree

/-- A path by its components. -/
def components (path : String) : List String :=
  (path.toList.splitOn '/').map String.ofList

/-- The longest name of an entry, in bytes. -/
def maxName : Nat := 255

/-- The number of bytes from which on a path is too long. -/
def maxPath : Nat := 4096

/-- The entry at the end of a path of names. -/
def node? (t : FileTree) (names : List String) : Option FileNode :=
  if names.isEmpty then
    some .directory
  else
    match t.entries.find? (·.1 == names) with
    | some (_, node) => some node
    | none => if t.entries.any (names.isPrefixOf ·.1) then some .directory else none

/-- Where a walk stands. -/
inductive Location where
  /-- At the end of these names. -/
  | inside (names : List String)
  /-- In a directory outside the tree. -/
  | outside

/-- One step of a walk from a directory. -/
def step (t : FileTree) (here : Location) (name : String) : Except SystemError Location :=
  match here with
  | .outside =>
    if name = "" ∨ name = "." ∨ name = ".." then .ok .outside
    else if maxName < name.utf8ByteSize then .error .nameTooLong
    else .error .notFound
  | .inside names =>
    match t.node? names with
    | some .directory =>
      if name = "" ∨ name = "." then .ok here
      else if name = ".." then .ok (if names.isEmpty then .outside else .inside names.dropLast)
      else if maxName < name.utf8ByteSize then .error .nameTooLong
      else
        let names := names ++ [name]
        if (t.node? names).isSome then .ok (.inside names) else .error .notFound
    | _ => .error .notADirectory

/-- What is at the end of a walk from the root of the tree. -/
def walk (t : FileTree) (names : List String) : Except SystemError FileNode := do
  match ← names.foldlM (step t) (.inside []) with
  | .outside => .ok .directory
  | .inside names => .ok ((t.node? names).getD .directory)

/-- The directories at the root of every system, but for that of the devices. -/
def systemDirectories : List String :=
  ["bin", "etc", "home", "lib", "proc", "root", "run", "sbin", "sys", "tmp", "usr", "var"]

/-- What a path that begins with a slash leads through. -/
def system (t : FileTree) : FileTree where
  entries :=
    t.devices.map (fun (name, bytes) => (["dev", name], .file bytes)) ++
      systemDirectories.map fun name => ([name], .directory)

/-- What is at the end of a path. -/
def resolve (t : FileTree) (path : String) : Except SystemError FileNode :=
  if path.toList.contains '\x00' then .error .nulInName
  else if maxPath ≤ path.utf8ByteSize then .error .nameTooLong
  else if path.isEmpty then .error .notFound
  else
    match components path with
    | "" :: names => t.system.walk names
    | names => t.walk names

/-- The contents of an opened file or directory. -/
def contents : FileNode → Json.Input
  | .file bytes => .ofBytes bytes
  | .directory => .failingAfter [] .isADirectory

/-- The files of a tree. -/
def files (t : FileTree) : Files :=
  fun path => (t.resolve path).map contents

end FileTree

end BuildFleet
