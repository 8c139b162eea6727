import MailMerge.Fault
import MailMerge.Path

/-!
# File trees

A file system as a value: which files and directories there are, and in which directory relative paths
start.  An entry is found under its location, the list of names that lead to it from the root, the
innermost name first.

A path is resolved name by name.  Every name on the way must be that of a directory; `.` stays, `..`
goes up, and the root is above itself.  What is left is a `Target`: either a directory that was
reached, or a name in one, where an entry may or may not be.  The operations then differ in what they
require of the target and in the faults they give.  Each operation changes at most one entry, so there
is no state of the tree in which it is half done, except `createDirectories`, which creates one
directory after another.
-/

namespace MailMerge

set_option autoImplicit false

/-- The names that lead from the root to an entry, the innermost first. -/
abbrev Location := List Bytes

/-- What a location can hold. -/
inductive Entry where
  /-- A regular file with its content. -/
  | file (content : Bytes)
  /-- A directory. -/
  | directory
  deriving DecidableEq, Repr

/-- The kind of an entry. -/
inductive Kind where
  /-- A regular file. -/
  | file
  /-- A directory. -/
  | directory
  deriving DecidableEq, Repr

/-- The kind of an entry. -/
def Entry.kind : Entry → Kind
  | .file _ => .file
  | .directory => .directory

/-- Files and directories, and the directory in which relative paths start. -/
structure FileTree where
  /-- The entries below the root, each under its location. -/
  entries : List (Location × Entry)
  /-- The directory in which relative paths start. -/
  base : Location

namespace FileTree

/-! ## Entries -/

/-- What is at a location.  At the root there is always a directory. -/
def entry? (tree : FileTree) (location : Location) : Option Entry :=
  match location with
  | [] => some .directory
  | _ => tree.entries.lookup location

/-- The content of the regular file at a location. -/
def content? (tree : FileTree) (location : Location) : Option Bytes :=
  match tree.entry? location with
  | some (.file content) => some content
  | _ => none

/-- The tree with an entry at a location. -/
def set (tree : FileTree) (location : Location) (entry : Entry) : FileTree :=
  { tree with entries := (location, entry) :: tree.entries.filter (·.1 != location) }

/-- The tree without the entry at a location. -/
def erase (tree : FileTree) (location : Location) : FileTree :=
  { tree with entries := tree.entries.filter (·.1 != location) }

/-! ## Resolving paths -/

/-- The greatest number of octets in a name. -/
def nameLimit : Nat := 255

/-- The greatest number of octets in a path. -/
def pathLimit : Nat := 4095

/-- The directory that a name on the way leads to. -/
def enter (tree : FileTree) (location : Location) (name : Bytes) : Except Fault Location :=
  if name = [Path.dot] then .ok location
  else if name = [Path.dot, Path.dot] then .ok location.tail
  else if nameLimit < name.length then .error .nameTooLong
  else
    match tree.entry? (name :: location) with
    | some .directory => .ok (name :: location)
    | some (.file _) => .error .notADirectory
    | none => .error .notFound

/-- The directory that some names lead to. -/
def enterAll (tree : FileTree) (location : Location) : List Bytes → Except Fault Location
  | [] => .ok location
  | name :: rest =>
    match tree.enter location name with
    | .ok next => tree.enterAll next rest
    | .error fault => .error fault

/-- What a path leads to. -/
inductive Target where
  /-- A directory, reached by `.`, by `..` or as the root. -/
  | here (location : Location)
  /-- The place of an entry, which has to be a directory when the path ends in a slash. -/
  | place (location : Location) (directoryWanted : Bool)
  deriving DecidableEq, Repr

/-- The target of a path whose names, last first, are given. -/
def targetOf (tree : FileTree) (start : Location) (slashAtEnd : Bool) (backwards : List Bytes) :
    Except Fault Target :=
  match backwards with
  | [] => .ok (.here start)
  | last :: before =>
    match tree.enterAll start before.reverse with
    | .error fault => .error fault
    | .ok directory =>
      if last = [Path.dot] then .ok (.here directory)
      else if last = [Path.dot, Path.dot] then .ok (.here directory.tail)
      else if nameLimit < last.length then .error .nameTooLong
      else .ok (.place (last :: directory) slashAtEnd)

/-- What a path leads to. -/
def target (tree : FileTree) (path : Path) : Except Fault Target :=
  if path.hasNul then .error .nulInPath
  else if path.isEmpty then .error .notFound
  else if pathLimit < path.bytes.length then .error .nameTooLong
  else
    tree.targetOf (if path.isAbsolute then [] else tree.base)
      (path.bytes.getLast? == some Path.slash)
      ((Path.splitSlashes path.bytes).filter (· != [])).reverse

/-- The location of the entry that a path leads to, and the entry. -/
def find (tree : FileTree) (path : Path) : Except Fault (Location × Entry) :=
  match tree.target path with
  | .error fault => .error fault
  | .ok (.here location) => .ok (location, .directory)
  | .ok (.place location directoryWanted) =>
    match tree.entry? location with
    | none => .error .notFound
    | some (.file content) =>
      if directoryWanted then .error .notADirectory else .ok (location, .file content)
    | some .directory => .ok (location, .directory)

/-! ## Looking -/

/-- The kind of the entry that a path leads to. -/
def kind (tree : FileTree) (path : Path) : Except Fault Kind :=
  match tree.find path with
  | .ok (_, entry) => .ok entry.kind
  | .error fault => .error fault

/-- Whether a path leads to a directory. -/
def isDirectory (tree : FileTree) (path : Path) : Bool :=
  match tree.kind path with
  | .ok .directory => true
  | _ => false

/-- The content of the file that a path leads to. -/
def read (tree : FileTree) (path : Path) : Except Fault Bytes :=
  match tree.find path with
  | .ok (_, .file content) => .ok content
  | .ok (_, .directory) => .error .isADirectory
  | .error fault => .error fault

/-! ## Changing -/

/-- An empty file at a path, in place of the file that may be there. -/
def create (tree : FileTree) (path : Path) : Except Fault FileTree :=
  match tree.target path with
  | .error fault => .error fault
  | .ok (.here _) => .error .isADirectory
  | .ok (.place location directoryWanted) =>
    if directoryWanted then .error .isADirectory
    else
      match tree.entry? location with
      | some .directory => .error .isADirectory
      | _ => .ok (tree.set location (.file []))

/-- Octets added at the end of the file at a path. -/
def append (tree : FileTree) (path : Path) (octets : Bytes) : Except Fault FileTree :=
  match tree.find path with
  | .ok (location, .file content) => .ok (tree.set location (.file (content ++ octets)))
  | .ok (_, .directory) => .error .isADirectory
  | .error fault => .error fault

/-- The file at one path moved to another, in place of the file that may be there. -/
def rename (tree : FileTree) (source destination : Path) : Except Fault FileTree :=
  match tree.find source with
  | .error fault => .error fault
  | .ok (_, .directory) => .error .isADirectory
  | .ok (origin, .file content) =>
    match tree.target destination with
    | .error fault => .error fault
    | .ok (.here _) => .error .isADirectory
    | .ok (.place location directoryWanted) =>
      if directoryWanted then .error .notADirectory
      else
        match tree.entry? location with
        | some .directory => .error .isADirectory
        | _ => .ok ((tree.erase origin).set location (.file content))

/-- The tree without the file at a path. -/
def remove (tree : FileTree) (path : Path) : Except Fault FileTree :=
  match tree.find path with
  | .ok (location, .file _) => .ok (tree.erase location)
  | .ok (_, .directory) => .error .isADirectory
  | .error fault => .error fault

/-- A directory at a path where nothing is. -/
def createDirectory (tree : FileTree) (path : Path) : Except Fault FileTree :=
  match tree.target path with
  | .error fault => .error fault
  | .ok (.here _) => .error .alreadyExists
  | .ok (.place location _) =>
    match tree.entry? location with
    | some _ => .error .alreadyExists
    | none => .ok (tree.set location .directory)

/-- The path, its parent, the parent of that, and so on. -/
def ancestors : Nat → Path → List Path
  | 0, path => [path]
  | depth + 1, path =>
    match path.parent? with
    | none => [path]
    | some parent => path :: ancestors depth parent

/-- A directory at a path, unless there is one. -/
def ensureDirectory (tree : FileTree) (path : Path) : FileTree × Except Fault Unit :=
  match tree.createDirectory path with
  | .ok next => (next, .ok ())
  | .error fault => (tree, if tree.isDirectory path then .ok () else .error fault)

/-- Directories at the first of some paths, each of which is the parent of the one before, and at as
many of the others as are missing.  The paths are tried from the first on until one is there or can be
created; then the missing ones are created on the way back. -/
def createAlong (tree : FileTree) : List Path → FileTree × Except Fault Unit
  | [] => (tree, .ok ())
  | path :: above =>
    if path.components.isEmpty then (tree, .ok ())
    else
      match tree.createDirectory path with
      | .ok next => (next, .ok ())
      | .error .notFound =>
        match tree.createAlong above with
        | (next, .ok ()) => next.ensureDirectory path
        | (next, .error fault) => (next, .error fault)
      | .error fault => (tree, if tree.isDirectory path then .ok () else .error fault)

/-- Directories at a path and at all its ancestors.  What was created before a fault stays. -/
def createDirectories (tree : FileTree) (path : Path) : FileTree × Except Fault Unit :=
  tree.createAlong (ancestors path.bytes.length path)

end FileTree

end MailMerge
