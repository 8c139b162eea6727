import MailMerge.Text.Utf8

/-!
# Paths

A path is a sequence of octets.  It is read in two ways: as the text that the file system resolves,
and as a list of components, in which doubled slashes, slashes at the end and `.` behind the start do
not count.  Two paths that differ as texts may have the same components, and they are then taken for
the same destination.

The parts of a path follow the components.  The file name is the last component if it is a plain
name; it is cut at its last dot into stem and extension, where a name that begins with its only dot
has no extension and a name that ends in a dot has the empty one.  The parent is the text of the path
up to the last component.
-/

namespace MailMerge

set_option autoImplicit false

/-- A path in a file system whose names are separated by slashes. -/
structure Path where
  /-- The text of the path. -/
  bytes : Bytes
  deriving DecidableEq, Repr

namespace Path

/-- The path with the given text. -/
def ofString (text : String) : Path := ⟨utf8 text⟩

/-- The octet that separates names. -/
def slash : UInt8 := 0x2F

/-- The octet of the full stop. -/
def dot : UInt8 := 0x2E

/-! ## Segments -/

/-- The octets between the slashes.  There is one more of them than there are slashes. -/
def splitSlashes : Bytes → List Bytes
  | [] => [[]]
  | b :: rest =>
    if b = slash then [] :: splitSlashes rest
    else
      match splitSlashes rest with
      | [] => [[b]]
      | segment :: more => (b :: segment) :: more

/-- The octets with slashes between them. -/
def joinSlashes : List Bytes → Bytes
  | [] => []
  | [segment] => segment
  | segment :: more => segment ++ slash :: joinSlashes more

/-- Whether the path starts at the root. -/
def isAbsolute (path : Path) : Bool := path.bytes.head? == some slash

/-- Whether the path has no text. -/
def isEmpty (path : Path) : Bool := path.bytes.isEmpty

/-- The segments, of an absolute path those behind the first slash. -/
def segments (path : Path) : List Bytes :=
  splitSlashes (if path.isAbsolute then path.bytes.drop 1 else path.bytes)

/-- A segment that is no component: an empty one or a single dot. -/
def isFiller (segment : Bytes) : Bool := segment == [] || segment == [dot]

/-! ## Components -/

/-- A component of a path. -/
inductive Component where
  /-- The root directory. -/
  | root
  /-- The directory in which the path starts, said by a dot at the start. -/
  | current
  /-- The directory above. -/
  | up
  /-- An entry of this name. -/
  | name (octets : Bytes)
  deriving DecidableEq, Repr

/-- The component that a segment stands for, if it stands for one wherever it is. -/
def component? (segment : Bytes) : Option Component :=
  if isFiller segment then none
  else if segment = [dot, dot] then some .up
  else some (.name segment)

/-- The component that a path has because of its start. -/
def startComponents (path : Path) : List Component :=
  if path.isAbsolute then [.root]
  else if path.segments.head? = some [dot] then [.current]
  else []

/-- The components of the path. -/
def components (path : Path) : List Component :=
  path.startComponents ++ path.segments.filterMap component?

/-- Whether two paths have the same components. -/
def same (left right : Path) : Bool := left.components == right.components

/-! ## The file name -/

/-- The last component, if it is a plain name. -/
def fileName? (path : Path) : Option Bytes :=
  match path.components.getLast? with
  | some (.name octets) => some octets
  | _ => none

/-- The octets before and behind the last dot. -/
def splitLastDot? (name : Bytes) : Option (Bytes × Bytes) :=
  let behind := (name.reverse.takeWhile (· != dot)).reverse
  let rest := name.reverse.dropWhile (· != dot)
  match rest with
  | [] => none
  | _ :: before => some (before.reverse, behind)

/-- A name cut into stem and extension. -/
def splitName (name : Bytes) : Bytes × Option Bytes :=
  match splitLastDot? name with
  | none => (name, none)
  | some ([], _) => (name, none)
  | some (stem, extension) => (stem, some extension)

/-- The file name without its extension. -/
def stem? (path : Path) : Option Bytes := path.fileName?.map fun name => (splitName name).1

/-- What stands behind the last dot of the file name. -/
def extension? (path : Path) : Option Bytes := path.fileName?.bind fun name => (splitName name).2

/-! ## Taking paths apart and putting them together -/

/-- The segments, last first, without those at the end that are no component. -/
def dropFiller (absolute : Bool) (backwards : List Bytes) : List Bytes :=
  match backwards.dropWhile isFiller with
  | [] => if !absolute && backwards.getLast? == some [dot] then [[dot]] else []
  | kept => kept

/-- The path of some segments given last first. -/
def ofBackwards (absolute : Bool) (backwards : List Bytes) : Path :=
  ⟨(if absolute then [slash] else []) ++ joinSlashes backwards.reverse⟩

/-- The path up to its last component.  The root and the empty path have no parent. -/
def parent? (path : Path) : Option Path :=
  match dropFiller path.isAbsolute path.segments.reverse with
  | [] => none
  | _ :: before => some (ofBackwards path.isAbsolute (dropFiller path.isAbsolute before))

/-- The path that leads from a directory to an entry below it.  An absolute second path stands for
itself. -/
def join (directory entry : Path) : Path :=
  if entry.isAbsolute then entry
  else if directory.isEmpty || directory.bytes.getLast? == some slash then
    ⟨directory.bytes ++ entry.bytes⟩
  else ⟨directory.bytes ++ slash :: entry.bytes⟩

/-- The path with another file name in place of its own. -/
def withFileName (path : Path) (name : Bytes) : Path :=
  match path.fileName? with
  | some _ => (path.parent?.getD ⟨[]⟩).join ⟨name⟩
  | none => path.join ⟨name⟩

/-! ## Display -/

/-- The path as text, with a stand-in for whatever is none. -/
def display (path : Path) : String := .ofList (Utf8.decodeLossy path.bytes)

/-- The path as text, if it is text. -/
def text? (path : Path) : Option String :=
  match Utf8.decode path.bytes with
  | .ok text => some (.ofList text)
  | .error _ => none

/-- Whether the path has the octet zero in it, which no file system accepts. -/
def hasNul (path : Path) : Bool := path.bytes.contains 0

end Path

end MailMerge
