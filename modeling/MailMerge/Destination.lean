import MailMerge.Failure
import MailMerge.Row
import MailMerge.Text.Blank

/-!
# Destinations

Where the file of a row goes.  In fixed mode every row writes to the template's own name; otherwise a
field of the row gives the name.  The directory is the output directory when there is one, and the
template's own directory otherwise.  The extension is always the template's.

A name that comes from a row is checked before it is used (`nameProblem?`): it must be one plain name,
so that the destination is an entry of the directory itself.
-/

namespace MailMerge

set_option autoImplicit false

/-- Where the names of the generated files come from. -/
inductive Naming where
  /-- From the template: all rows have the same destination. -/
  | fixed
  /-- From a field of the row. -/
  | fromRecord
  deriving DecidableEq, Repr

namespace Destination

/-- The fields that may hold the name of a row's file, the first one that is there counts. -/
def nameFields : List String := ["FileName", "Dateiname"]

/-- The value of the field that names the row's file. -/
def chosenName? (row : Row) : Option String := nameFields.findSome? row.get?

/-- Why a name from a row cannot be used, if it cannot. -/
def nameProblem? (name : String) : Option NameProblem :=
  if isBlankText name then some .empty
  else if name.toList.contains '/' || name.toList.contains '\\' then some .separator
  else if name = "." || name = ".." then some .directory
  else if name.toList.contains (Char.ofNat 0) then some .nul
  else none

/-- The octets written for some octets that are meant as text: themselves if they are, and otherwise
their stand-in. -/
def cleaned (octets : Bytes) : Bytes := Utf8.encode (Utf8.decodeLossy octets)

/-- The name of a row's file without its extension. -/
def baseName (template : Path) (row : Row) (naming : Naming) (index : Nat) :
    Except Failure Bytes :=
  match naming with
  | .fixed =>
    match template.stem? with
    | some stem => .ok (cleaned stem)
    | none => .error (.invalidName template.display .templateHasNone)
  | .fromRecord =>
    match chosenName? row with
    | none => .error (.missingField nameFields index)
    | some name =>
      match nameProblem? name with
      | some problem => .error (.invalidName name problem)
      | none => .ok (utf8 name)

/-- A base name with the template's extension. -/
def withExtension (template : Path) (base : Bytes) : Bytes :=
  match template.extension? with
  | some extension => base ++ Path.dot :: cleaned extension
  | none => base

/-- The directory of the generated files. -/
def directory (template : Path) (output : Option Path) : Path :=
  match output with
  | some path => path
  | none => template.parent?.getD ⟨[]⟩

/-- The path of the file of the row at the given index. -/
def resolve (template : Path) (row : Row) (naming : Naming) (output : Option Path) (index : Nat) :
    Except Failure Path :=
  match baseName template row naming index with
  | .ok base => .ok ((directory template output).join ⟨withExtension template base⟩)
  | .error failure => .error failure

/-- The part of a temporary name between the file name and the row's index. -/
def temporaryMark : String := ".rowmerge-tmp-"

/-- The name under which the file of the row at the given index is written until it is complete.  It
stands beside the destination. -/
def temporary (destination : Path) (index : Nat) : Path :=
  destination.withFileName
    (Path.dot :: (cleaned (destination.fileName?.getD []) ++
      utf8 (temporaryMark ++ toString index)))

end Destination

end MailMerge
