import MailMerge.Path

/-!
# Data in documents

Settings come from documents of two formats, and both are read into the same trees of values first.
The fields of a record stand in ascending order of their names.

Reading a part of the settings from such a value can fail in three ways that are told apart, because
two of them can be explained to a person: a field that must be there is missing, or a word is not one
of those that are possible.  The fields that are there are looked at in their order, and the first one
with a fault is what is reported; only when all are in order are the missing ones noticed.
-/

namespace MailMerge

set_option autoImplicit false

/-- A value in a document. -/
inductive Datum where
  /-- No value. -/
  | null
  /-- A truth value. -/
  | bool (value : Bool)
  /-- A whole number. -/
  | integer (value : Int)
  /-- A number of another kind. -/
  | real
  /-- A date or a time. -/
  | moment
  /-- A text. -/
  | text (value : String)
  /-- Values in a row. -/
  | list (items : List Datum)
  /-- Values under names. -/
  | record (fields : List (String × Datum))
  deriving Inhabited, Repr

namespace Datum

/-- Why a value cannot be read as what it should be. -/
inductive Misfit where
  /-- A field is missing. -/
  | missingField (name : String)
  /-- A word is not one of those that are possible. -/
  | unknownVariant (word : String) (first second : String)
  /-- The value is of another kind. -/
  | wrongKind
  deriving DecidableEq, Repr

/-- The misfit in words. -/
def Misfit.message : Misfit → String
  | .missingField name => "missing field `" ++ name ++ "`"
  | .unknownVariant word first second =>
    "unknown variant `" ++ word ++ "`, expected `" ++ first ++ "` or `" ++ second ++ "`"
  | .wrongKind => "a value is of the wrong kind"

/-- What stands behind the last line feed of a text. -/
def lastLine (text : String) : String :=
  .ofList ((text.toList.reverse.takeWhile (· != '\n')).reverse)

/-- The explanation of a misfit, if it is one that can be explained on one line. -/
def Misfit.detail? (misfit : Misfit) : Option String :=
  let line := lastLine misfit.message
  if "missing field `".toList.isPrefixOf line.toList ||
      "unknown variant `".toList.isPrefixOf line.toList then some line
  else none

/-! ## Reading values -/

/-- A text. -/
def asText : Datum → Except Misfit String
  | .text value => .ok value
  | _ => .error .wrongKind

/-- A path, written as a text. -/
def asPath : Datum → Except Misfit Path
  | .text value => .ok (.ofString value)
  | _ => .error .wrongKind

/-- The greatest count. -/
def countLimit : Nat := Nat.pow 2 64 - 1

/-- A count. -/
def asCount : Datum → Except Misfit Nat
  | .integer value =>
    if 0 ≤ value && value ≤ countLimit then .ok value.toNat else .error .wrongKind
  | _ => .error .wrongKind

/-- A value that may be absent. -/
def asOptional {α : Type} (read : Datum → Except Misfit α) : Datum → Except Misfit (Option α)
  | .null => .ok none
  | value =>
    match read value with
    | .ok result => .ok (some result)
    | .error misfit => .error misfit

/-- Whether a value says nothing. -/
def isVoid : Datum → Bool
  | .null => true
  | .list items => items.isEmpty
  | .record fields => fields.isEmpty
  | _ => false

/-- One of two possibilities by a word. -/
def pick {α : Type} (first second : String × α) (word : String) : Except Misfit α :=
  if word = first.1 then .ok first.2
  else if word = second.1 then .ok second.2
  else .error (.unknownVariant word first.1 second.1)

/-- One of two possibilities, said by a word or by a record whose only field has that name and says
nothing. -/
def asChoice {α : Type} (first second : String × α) : Datum → Except Misfit α
  | .text word => pick first second word
  | .record [(word, value)] =>
    match pick first second word with
    | .ok result => if value.isVoid then .ok result else .error .wrongKind
    | .error misfit => .error misfit
  | _ => .error .wrongKind

/-! ## Reading fields -/

/-- The fields of a part of the settings, given by name or by position. -/
structure Fields where
  /-- The fields that are there. -/
  given : List (String × Datum)
  /-- Whether they were given by position; then none may be missing. -/
  positional : Bool

/-- The fields of a value that should be a part of the settings with fields of these names. -/
def asFields (names : List String) : Datum → Except Misfit Fields
  | .record fields => .ok ⟨fields, false⟩
  | .moment => .ok ⟨[], false⟩
  | .list items => .ok ⟨names.zip items, true⟩
  | _ => .error .wrongKind

/-- Look at the fields that are there, in their order. -/
def checkGiven (look : String → Datum → Except Misfit Unit) :
    List (String × Datum) → Except Misfit Unit
  | [] => .ok ()
  | (name, value) :: rest =>
    match look name value with
    | .ok () => checkGiven look rest
    | .error misfit => .error misfit

/-- Forget what was read, but not that it could be read. -/
def readable {α : Type} (result : Except Misfit α) : Except Misfit Unit :=
  match result with
  | .ok _ => .ok ()
  | .error misfit => .error misfit

/-- A field that must be there. -/
def Fields.required {α : Type} (fields : Fields) (name : String) (read : Datum → Except Misfit α) :
    Except Misfit α :=
  match fields.given.lookup name with
  | some value => read value
  | none => if fields.positional then .error .wrongKind else .error (.missingField name)

/-- A field that may be missing. -/
def Fields.optional {α : Type} (fields : Fields) (name : String) (read : Datum → Except Misfit α) :
    Except Misfit (Option α) :=
  match fields.given.lookup name with
  | some value => asOptional read value
  | none => if fields.positional then .error .wrongKind else .ok none

end Datum

end MailMerge
