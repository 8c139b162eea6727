import MailMerge.Dataset.Delimiter
import MailMerge.Dataset.Record
import MailMerge.Failure
import MailMerge.Row

/-!
# Datasets as tables

A dataset is read as a table: the first record is the header and gives the column names, without the
blanks around them, and each further record is a row with exactly as many fields.  Names must be
there and distinct.  Whatever is wrong first, from the start of the dataset on, is what is reported.
-/

namespace MailMerge.Dataset

set_option autoImplicit false

/-- The texts of the fields of a record.  A field that is not text is named by its number and by the
number of octets before the fault. -/
def decodeFieldsFrom (record : Nat) (mark : Mark) (field : Nat) :
    List Bytes → Except Failure (List String)
  | [] => .ok []
  | octets :: rest =>
    match Utf8.decode octets with
    | .error e => .error (.records (.fieldNotText record mark.line mark.byte field e.validUpTo))
    | .ok text =>
      match decodeFieldsFrom record mark (field + 1) rest with
      | .ok texts => .ok (.ofList text :: texts)
      | .error failure => .error failure

/-- The texts of the fields of the record with this number. -/
def decodeFields (number : Nat) (record : Record) : Except Failure (List String) :=
  decodeFieldsFrom number record.mark 0 record.fields

/-- What is wrong with some columns, given how many there are before them and what they are called. -/
def columnProblem? (before : List String) : List String → Option DatasetProblem
  | [] => none
  | name :: rest =>
    if name.isEmpty then some (.unnamedColumn (before.length + 1))
    else if before.contains name then some (.repeatedColumn name)
    else columnProblem? (before ++ [name]) rest

/-- What is wrong with a header. -/
def headerProblem? (header : List String) : Option DatasetProblem :=
  if header.all String.isEmpty then some .noHeader else columnProblem? [] header

/-- The rows of the records behind the header, the first of which has the given number. -/
def rowsFrom (header : List String) (number : Nat) : List Record → Except Failure (List Row)
  | [] => .ok []
  | record :: rest =>
    match decodeFields number record with
    | .error failure => .error failure
    | .ok values =>
      if values.length = header.length then
        match rowsFrom header (number + 1) rest with
        | .ok rows => .ok (Row.ofHeader header values :: rows)
        | .error failure => .error failure
      else .error (.dataset record.mark.line (.fieldCount header.length values.length))

/-- The column names that a header record gives, or what is wrong with them. -/
def readHeader (record : Option Record) : Except Failure (List String) :=
  let texts : Except Failure (List String) :=
    match record with
    | none => .ok []
    | some first => decodeFields 0 first
  match texts with
  | .error failure => .error failure
  | .ok names =>
    let header := names.map trimmed
    match headerProblem? header with
    | some problem => .error (.dataset 1 problem)
    | none => .ok header

/-- The rows of a table whose fields are separated by the delimiter. -/
def rows (delimiter : UInt8) (octets : Bytes) : Except Failure (List Row) :=
  match readHeader (records delimiter octets).head? with
  | .error failure => .error failure
  | .ok header => rowsFrom header 1 (records delimiter octets).tail

/-- The text without the mark that may stand at its very start. -/
def withoutMark : List Char → List Char
  | c :: text => if c = Char.ofNat 0xFEFF then text else c :: text
  | [] => []

/-- The rows of the dataset with this path and text.  Only the extension of the path matters. -/
def parse (path : Path) (given : Option UInt8) (text : List Char) : Except Failure (List Row) :=
  rows (delimiterFor path given (withoutMark text)) (Utf8.encode (withoutMark text))

end MailMerge.Dataset
