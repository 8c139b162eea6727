import MailMerge.Toml.Scalar
import MailMerge.Toml.Tables

/-!
# TOML documents

A document is a sequence of lines, each of which is empty, gives a key a value, or opens a table.
`parse?` gives the record that the document stands for, or nothing when the text is no document.

Values may hold values, up to a depth of eighty.
-/

namespace MailMerge.Toml

set_option autoImplicit false

/-! ## Between values -/

/-- The text behind blanks on the same line. -/
def skipSpace (text : List Char) : List Char := text.dropWhile isSpace

/-- The text behind a comment, if it begins with one, without its line end. -/
def skipComment (text : List Char) : List Char :=
  match text with
  | '#' :: rest => rest.dropWhile isPlain
  | _ => text

/-- The text behind the end of a line, on which nothing but a comment is left. -/
def restOfLine? (text : List Char) : Option (List Char) :=
  let behind := skipComment (skipSpace text)
  if behind.isEmpty then some [] else lineEnd? behind

/-- The text behind blanks, comments and line ends. -/
def skipLines : Nat → List Char → List Char
  | 0, text => text
  | fuel + 1, text =>
    let behind := skipComment (skipSpace text)
    match lineEnd? behind with
    | some rest => skipLines fuel rest
    | none => behind

/-- The text behind blanks, comments and line ends. -/
def skipAll (text : List Char) : List Char := skipLines text.length text

/-! ## Keys -/

/-- A character of a key without quotation marks. -/
def isKeyChar (c : Char) : Bool := c.isAlphanum || c == '_' || c == '-'

/-- One part of a key. -/
def simpleKey? (text : List Char) : Option (String × List Char) :=
  match shortString? text with
  | some result => some result
  | none =>
    let name := text.takeWhile isKeyChar
    if name.isEmpty then none else some (.ofList name, text.dropWhile isKeyChar)

/-- The parts of a key: all but the last, and the last. -/
def key? : Nat → List Char → Option (List String × String × List Char)
  | 0, _ => none
  | fuel + 1, text =>
    match simpleKey? (skipSpace text) with
    | none => none
    | some (name, rest) =>
      match skipSpace rest with
      | '.' :: rest =>
        match key? fuel rest with
        | some (path, last, rest) => some (name :: path, last, rest)
        | none => none
      | rest => some ([], name, rest)

/-! ## Values -/

/-- The greatest depth of values within values. -/
def depthLimit : Nat := 80

mutual

/-- The value that the text begins with. -/
def value? (fuel depth : Nat) (text : List Char) : Option (Datum × List Char) :=
  match fuel with
  | 0 => none
  | fuel + 1 =>
    match text with
    | '[' :: rest =>
      if depthLimit ≤ depth then none
      else (items? fuel (depth + 1) (skipAll rest)).map fun (items, rest) => (.list items, rest)
    | '{' :: rest =>
      if depthLimit ≤ depth then none
      else
        (fields? fuel (depth + 1) [] (skipAll rest)).map fun (entries, rest) =>
          (.record (fieldsOf entries), rest)
    | _ =>
      match string? text with
      | some (value, rest) => some (.text value, rest)
      | none =>
        let (word, rest) := splitWord text
        (word? word).map fun value => (value, rest)

/-- The items of an array up to its closing bracket. -/
def items? (fuel depth : Nat) (text : List Char) : Option (List Datum × List Char) :=
  match fuel with
  | 0 => none
  | fuel + 1 =>
    match text with
    | ']' :: rest => some ([], rest)
    | _ =>
      match value? fuel depth text with
      | none => none
      | some (item, rest) =>
        match skipAll rest with
        | ',' :: rest =>
          (items? fuel depth (skipAll rest)).map fun (items, rest) => (item :: items, rest)
        | ']' :: rest => some ([item], rest)
        | _ => none

/-- The fields of a table between braces up to its closing brace, added to those before. -/
def fields? (fuel depth : Nat) (entries : Entries) (text : List Char) :
    Option (Entries × List Char) :=
  match fuel with
  | 0 => none
  | fuel + 1 =>
    match text with
    | '}' :: rest => some (entries, rest)
    | _ =>
      match key? text.length text with
      | none => none
      | some (path, key, rest) =>
        match skipSpace rest with
        | '=' :: rest =>
          match value? fuel depth (skipSpace rest) with
          | none => none
          | some (value, rest) =>
            match insertAt key (.leaf value) path entries with
            | none => none
            | some entries =>
              match skipAll rest with
              | ',' :: rest => fields? fuel depth entries (skipAll rest)
              | '}' :: rest => some (entries, rest)
              | _ => none
        | _ => none

end

/-! ## Lines -/

/-- A document in the making: all entries, and the path of the table that is open. -/
structure Unfinished where
  /-- The entries of the document. -/
  entries : Entries
  /-- The path of the table that is open. -/
  current : List String

/-- Read a header, given the text behind its opening brackets. -/
def header? (double : Bool) (unfinished : Unfinished) (text : List Char) :
    Option (Unfinished × List Char) :=
  match key? text.length text with
  | none => none
  | some (path, key, rest) =>
    let behind : Option (List Char) :=
      match double, rest with
      | true, ']' :: ']' :: rest => some rest
      | false, ']' :: rest => some rest
      | _, _ => none
    match behind, changeAt (if double then openElement key else openTable key) path
        unfinished.entries with
    | some rest, some entries => (restOfLine? rest).map fun rest => (⟨entries, path ++ [key]⟩, rest)
    | _, _ => none

/-- Read a line that gives a key a value. -/
def keyLine? (unfinished : Unfinished) (text : List Char) : Option (Unfinished × List Char) :=
  match key? text.length text with
  | none => none
  | some (path, key, rest) =>
    match rest with
    | '=' :: rest =>
      let start := skipSpace rest
      match value? (2 * start.length + 2) 0 start with
      | none => none
      | some (value, rest) =>
        match changeAt (insertAt key (.leaf value) path) unfinished.current unfinished.entries with
        | none => none
        | some entries => (restOfLine? rest).map fun rest => ({ unfinished with entries }, rest)
    | _ => none

/-- Read the lines of a document. -/
def lines? : Nat → Unfinished → List Char → Option Unfinished
  | 0, _, _ => none
  | fuel + 1, unfinished, text =>
    match skipAll text with
    | [] => some unfinished
    | '[' :: '[' :: rest =>
      match header? true unfinished rest with
      | some (unfinished, rest) => lines? fuel unfinished rest
      | none => none
    | '[' :: rest =>
      match header? false unfinished rest with
      | some (unfinished, rest) => lines? fuel unfinished rest
      | none => none
    | text =>
      match keyLine? unfinished text with
      | some (unfinished, rest) => lines? fuel unfinished rest
      | none => none

/-- The text without the mark that may stand at its very start. -/
def withoutMark : List Char → List Char
  | c :: text => if c = Char.ofNat 0xFEFF then text else c :: text
  | [] => []

/-- The record that a document stands for. -/
def parse? (text : String) : Option Datum :=
  let chars := withoutMark text.toList
  (lines? (chars.length + 1) ⟨[], []⟩ chars).map fun unfinished =>
    .record (fieldsOf unfinished.entries)

end MailMerge.Toml
