import MailMerge.Row
import MailMerge.Text.Search

/-!
# Placeholders and substitution

A placeholder is a name between two pairs of braces.  This module has the two things that are done
with placeholders: `placeholders` lists the names that occur in a text, and `substitute` fills a line
with the values of a row.

The two do not share a notion of name.  A listed name is nonempty and has no brace in it, whereas a
row is applied field by field, in ascending order of the names, and each field replaces its own token
literally, whatever characters its name consists of.  A value that brings a token into the line is
therefore expanded further by the fields that come after it, and by no others.
-/

namespace MailMerge.Template

set_option autoImplicit false

/-! ## Tokens -/

/-- The name between two pairs of braces. -/
def token (name : List Char) : List Char := '{' :: '{' :: (name ++ ['}', '}'])

/-- What stands in a template for the value of a column. -/
def placeholder (name : String) : String := .ofList (token name.toList)

theorem token_ne_nil (name : List Char) : token name ≠ [] := by simp [token]

/-! ## The names in a text -/

/-- A character that a listed name may contain. -/
def isNameChar (c : Char) : Bool := c != '{' && c != '}'

/-- The name of the placeholder that the text begins with. -/
def leadingName? : List Char → Option (List Char)
  | '{' :: '{' :: rest =>
    let name := rest.takeWhile isNameChar
    if name.isEmpty then none
    else if ['}', '}'].isPrefixOf (rest.dropWhile isNameChar) then some name
    else none
  | _ => none

/-- The names of the placeholders in the text, from left to right.  No placeholder begins within
another one, so the search may start at every character. -/
def namesIn : List Char → List (List Char)
  | [] => []
  | c :: rest =>
    match leadingName? (c :: rest) with
    | some name => name :: namesIn rest
    | none => namesIn rest

/-- The names that occur as placeholders in the text, each once, in order of first appearance. -/
def placeholders (text : String) : List String :=
  ((namesIn text.toList).map String.ofList).eraseDups

/-! ## Filling a line -/

/-- The text with one field applied: every token of its name becomes its value. -/
def applyField (text : List Char) (field : String × String) : List Char :=
  if occursIn (token field.1.toList) text then
    replaceAll (token field.1.toList) field.2.toList text
  else text

/-- The text with all fields of a row applied, one after another in ascending order of the names.  A
text without an opening pair of braces has no token and is returned as it is. -/
def fill (row : Row) (text : List Char) : List Char :=
  if occursIn ['{', '{'] text then row.fields.foldl applyField text else text

/-- The line with every token of the row's fields replaced.  A placeholder that no field provides
stays as it is. -/
def substitute (row : Row) (line : String) : String := .ofList (fill row line.toList)

end MailMerge.Template
