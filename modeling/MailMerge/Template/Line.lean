import MailMerge.Template.Placeholder
import MailMerge.Text.Utf8

/-!
# Template lines

A template is read line by line.  A line ends with a line feed, and a carriage return directly before
it belongs to the ending; a carriage return anywhere else is content.  The last line may have no
ending, and then it is not empty.

Lines are cut before they are decoded, which is sound because no octet of a longer character is a
line feed.  Reading stops at the first line that is not text, so `lines` has at most one error and
has it at the end.
-/

namespace MailMerge.Template

set_option autoImplicit false

/-- How a line ends. -/
inductive Ending where
  /-- The template ends without a line feed. -/
  | none
  /-- A line feed. -/
  | lf
  /-- A carriage return and a line feed. -/
  | crlf
  deriving DecidableEq, Repr

/-- The characters of a line ending. -/
def Ending.chars : Ending → List Char
  | .none => []
  | .lf => ['\n']
  | .crlf => ['\r', '\n']

/-- A line of a template, with its ending split off. -/
structure Line where
  /-- The characters before the ending. -/
  content : String
  /-- How the line ends. -/
  ending : Ending
  deriving DecidableEq, Repr

/-- The line that consists of the given characters, of which only the last may be a line feed. -/
def Line.ofChars (text : List Char) : Line :=
  match text.reverse with
  | '\n' :: '\r' :: rest => ⟨.ofList rest.reverse, .crlf⟩
  | '\n' :: rest => ⟨.ofList rest.reverse, .lf⟩
  | _ => ⟨.ofList text, .none⟩

/-- All characters of a line, its ending included. -/
def Line.chars (line : Line) : List Char := line.content.toList ++ line.ending.chars

/-- The line filled with the values of a row; the ending stays. -/
def Line.fill (row : Row) (line : Line) : Line := ⟨substitute row line.content, line.ending⟩

/-- The octets of the line. -/
def Line.bytes (line : Line) : Bytes := Utf8.encode line.chars

/-- The octets cut behind every line feed. -/
def cutLines : Bytes → List Bytes
  | [] => []
  | b :: rest =>
    if b = 0x0A then [b] :: cutLines rest
    else
      match cutLines rest with
      | [] => [[b]]
      | line :: more => (b :: line) :: more

/-- The lines that some cut octets hold, up to and including the first failure to decode one. -/
def decodeLines : List Bytes → List (Except Utf8.DecodeError Line)
  | [] => []
  | octets :: rest =>
    match Utf8.decode octets with
    | .ok text => .ok (Line.ofChars text) :: decodeLines rest
    | .error e => [.error e]

/-- The lines of a template, up to and including the first failure to decode one. -/
def lines (content : Bytes) : List (Except Utf8.DecodeError Line) := decodeLines (cutLines content)

/-- The file that a row makes of some lines, unless one of them is not text. -/
def renderLines (row : Row) : List (Except Utf8.DecodeError Line) → Except Utf8.DecodeError Bytes
  | [] => .ok []
  | .error e :: _ => .error e
  | .ok line :: rest =>
    match renderLines row rest with
    | .ok octets => .ok ((line.fill row).bytes ++ octets)
    | .error e => .error e

/-- The file that a row makes of a template: all lines filled, each with its own ending. -/
def render (row : Row) (content : Bytes) : Except Utf8.DecodeError Bytes :=
  renderLines row (lines content)

end MailMerge.Template
