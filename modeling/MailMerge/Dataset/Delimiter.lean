import MailMerge.Path
import MailMerge.Text.Blank

/-!
# The delimiter of a dataset

Which octet separates the fields.  It may be given; otherwise the extension of the dataset's path
says it; otherwise it is guessed from the header line, as the candidate that occurs there most often.
-/

namespace MailMerge.Dataset

set_option autoImplicit false

/-- The octets that are tried when the delimiter has to be guessed: comma, semicolon, tabulator and
vertical bar. -/
def candidates : List Char := [',', ';', '\t', '|']

/-- The lines of a text, without the line feeds between them. -/
def textLines : List Char → List (List Char)
  | [] => [[]]
  | c :: rest =>
    if c = '\n' then [] :: textLines rest
    else
      match textLines rest with
      | [] => [[c]]
      | line :: more => (c :: line) :: more

/-- The first line with anything but blanks on it. -/
def headerLine (text : List Char) : List Char :=
  ((textLines text).find? (!·.all isBlank)).getD []

/-- Of two candidates with their counts the one that occurs more often, and the second one if both
occur equally often. -/
def moreFrequent (best next : Char × Nat) : Char × Nat := if best.2 ≤ next.2 then next else best

/-- The candidate that occurs most often in the header line, the last one of several.  A header in
which none occurs is taken to be comma separated. -/
def guess (text : List Char) : Char :=
  let counted := candidates.map fun c => (c, (headerLine text).count c)
  match counted.filter (0 < ·.2) with
  | [] => ','
  | first :: others => (others.foldl moreFrequent first).1

/-- An octet with capital letters of the basic alphabet made small. -/
def lowerOctet (b : UInt8) : UInt8 := if 0x41 ≤ b && b ≤ 0x5A then b + 0x20 else b

/-- The delimiter that an extension stands for. -/
def ofExtension? (extension : Bytes) : Option UInt8 :=
  let lower := extension.map lowerOctet
  if lower = utf8 "tsv" || lower = utf8 "tab" then some 0x09
  else if lower = utf8 "csv" then some 0x2C
  else none

/-- The delimiter of the dataset with this path and text. -/
def delimiterFor (path : Path) (given : Option UInt8) (text : List Char) : UInt8 :=
  match given with
  | some delimiter => delimiter
  | none =>
    match path.extension?.bind ofExtension? with
    | some delimiter => delimiter
    | none => .ofNat (guess text).toNat

end MailMerge.Dataset
