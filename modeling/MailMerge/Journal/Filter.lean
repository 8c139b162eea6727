import MailMerge.Journal.Notice
import MailMerge.Text.Blank

/-!
# Which notices are written out

A filter is a list of directives separated by commas.  A directive is a level, which holds for every
source of notices, or a source, or a source and a level with an equals sign between them.  Of the
directives that apply to a source the one that names it most fully decides; of two that name it
alike, the later one.

All notices of this program come from one source, so a filter comes down to one threshold: the
greatest rank that is let through.
-/

namespace MailMerge.Journal

set_option autoImplicit false

/-- The source of all notices of this program. -/
def sourceName : String := "rowmerge"

/-- A part of a filter: a threshold, and the start of the names of the sources it is for. -/
structure Directive where
  /-- The start of the names of the sources it is for, all sources if there is none. -/
  source : Option String
  /-- Whether it only holds within a named stretch of work. -/
  conditional : Bool
  /-- The greatest rank that is let through. -/
  threshold : Nat
  deriving DecidableEq, Repr

/-- A small letter for a capital one of the basic alphabet. -/
def lowerChar (c : Char) : Char :=
  if 65 ≤ c.toNat && c.toNat ≤ 90 then Char.ofNat (c.toNat + 32) else c

/-- The number that some decimal digits stand for. -/
def digitsValue? (digits : List Char) : Option Nat :=
  if digits.isEmpty then none
  else
    digits.foldl (fun value c =>
      match value with
      | none => none
      | some n => if 48 ≤ c.toNat && c.toNat ≤ 57 then some (n * 10 + (c.toNat - 48)) else none)
      (some 0)

/-- The threshold that a word stands for: a level by name, `off`, or a number up to five. -/
def threshold? (word : List Char) : Option Nat :=
  let unsigned := match word with
    | '+' :: rest => rest
    | _ => word
  match digitsValue? unsigned with
  | some n => if n ≤ 5 then some n else none
  | none =>
    let lower := String.ofList (word.map lowerChar)
    if lower = "" then some 1
    else if lower = "off" then some 0
    else if lower = "error" then some 1
    else if lower = "warn" then some 2
    else if lower = "info" then some 3
    else if lower = "debug" then some 4
    else if lower = "trace" then some 5
    else none

/-- Whether a directive may begin with the character. -/
def startsDirective (c : Char) : Bool :=
  c == '-' || c == ':' || c == '_' || c.isAlphanum || 127 < c.toNat

/-- The directive that some text stands for. -/
def directive? (text : List Char) : Option Directive :=
  let text := trim text
  match text with
  | [] => some ⟨none, false, 5⟩
  | first :: _ =>
    if first = '[' then
      some ⟨none, true, ((threshold? ((text.dropWhile (· != '=')).drop 1)).getD 5)⟩
    else if !startsDirective first then none
    else
      let source := text.takeWhile fun c => c != '=' && c != '['
      match text.dropWhile fun c => c != '=' && c != '[' with
      | [] =>
        match threshold? source with
        | some threshold => some ⟨none, false, threshold⟩
        | none => some ⟨some (.ofList source), false, 5⟩
      | '=' :: level =>
        if level.isEmpty then some ⟨some (.ofList source), false, 5⟩
        else (threshold? level).map fun threshold => ⟨some (.ofList source), false, threshold⟩
      | rest =>
        some ⟨some (.ofList source), true, (threshold? ((rest.dropWhile (· != '=')).drop 1)).getD 5⟩

/-- The parts of a filter between the commas, the empty ones left out. -/
def filterParts : List Char → List (List Char)
  | text => (splitCommas text).filter (!·.isEmpty)
where
  /-- The parts between the commas. -/
  splitCommas : List Char → List (List Char)
    | [] => [[]]
    | c :: rest =>
      if c = ',' then [] :: splitCommas rest
      else
        match splitCommas rest with
        | [] => [[c]]
        | part :: more => (c :: part) :: more

/-- The directives of a filter, if every part of it is one. -/
def directives? (text : String) : Option (List Directive) :=
  (filterParts text.toList).mapM directive?

/-- The directives of a filter, and the parts that are none. -/
def directivesAndRest (text : String) : List Directive × List String :=
  let parts := filterParts text.toList
  (parts.filterMap directive?,
    (parts.filter fun part => (directive? part).isNone).map String.ofList)

/-- How fully a directive names a source, if it applies to it at all. -/
def Directive.weight? (directive : Directive) (source : String) : Option Nat :=
  if directive.conditional then none
  else
    match directive.source with
    | none => some 0
    | some name => if name.toList.isPrefixOf source.toList then some (name.utf8ByteSize + 1) else none

/-- The greatest rank that some directives let through.  Without any directive errors pass. -/
def threshold (directives : List Directive) : Nat :=
  if directives.isEmpty then 1
  else
    (directives.foldl (fun best directive =>
      match directive.weight? sourceName with
      | none => best
      | some weight => if best.1 ≤ weight then (weight, directive.threshold) else best)
      (0, 0)).2

/-- How notices are written out. -/
inductive Style where
  /-- A line of text each. -/
  | text
  /-- A JSON document each. -/
  | json
  deriving DecidableEq, Repr

/-- Which notices are written out, and how. -/
structure Display where
  /-- The greatest rank that is let through. -/
  threshold : Nat
  /-- How they are written. -/
  style : Style
  deriving DecidableEq, Repr

/-- The line that a notice is written as, with its end, if it is let through. -/
def Display.line? (display : Display) (notice : Notice) : Option String :=
  if notice.level.rank ≤ display.threshold then
    match display.style with
    | .text => some (notice.textLine ++ "\n")
    | .json => some (notice.json.compact ++ "\n")
  else none

/-- The filter for a level from the settings. -/
def filterFor (style : Style) (level : Option String) : String :=
  match style, level with
  | .text, some level => sourceName ++ "=" ++ level ++ ",warn"
  | _, _ => sourceName ++ "=info"

/-- How notices are displayed, and the parts of the filter that had to be ignored.  A filter from
outside counts if every part of it is understood; otherwise the level from the settings does. -/
def choose (outside : Option String) (style : Style) (level : Option String) :
    Display × List String :=
  match outside.bind directives? with
  | some directives => (⟨threshold directives, style⟩, [])
  | none =>
    let (directives, ignored) := directivesAndRest (filterFor style level)
    (⟨threshold directives, style⟩, ignored)

/-- What is said about a part of a filter that is ignored. -/
def ignoredLine (part : String) : String := "ignoring `" ++ part ++ "`: invalid filter directive\n"

end MailMerge.Journal
