/-!
# References to environment variables

A settings file may refer to environment variables by their names between `${` and `}`.  The text is
cut from left to right: a reference begins at the first `${` behind which there is a nonempty name
and then a closing brace, and its name reaches up to that brace, whatever else is in it.  Everything
else is copied.

Expanding is one pass over the cut text.  A reference is replaced by the value of its variable, and by
itself when there is no such variable; what is inserted is not searched again.
-/

namespace MailMerge.Variables

set_option autoImplicit false

/-- The name of the reference that the text begins with, and the text behind it. -/
def leadingReference? : List Char → Option (List Char × List Char)
  | '$' :: '{' :: rest =>
    let name := rest.takeWhile (· != '}')
    let closing := rest.dropWhile (· != '}')
    if name.isEmpty || closing.isEmpty then none else some (name, closing.tail)
  | _ => none

/-- A stretch of a text. -/
inductive Piece where
  /-- A character that is no part of a reference. -/
  | char (c : Char)
  /-- A reference to the variable of this name. -/
  | reference (name : List Char)
  deriving DecidableEq, Repr

/-- What is behind a reference is shorter than the whole text. -/
theorem length_behind_lt {text name behind : List Char}
    (found : leadingReference? text = some (name, behind)) : behind.length < text.length := by
  unfold leadingReference? at found
  split at found
  next rest =>
    have shorter : (rest.dropWhile (· != '}')).length ≤ rest.length :=
      (List.dropWhile_suffix _).length_le
    dsimp only at found
    split at found
    · simp at found
    · simp only [Option.some.injEq, Prod.mk.injEq] at found
      rw [← found.2]
      simp only [List.length_tail, List.length_cons]
      omega
  next => simp at found

/-- The text cut into references and other characters. -/
def cut (text : List Char) : List Piece :=
  match _found : leadingReference? text with
  | some (name, behind) => .reference name :: cut behind
  | none =>
    match text with
    | [] => []
    | c :: rest => .char c :: cut rest
termination_by text.length
decreasing_by
  · exact length_behind_lt _found
  · simp

/-- A piece as it stands in the text. -/
def Piece.source : Piece → List Char
  | .char c => [c]
  | .reference name => '$' :: '{' :: (name ++ ['}'])

/-- A piece with the values of some variables. -/
def Piece.expand (value? : String → Option String) : Piece → List Char
  | .char c => [c]
  | .reference name =>
    match value? (.ofList name) with
    | some value => value.toList
    | none => (Piece.reference name).source

/-- The text with every reference to a variable that has a value replaced by that value. -/
def expand (value? : String → Option String) (text : String) : String :=
  .ofList ((cut text.toList).flatMap (Piece.expand value?))

/-- The names of the variables that the text refers to. -/
def namesIn (text : String) : List String :=
  (cut text.toList).filterMap fun piece =>
    match piece with
    | .char _ => none
    | .reference name => some (.ofList name)

end MailMerge.Variables
