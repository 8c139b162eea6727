import MailMerge.Settings.Sections
import MailMerge.Settings.Variables
import MailMerge.Task
import MailMerge.Toml.Document

/-!
# Settings files

A settings file is a TOML document in sections.  References to environment variables are expanded in
its text before the document is read, so a value may bring in whole lines of it.  A variable whose
value is not text counts as one that is not set.
-/

namespace MailMerge

set_option autoImplicit false

/-! ## Variables -/

/-- The value of an environment variable, if it is set and text. -/
def Task.textVariable (name : String) : Task (Option String) := do
  match ← Task.perform (.variable name) with
  | none => return none
  | some octets =>
    match Utf8.decode octets with
    | .ok text => return some (.ofList text)
    | .error _ => return none

/-- The values of those of the environment variables that have one. -/
def Task.textVariables : List String → Task (List (String × String))
  | [] => pure []
  | name :: rest => do
    let value ← Task.textVariable name
    let values ← Task.textVariables rest
    return (value.map fun text => (name, text)).toList ++ values

/-- The text with its references to environment variables expanded. -/
def Task.expandVariables (text : String) : Task String := do
  let values ← Task.textVariables (Variables.namesIn text)
  return Variables.expand (fun name => values.lookup name) text

namespace Sections

/-! ## Documents -/

/-- What a problem with the document itself is reported on. -/
def documentField : String := "toml_parsing"

/-- The sections that a document holds. -/
def ofText (text : String) : Except Failure Sections :=
  match Toml.parse? text with
  | none => .error (.invalidConfiguration documentField .malformed)
  | some document =>
    match Sections.ofDatum document with
    | .error misfit => .error (.invalidConfiguration documentField (.unreadable misfit))
    | .ok sections => .ok sections

/-- The sections that a document holds once its references are expanded. -/
def expandText (text : String) : Task (Except Failure Sections) := do
  let expanded ← Task.expandVariables text
  return ofText expanded

/-- The sections of the settings file at a path. -/
def load (path : Path) : Task (Except Failure Sections) := do
  match ← Task.read path with
  | .error fault => return .error (.io path fault)
  | .ok content =>
    match Utf8.decode content with
    | .error _ => return .error (.io path .notText)
    | .ok text => expandText (.ofList text)

end Sections

end MailMerge
