import MailMerge.Json

/-!
# Notices

What a run has to say while it is going on.  A notice has a level, a message, and sometimes the row
it is about.  It is written out as one line, as text or as a JSON document.
-/

namespace MailMerge.Journal

set_option autoImplicit false

/-- How much a notice matters. -/
inductive Level where
  | error
  | warn
  | info
  | debug
  | trace
  deriving DecidableEq, Repr

/-- The name of a level at the start of a line. -/
def Level.label : Level → String
  | .error => "ERROR"
  | .warn => "WARN"
  | .info => "INFO"
  | .debug => "DEBUG"
  | .trace => "TRACE"

/-- How much has to be let through for a level to be seen. -/
def Level.rank : Level → Nat
  | .error => 1
  | .warn => 2
  | .info => 3
  | .debug => 4
  | .trace => 5

/-- Something a run has to say. -/
structure Notice where
  /-- How much it matters. -/
  level : Level
  /-- What it says. -/
  message : String
  /-- The row it is about. -/
  row : Option Nat := none
  deriving DecidableEq, Repr

/-- The notice as a line of text, without the end of the line. -/
def Notice.textLine (notice : Notice) : String :=
  notice.level.label ++ " " ++ notice.message ++
    match notice.row with
    | some row => " row=" ++ toString row
    | none => ""

/-- The notice as a document. -/
def Notice.json (notice : Notice) : Json :=
  .object
    [("fields", .object
      (("message", .string notice.message) ::
        match notice.row with
        | some row => [("row", .number row)]
        | none => [])),
     ("level", .string notice.level.label)]

end MailMerge.Journal
