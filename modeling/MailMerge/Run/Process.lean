import MailMerge.Run.Schedule

/-!
# Running a request

The run of a request as a whole.  It fails as a whole only when the template is missing or, if there
is any row, when it is not text; otherwise it has a report, and the failures of rows are in there.
Planning a request gives the destinations without writing anything.
-/

namespace MailMerge.Run

set_option autoImplicit false

/-- Make sure that the template is a file. -/
def openTemplate (path : Path) : Task (Except Failure Unit) := do
  match ← Task.kind path with
  | .ok .file => return .ok ()
  | .ok .directory => return .error (.templateNotFound path)
  | .error fault =>
    if fault.isNotFound then return .error (.templateNotFound path)
    else return .error (.io path fault)

/-- The names that occur as placeholders in the template. -/
def templatePlaceholders (path : Path) : Task (Except Failure (List String)) := do
  match ← Task.read path with
  | .error fault => return .error (.io path fault)
  | .ok content =>
    match Utf8.decode content with
    | .error _ => return .error (.io path .notText)
    | .ok text => return .ok (Template.placeholders (.ofList text))

/-- The lines of some reading up to the first that is not text, and what is wrong with that one. -/
def splitReading (path : Path) :
    List (Except Utf8.DecodeError Template.Line) → List Template.Line × Option Failure
  | [] => ([], none)
  | .error error :: _ => ([], some (.io path (.lineNotText error)))
  | .ok line :: rest =>
    let (lines, failure) := splitReading path rest
    (line :: lines, failure)

/-- The lines of the template, and the failure that ends them early if there is one. -/
def templateLines (path : Path) : Task (List Template.Line × Option Failure) := do
  match ← Task.read path with
  | .error fault => return ([], some (.io path fault))
  | .ok content => return splitReading path (Template.lines content)

/-- Give one notice after another. -/
def noteAll (level : Journal.Level) : List String → Task Unit
  | [] => pure ()
  | message :: rest => do
    Task.note level message none
    noteAll level rest

/-- The placeholders that no row provides. -/
def unprovided (rows : List Row) (names : List String) : List String :=
  names.filter fun name => !rows.any (·.contains name)

/-- What is said about a placeholder that no row provides. -/
def unprovidedNotice (name : String) : String :=
  "Placeholder " ++ Template.placeholder name ++ " has no matching column and will be left as is"

/-- Say which placeholders of the template no row provides.  Without rows there is nothing to say. -/
def noteUnprovided (request : Request) : Task (Except Failure Unit) := do
  if request.rows.isEmpty then return .ok ()
  match ← templatePlaceholders request.template with
  | .error failure => return .error failure
  | .ok names =>
    noteAll .warn ((unprovided request.rows names).map unprovidedNotice)
    return .ok ()

/-- What is said about a row that replaces an earlier row's file. -/
def repetitionNotice (repetition : Repetition) : String :=
  "Row " ++ toString repetition.row ++ " overwrites " ++ repetition.path.display ++
    " generated by row " ++ toString repetition.firstRow

/-- Say which rows replace the file of an earlier row. -/
def noteRepetitions (request : Request) : Task Unit :=
  match request.duplicatePolicy with
  | .overwrite => noteAll .warn (request.plan.repetitions.map repetitionNotice)
  | .error => pure ()

/-- Say how the run went. -/
def noteReport (request : Request) (report : Report) : Task Unit := do
  if report.cancelled then
    Task.note .warn ("Generation cancelled after " ++ toString report.outcomes.length ++ " of " ++
      toString request.rows.length ++ " row(s)") none
  Task.note .info ("Generated " ++ toString report.generatedCount ++ " file(s), " ++
    toString report.failedCount ++ " row(s) failed") none

/-- Run a request.  The report has the outcomes of the rows in order. -/
def process (schedule : Schedule) (request : Request) : Task (Except Failure Report) := do
  match ← openTemplate request.template with
  | .error failure => return .error failure
  | .ok () =>
    Task.note .info ("Generating " ++ toString request.rows.length ++ " file(s) from template " ++
      request.template.display) none
    match ← noteUnprovided request with
    | .error failure => return .error failure
    | .ok () =>
      noteRepetitions request
      Task.note .debug ("Processing rows with concurrency " ++ toString request.width) none
      let report ← generate schedule request
      noteReport request report
      return .ok report

/-- Run a request, all or nothing: the paths in row order, or the first failure.  Files that were
written before the failure stay. -/
def processAll (schedule : Schedule) (request : Request) : Task (Except Failure (List Path)) := do
  match ← process schedule { request with errorPolicy := .abort } with
  | .error failure => return .error failure
  | .ok report => return report.result

/-- The destinations of a request.  Nothing is written. -/
def planOnly (request : Request) : Task (Except Failure (List (Except Failure Path))) := do
  match ← openTemplate request.template with
  | .error failure => return .error failure
  | .ok () =>
    noteRepetitions request
    return .ok request.plan.destinations

end MailMerge.Run
