import MailMerge.Dataset.Table
import MailMerge.Run.Process
import MailMerge.Settings.Basic
import MailMerge.Text.Quoted

/-!
# Jobs

A job is a run together with the reading of its rows.  The rows come from a dataset or are given; in
both cases the settings say what to make of them.  A job that fails to get its rows does nothing else.
-/

namespace MailMerge.Run

set_option autoImplicit false

/-- Where the rows of a job come from. -/
inductive Source where
  /-- The rows are given. -/
  | given (rows : List Row)
  /-- They are in a dataset, whose fields are separated by this octet if one is named. -/
  | dataset (path : Path) (delimiter : Option UInt8)

/-- What is said before a dataset is parsed. -/
def parsingNotice (path : Path) (delimiter : Option UInt8) (text : List Char) : String :=
  "Parsing " ++ path.display ++ " with delimiter " ++
    Quoted.char
      (.ofNat (Dataset.delimiterFor path delimiter (Dataset.withoutMark text)).toNat)

/-- The rows of the dataset at a path. -/
def readDataset (path : Path) (delimiter : Option UInt8) : Task (Except Failure (List Row)) := do
  match ← Task.read path with
  | .error fault => return .error (.io path fault)
  | .ok content =>
    match Utf8.decode content with
    | .error error => return .error (.dataset 0 (.notText error))
    | .ok text =>
      Task.note .debug (parsingNotice path delimiter text) none
      return Dataset.parse path delimiter text

/-- The rows from a source. -/
def Source.rows : Source → Task (Except Failure (List Row))
  | .given rows => pure (.ok rows)
  | .dataset path delimiter => readDataset path delimiter

/-- Get the rows of a job, and make the request of them. -/
def jobRequest (settings : Settings) (source : Source) : Task (Except Failure Request) := do
  Task.note .info ("Reading rows from " ++ settings.dataset.display) none
  match ← source.rows with
  | .error failure => return .error failure
  | .ok rows =>
    Task.note .info ("Read " ++ toString rows.length ++ " row(s)") none
    return .ok (settings.request rows)

/-- Run a job. -/
def runJob (schedule : Schedule) (settings : Settings) (source : Source) :
    Task (Except Failure Report) :=
  (jobRequest settings source).andThen (process schedule)

/-- The destinations of the rows of a job.  Nothing is written. -/
def planJob (settings : Settings) (source : Source) :
    Task (Except Failure (List (Except Failure Path))) :=
  (jobRequest settings source).andThen planOnly

end MailMerge.Run
