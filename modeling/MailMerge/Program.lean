import MailMerge.Flags
import MailMerge.Report.Document
import MailMerge.Run.Job
import MailMerge.Settings.File

/-!
# The program

What the program does from its flags to its exit code, as one task.  The settings are gathered and
checked, the job is run or only planned, and what came of it is written out: the generated paths to
the output, the failed rows with advice to the error output.

In which order the rows in the making take their operations is left open here as it is in a run.

The exit code is zero exactly when nothing went wrong.  Otherwise it is the code of the severity of
the failure that ended the run or, if the run went through, of the worst failure among the rows; a
run that was cancelled has a code of its own.
-/

namespace MailMerge

set_option autoImplicit false

/-! ## Settings and display -/

/-- The settings that the flags and the settings file they may name come to. -/
def Flags.settings (flags : Flags) : Task (Except Failure Settings) := do
  match flags.config with
  | none => return .ok (flags.override {})
  | some path =>
    match ← Sections.load path with
    | .error failure => return .error failure
    | .ok sections => return .ok (flags.override sections.settings)

/-- How notices are written. -/
def Flags.style (flags : Flags) : Journal.Style := if flags.logJson then .json else .text

namespace Program

/-- The environment variable that may hold a filter for notices. -/
def filterVariable : String := "RUST_LOG"

/-- Begin to display notices. -/
def beginDisplay (style : Journal.Style) (level : Option String) : Task Unit := do
  let outside ← Task.textVariable filterVariable
  let (display, ignored) := Journal.choose outside style level
  Task.printError (String.join (ignored.map Journal.ignoredLine))
  Task.perform (.display display)

/-- What is said at the start. -/
def startNotice (settings : Settings) : String :=
  match settings.name with
  | some name => "Starting rowmerge job '" ++ name ++ "'"
  | none => "Starting rowmerge"

/-- Say which settings there are. -/
def noteSettings (settings : Settings) : Task Unit := do
  Task.note .info (startNotice settings) none
  Task.note .debug ("Job config: " ++ settings.describe) none

/-- Check the settings, and say what is wrong with them. -/
def checkSettings (settings : Settings) : Task (Except Failure Unit) := do
  match settings.check with
  | .ok () => return .ok ()
  | .error failure =>
    Task.note .error ("Configuration validation failed: " ++ failure.message) none
    Task.note .error ("Suggestion: " ++ failure.suggestion) none
    return .error failure

/-- Where the settings say that the rows are. -/
def sourceOf (settings : Settings) : Except Failure Run.Source :=
  match settings.delimiterOctet with
  | .error failure => .error failure
  | .ok delimiter => .ok (.dataset settings.dataset delimiter)

/-! ## Planning only -/

/-- The line for a row that is only planned. -/
def planLine (index : Nat) (destination : Except Failure Path) : String :=
  match destination with
  | .ok path => "row " ++ toString index ++ ": " ++ path.display ++ "\n"
  | .error failure => "row " ++ toString index ++ ": error: " ++ failure.message ++ "\n"

/-- The lines for rows that are only planned, the first of which has the given index. -/
def planLines (index : Nat) : List (Except Failure Path) → String
  | [] => ""
  | destination :: rest => planLine index destination ++ planLines (index + 1) rest

/-- Say where each row would go.  The exit code is zero. -/
def runDry (settings : Settings) (source : Run.Source) : Task (Except Failure Nat) := do
  Task.note .info "Dry run, no files will be written" none
  match ← Run.planJob settings source with
  | .error failure => return .error failure
  | .ok destinations =>
    Task.print (planLines 0 destinations)
    return .ok 0

/-! ## Generating -/

/-- The list of generated files. -/
def generatedLines (report : Report) : String :=
  "Generated " ++ toString report.generatedCount ++ " file(s):\n" ++
    String.join (report.paths.map fun path => "  " ++ path.display ++ "\n")

/-- What is said about a row. -/
def outcomeLines (outcome : Outcome) : String :=
  match outcome.failure? with
  | none => ""
  | some failure =>
    "row " ++ toString outcome.index ++ ": " ++ failure.friendlyMessage ++ "\n" ++
      "  suggestion: " ++ failure.suggestion ++ "\n"

/-- What is said about failed rows and a cancelled run. -/
def complaintLines (report : Report) : String :=
  String.join (report.outcomes.map outcomeLines) ++
    if report.cancelled then Failure.cancelled.friendlyMessage ++ "\n" else ""

/-- The worse one of two severities. -/
def worse (left right : Failure.Severity) : Failure.Severity :=
  if left.rank ≤ right.rank then right else left

/-- The worst severity among some failures, if there are any. -/
def worst? : List Failure → Option Failure.Severity
  | [] => none
  | failure :: rest =>
    match worst? rest with
    | none => some failure.severity
    | some severity => some (worse failure.severity severity)

/-- The exit code after a cancelled run. -/
def cancelledCode : Nat := 130

/-- The exit code after a run with this report. -/
def reportCode (report : Report) : Nat :=
  if report.cancelled then cancelledCode
  else
    match worst? report.failures with
    | none => 0
    | some severity => severity.exitCode

/-- Write the report to a file, if one is named. -/
def writeReport (report : Report) : Option Path → Task (Except Failure Unit)
  | none => pure (.ok ())
  | some path => do
    match ← report.write path with
    | .error failure => return .error failure
    | .ok () =>
      Task.note .info ("Report written to " ++ path.display) none
      return .ok ()

/-- Generate the files, write the report, and say what came of it. -/
def runFully (schedule : Run.Schedule) (settings : Settings) (source : Run.Source)
    (reportPath : Option Path) : Task (Except Failure Nat) := do
  match ← Run.runJob schedule settings source with
  | .error failure => return .error failure
  | .ok report =>
    match ← writeReport report reportPath with
    | .error failure => return .error failure
    | .ok () =>
      Task.print (generatedLines report)
      Task.printError (complaintLines report)
      return .ok (reportCode report)

/-! ## The whole -/

/-- What is done with the settings once they are gathered. -/
def runWith (flags : Flags) (schedule : Run.Schedule) (settings : Settings) :
    Task (Except Failure Nat) := do
  beginDisplay flags.style settings.logLevel
  noteSettings settings
  match ← checkSettings settings with
  | .error failure => return .error failure
  | .ok () =>
    match sourceOf settings with
    | .error failure => return .error failure
    | .ok source =>
      if flags.dryRun then runDry settings source
      else runFully schedule settings source flags.reportJson

/-- The exit code, or the failure that ends the program. -/
def attempt (flags : Flags) (schedule : Run.Schedule) : Task (Except Failure Nat) :=
  flags.settings.andThen (runWith flags schedule)

/-- What is said about the failure that ends the program. -/
def failureLines (failure : Failure) : String :=
  "Error: " ++ failure.message ++ "\n" ++
    String.join (failure.causes.map fun cause => "  caused by: " ++ cause ++ "\n") ++
    "Suggestion: " ++ failure.suggestion ++ "\n"

/-- Say why the program ends. -/
def complain (failure : Failure) : Task Unit := do
  Task.note .error ("rowmerge failed: " ++ ": ".intercalate (failure.message :: failure.causes)) none
  Task.printError (failureLines failure)

/-- The program from its flags to its exit code.  The rows in the making take turns unless a schedule
says otherwise. -/
def run (flags : Flags) (schedule : Run.Schedule := []) : Task Nat := do
  match ← attempt flags schedule with
  | .ok code => return code
  | .error failure =>
    complain failure
    return failure.severity.exitCode

end Program

end MailMerge
