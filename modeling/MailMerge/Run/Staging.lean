import MailMerge.Destination
import MailMerge.Template.Line
import MailMerge.World

/-!
# Staging

How one row's file comes into being.  It is written line by line under its temporary name
(`stage`), and only when it is complete it is moved to its destination (`Staged.commit`); or it is
thrown away (`Staged.discard`).  Whatever goes wrong, the temporary file is removed again, and when
that goes wrong too there is nothing left but to say so.

Before every line the task asks whether the run has been cancelled, and once more behind the last
line.  The template is read anew for every row, after the temporary file has been created, so a row
sees what the rows before it made of the template.
-/

namespace MailMerge.Run

set_option autoImplicit false

/-- Remove a temporary file.  It may be missing already. -/
def removeTemporary (temporary : Path) : Task Unit := do
  match ← Task.remove temporary with
  | .ok () => pure ()
  | .error fault =>
    if fault.isNotFound then pure ()
    else
      Task.note .warn
        ("Could not remove temporary file " ++ temporary.display ++ ": " ++ fault.message) none

/-- The reply to an operation on a path, with a fault made a failure on that path. -/
def onPath {α : Type} (path : Path) (reply : Except Fault α) : Except Failure α :=
  match reply with
  | .ok value => .ok value
  | .error fault => .error (.io path fault)

/-- Write lines, filled with the values of a row, to the end of the temporary file. -/
def writeLines (template : Path) (row : Row) (temporary : Path) :
    List (Except Utf8.DecodeError Template.Line) → Task (Except Failure Unit)
  | [] => do
    if ← Task.isCancelled then return .error .cancelled
    return .ok ()
  | item :: rest => do
    if ← Task.isCancelled then return .error .cancelled
    match item with
    | .error e => return .error (.io template (.lineNotText e))
    | .ok line =>
      match ← Task.append temporary (line.fill row).bytes with
      | .error fault => return .error (.io temporary fault)
      | .ok () => writeLines template row temporary rest

/-- Create the temporary file of a row and write all lines of the template to it. -/
def writeTemporary (template : Path) (row : Row) (temporary : Path) :
    Task (Except Failure Unit) := do
  match ← Task.kind template with
  | .error fault => return .error (.io template fault)
  | .ok _ =>
    match ← Task.create temporary with
    | .error fault => return .error (.io temporary fault)
    | .ok () =>
      match ← Task.read template with
      | .error fault => return .error (.io template fault)
      | .ok content => writeLines template row temporary (Template.lines content)

/-- A complete file that waits under its temporary name. -/
structure Staged where
  /-- Where the file is. -/
  temporary : Path
  /-- Where it belongs. -/
  destination : Path
  deriving DecidableEq, Repr

/-- Move the file to where it belongs. -/
def Staged.commit (staged : Staged) : Task (Except Failure Path) := do
  match ← Task.rename staged.temporary staged.destination with
  | .ok () => return .ok staged.destination
  | .error fault =>
    removeTemporary staged.temporary
    return .error (.io staged.destination fault)

/-- Throw the file away. -/
def Staged.discard (staged : Staged) : Task Unit := removeTemporary staged.temporary

/-- The directory that has to be there for a destination, if the path names one. -/
def neededDirectory? (destination : Path) : Option Path :=
  match destination.parent? with
  | some parent => if parent.isEmpty then none else some parent
  | none => none

/-- Make sure of the directory of a destination. -/
def ensureDirectory (destination : Path) : Task (Except Failure Unit) := do
  match neededDirectory? destination with
  | none => return .ok ()
  | some parent => return onPath parent (← Task.createDirectories parent)

/-- Write the file of the row at the given index under its temporary name. -/
def stage (template : Path) (row : Row) (destination : Path) (index : Nat) :
    Task (Except Failure Staged) := do
  match ← ensureDirectory destination with
  | .error failure => return .error failure
  | .ok () =>
    let temporary := Destination.temporary destination index
    match ← writeTemporary template row temporary with
    | .ok () => return .ok ⟨temporary, destination⟩
    | .error failure =>
      removeTemporary temporary
      return .error failure

/-- Stage a row as planned.  In a cancelled run not even the plan is looked at. -/
def stagePlanned (template : Path) (row : Row) (destination : Except Failure Path) (index : Nat) :
    Task (Except Failure Staged) := do
  if ← Task.isCancelled then return .error .cancelled
  match destination with
  | .error failure => return .error failure
  | .ok path => stage template row path index

end MailMerge.Run
