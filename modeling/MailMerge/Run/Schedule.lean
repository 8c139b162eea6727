import MailMerge.Report
import MailMerge.Request
import MailMerge.Run.Staging

/-!
# Rows in the making

Several rows of a request may be staged at the same time, but they are settled one after another in
row order: the first row that is not settled yet is moved into place, or its failure is recorded, and
only then does another row start.  A row that fails under the policy to abort halts the run, and so
does a row that finds the run cancelled; what is staged after that is thrown away.

In which order the rows in the making take their operations is left to a schedule, a list of moves.
Every list is a schedule, since a move that is not possible does nothing.  After the last move the
rows in the making take turns, one operation each, and the remaining rows are settled in order
(`settleAll`).  That is the whole run of the empty schedule, which the program uses; when only one row
is in the making, it is the run of one row after another.
-/

namespace MailMerge.Run

set_option autoImplicit false

/-- A row that is not settled yet. -/
structure Pending where
  /-- The index of the row. -/
  index : Nat
  /-- What is left to do until its file is complete. -/
  work : Task (Except Failure Staged)

/-- How far a run has come. -/
structure Progress where
  /-- The rows that are not settled, in order. -/
  pending : List Pending
  /-- What became of the others. -/
  outcomes : List Outcome
  /-- Whether the rows that are left are given up. -/
  halted : Bool
  /-- Whether they are given up because the run was cancelled. -/
  interrupted : Bool

/-- A move of a run. -/
inductive Move where
  /-- The row at this position among those in the making performs its next operation. -/
  | advance (position : Nat)
  /-- The first row is settled, after performing whatever operations it has left by itself. -/
  | settle
  /-- The run is cancelled. -/
  | interrupt
  deriving DecidableEq, Repr

/-- The moves of a run up to a point from which on the rows are settled in order. -/
abbrev Schedule := List Move

/-- The rows of some destinations, the first of which is for the row at the given index. -/
def pendingFrom (template : Path) (index : Nat) :
    List Row → List (Except Failure Path) → List Pending
  | row :: rows, destination :: destinations =>
    ⟨index, stagePlanned template row destination index⟩ ::
      pendingFrom template (index + 1) rows destinations
  | _, _ => []

/-- A run in which nothing has been done. -/
def Progress.start (request : Request) : Progress where
  pending := pendingFrom request.template 0 request.rows request.attended
  outcomes := []
  halted := false
  interrupted := false

/-- Record that a row was generated. -/
def Progress.recordGenerated (progress : Progress) (index : Nat) (path : Path) : Task Progress := do
  Task.note .debug ("Generated " ++ path.display) (some index)
  return { progress with outcomes := progress.outcomes ++ [⟨index, .ok path⟩] }

/-- Record that a row failed. -/
def Progress.recordFailed (policy : ErrorPolicy) (progress : Progress) (index : Nat)
    (failure : Failure) : Task Progress := do
  Task.note .warn ("Row failed: " ++ failure.message) (some index)
  let progress := { progress with outcomes := progress.outcomes ++ [⟨index, .error failure⟩] }
  match policy with
  | .continue => return progress
  | .abort =>
    Task.note .warn ("Stopping after failed row " ++ toString index) none
    return { progress with halted := true }

/-- Move a staged row into place and record it, or record its failure.  A row that found the run
cancelled is not recorded but halts the run. -/
def Progress.record (policy : ErrorPolicy) (progress : Progress) (index : Nat)
    (result : Except Failure Staged) : Task Progress := do
  match result with
  | .ok staged =>
    match ← staged.commit with
    | .ok path => progress.recordGenerated index path
    | .error failure => progress.recordFailed policy index failure
  | .error .cancelled => return { progress with halted := true, interrupted := true }
  | .error failure => progress.recordFailed policy index failure

/-- Throw away what a row of a halted run has staged. -/
def discardResult (result : Except Failure Staged) : Task Unit :=
  match result with
  | .ok staged => staged.discard
  | .error _ => pure ()

/-- Let each of some rows perform its next operation. -/
def advanceEach (halted : Bool) : List Pending → Task (List Pending)
  | [] => pure []
  | first :: rest => do
    let work ← first.work.advance halted
    let rest ← advanceEach halted rest
    return ⟨first.index, work⟩ :: rest

/-- All operations of a row's work.  After each of them but the last, some other rows perform one, too. -/
def completeBeside (halted : Bool) :
    Task (Except Failure Staged) → List Pending → Task (Except Failure Staged × List Pending)
  | .done result, others => pure (result, others)
  | .ask operation next, others =>
    .ask operation fun reply =>
      if (next (Task.heard halted operation reply)).isDone then
        completeBeside halted (next (Task.heard halted operation reply)) others
      else do
        let others ← advanceEach halted others
        completeBeside halted (next (Task.heard halted operation reply)) others

/-- Settle the first row that is not settled yet, while a number of the rows behind it take turns with
it. -/
def Progress.settle (policy : ErrorPolicy) (others : Nat) (progress : Progress) : Task Progress :=
  match progress.pending with
  | [] => pure progress
  | first :: rest => do
    let (result, making) ← completeBeside progress.halted first.work (rest.take others)
    let progress := { progress with pending := making ++ rest.drop others }
    if progress.halted then
      discardResult result
      return progress
    else progress.record policy first.index result

/-- Let the row at a position perform its next operation. -/
def advanceAt (halted : Bool) : Nat → List Pending → Task (List Pending)
  | _, [] => pure []
  | 0, first :: rest => do
    let work ← first.work.advance halted
    return ⟨first.index, work⟩ :: rest
  | position + 1, first :: rest => do
    let rest ← advanceAt halted position rest
    return first :: rest

/-- Make a move.  Only the first `width` rows are in the making. -/
def Progress.move (policy : ErrorPolicy) (width : Nat) (progress : Progress) : Move → Task Progress
  | .advance position => do
    if position < width then
      let pending ← advanceAt progress.halted position progress.pending
      return { progress with pending }
    else return progress
  | .settle => progress.settle policy 0
  | .interrupt => do
    Task.cancel
    return progress

/-- Make the moves of a schedule. -/
def Progress.follow (policy : ErrorPolicy) (width : Nat) : Schedule → Progress → Task Progress
  | [], progress => pure progress
  | move :: schedule, progress => do
    let progress ← progress.move policy width move
    progress.follow policy width schedule

/-- Settle as many rows as given, while the others in the making take turns with them. -/
def Progress.settleMany (policy : ErrorPolicy) (width : Nat) : Nat → Progress → Task Progress
  | 0, progress => pure progress
  | count + 1, progress => do
    let progress ← progress.settle policy (width - 1)
    progress.settleMany policy width count

/-- Settle all rows that are left. -/
def Progress.settleAll (policy : ErrorPolicy) (width : Nat) (progress : Progress) : Task Progress :=
  progress.settleMany policy width progress.pending.length

/-- The report of a run that is through. -/
def Progress.report (progress : Progress) : Report := ⟨progress.outcomes, progress.interrupted⟩

/-- Generate the rows of a request, with the moves of a schedule first. -/
def generate (schedule : Schedule) (request : Request) : Task Report := do
  let progress ← (Progress.start request).follow request.errorPolicy request.width schedule
  let progress ← progress.settleAll request.errorPolicy request.width
  return progress.report

end MailMerge.Run
