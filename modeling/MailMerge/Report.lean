import MailMerge.Failure

/-!
# Reports

What became of the rows of a request.  The outcomes are those of the first rows, in order: a run that
stops early has nothing to say about the rows after that point.

Several views are taken of a report: the generated paths, the counts, whether all went well, the
all-or-nothing result, and the summary that is written out.
-/

namespace MailMerge

set_option autoImplicit false

/-- What became of one row. -/
structure Outcome where
  /-- The index of the row. -/
  index : Nat
  /-- The path of its file, or why there is none. -/
  result : Except Failure Path

namespace Outcome

instance : DecidableEq Outcome
  | ⟨left, .ok path⟩, ⟨right, .ok other⟩ =>
    decidable_of_iff (left = right ∧ path = other) (by simp)
  | ⟨left, .error failure⟩, ⟨right, .error other⟩ =>
    decidable_of_iff (left = right ∧ failure = other) (by simp)
  | ⟨_, .ok _⟩, ⟨_, .error _⟩ | ⟨_, .error _⟩, ⟨_, .ok _⟩ => .isFalse (by simp)

/-- The path of the generated file. -/
def path? (outcome : Outcome) : Option Path :=
  match outcome.result with
  | .ok path => some path
  | .error _ => none

/-- Why there is no file. -/
def failure? (outcome : Outcome) : Option Failure :=
  match outcome.result with
  | .ok _ => none
  | .error failure => some failure

end Outcome

/-- What became of the rows of a request. -/
structure Report where
  /-- The outcomes of the first rows. -/
  outcomes : List Outcome
  /-- Whether the run was cancelled before it was through. -/
  cancelled : Bool
  deriving DecidableEq

/-- A row in a summary: where its file is, or what the failure was. -/
inductive RowSummary where
  /-- The row's file. -/
  | generated (row : Nat) (path : Path)
  /-- The category of the failure and its message. -/
  | failed (row : Nat) (category : Failure.Category) (message : String)
  deriving DecidableEq, Repr

/-- A report as it is written out. -/
structure Summary where
  /-- The number of generated files. -/
  generated : Nat
  /-- The number of failed rows. -/
  failed : Nat
  /-- Whether the run was cancelled. -/
  cancelled : Bool
  /-- The rows. -/
  rows : List RowSummary
  deriving DecidableEq, Repr

namespace Report

/-- The paths of the generated files in row order. -/
def paths (report : Report) : List Path := report.outcomes.filterMap Outcome.path?

/-- The failures in row order. -/
def failures (report : Report) : List Failure := report.outcomes.filterMap Outcome.failure?

/-- The number of generated files. -/
def generatedCount (report : Report) : Nat :=
  report.outcomes.countP fun outcome => outcome.path?.isSome

/-- The number of failed rows. -/
def failedCount (report : Report) : Nat :=
  report.outcomes.countP fun outcome => outcome.failure?.isSome

/-- Whether the run was neither cancelled nor had a failing row. -/
def isSuccess (report : Report) : Bool := !report.cancelled && report.failedCount == 0

/-- The paths of some outcomes, or the first failure among them. -/
def allPaths : List Outcome → Except Failure (List Path)
  | [] => .ok []
  | outcome :: rest =>
    match outcome.result with
    | .error failure => .error failure
    | .ok path =>
      match allPaths rest with
      | .ok paths => .ok (path :: paths)
      | .error failure => .error failure

/-- All or nothing: the paths when every row was generated, and otherwise the first failure.  A
cancelled run without a failing row fails as cancelled. -/
def result (report : Report) : Except Failure (List Path) :=
  match allPaths report.outcomes with
  | .error failure => .error failure
  | .ok paths => if report.cancelled then .error .cancelled else .ok paths

/-- The summary of one outcome. -/
def rowSummary (outcome : Outcome) : RowSummary :=
  match outcome.result with
  | .ok path => .generated outcome.index path
  | .error failure => .failed outcome.index failure.category failure.message

/-- The report as it is written out. -/
def summary (report : Report) : Summary where
  generated := report.generatedCount
  failed := report.failedCount
  cancelled := report.cancelled
  rows := report.outcomes.map rowSummary

end Report

end MailMerge
