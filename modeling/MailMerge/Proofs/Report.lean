import Mathlib.Data.List.Forall2
import MailMerge.Report.Document

/-!
# The views of a report

Whoever has a report reads it in one of several ways: all or nothing, as a list of paths, by its two
counts, or through the summary that is written out.  Each of these goes over the outcomes by itself, and
one of them stops early.  They never contradict each other, whatever rows have failed and whether or not
the run was cancelled (`Report.views_agree`).

What all or nothing comes to is decided by the first row that failed; only if there is none does it matter
whether the run was cancelled (`Report.result_eq`).  In the summary every row has its index and either a
path or a failure, never both and never neither (`RowSummary.IsOf`), and just that is written of it
(`RowSummary.fields_of_document`).
-/

namespace MailMerge

set_option autoImplicit false

/-! ## Outcomes -/

namespace Outcome

variable {outcome : Outcome} {path : Path} {failure : Failure}

theorem path?_eq_some : outcome.path? = some path ↔ outcome.result = .ok path := by
  unfold path?
  cases outcome.result <;> simp

theorem failure?_eq_some : outcome.failure? = some failure ↔ outcome.result = .error failure := by
  unfold failure?
  cases outcome.result <;> simp

theorem failure?_eq_none : outcome.failure? = none ↔ ∃ path, outcome.result = .ok path := by
  unfold failure?
  cases outcome.result <;> simp

/-- A row is generated or has failed, and never both. -/
theorem isSome_path? (outcome : Outcome) : outcome.path?.isSome = !outcome.failure?.isSome := by
  unfold path? failure?
  cases outcome.result <;> rfl

end Outcome

/-! ## Rows of a summary -/

namespace RowSummary

/-- The index of the row. -/
def index : RowSummary → Nat
  | generated row _ | failed row _ _ => row

/-- The path of the row's file, if it is there. -/
def path? : RowSummary → Option Path
  | generated _ path => some path
  | failed .. => none

/-- The category of the row's failure, if it is there. -/
def category? : RowSummary → Option Failure.Category
  | generated .. => none
  | failed _ category _ => some category

/-- The message of the row's failure, if it is there. -/
def message? : RowSummary → Option String
  | generated .. => none
  | failed _ _ message => some message

/-- What is written of a row are its index and those of the other three that are there. -/
theorem fields_of_document {summary : RowSummary} {written : Json}
    (ok : summary.document = .ok written) : ∃ path : Option String,
      summary.path?.map Path.text? = path.map some ∧
      written = .object (("row", .number summary.index) ::
        ((path.map fun text => ("path", .string text)).toList ++
          (summary.category?.map fun category => ("category", .string category.label)).toList ++
          (summary.message?.map fun message => ("error", .string message)).toList)) := by
  cases summary with
  | generated row path =>
    rw [document] at ok
    cases text : path.text? with
    | none => simp [text] at ok
    | some octets =>
      rw [text] at ok
      exact ⟨some octets, congrArg some text, (Except.ok.inj ok).symm⟩
  | failed row category message => exact ⟨none, rfl, (Except.ok.inj ok).symm⟩

/-- The row of a summary that belongs to an outcome: it has the index of the outcome and either nothing
but its path, or nothing but the category and the message of its failure. -/
inductive IsOf (outcome : Outcome) (summary : RowSummary) : Prop where
  /-- The row was generated. -/
  | generated {path : Path} : outcome.result = .ok path → summary.index = outcome.index →
      summary.path? = some path → summary.category? = none → summary.message? = none →
      IsOf outcome summary
  /-- The row has failed. -/
  | failed {failure : Failure} : outcome.result = .error failure → summary.index = outcome.index →
      summary.path? = none → summary.category? = some failure.category →
      summary.message? = some failure.message → IsOf outcome summary

end RowSummary

namespace Report

theorem isOf_rowSummary (outcome : Outcome) : (rowSummary outcome).IsOf outcome := by
  unfold rowSummary
  cases result : outcome.result with
  | ok path => exact .generated result rfl rfl rfl rfl
  | error failure => exact .failed result rfl rfl rfl rfl

@[simp] theorem path?_rowSummary (outcome : Outcome) :
    (rowSummary outcome).path? = outcome.path? := by
  unfold rowSummary Outcome.path?
  cases outcome.result <;> rfl

@[simp] theorem isSome_message?_rowSummary (outcome : Outcome) :
    (rowSummary outcome).message?.isSome = outcome.failure?.isSome := by
  unfold rowSummary Outcome.failure?
  cases outcome.result <;> rfl

/-! ## Paths, failures and counts -/

variable {report : Report} {path : Path} {paths : List Path} {failure : Failure}

theorem mem_paths :
    path ∈ report.paths ↔ ∃ outcome ∈ report.outcomes, outcome.result = .ok path := by
  simp only [Report.paths, List.mem_filterMap, Outcome.path?_eq_some]

theorem mem_failures :
    failure ∈ report.failures ↔ ∃ outcome ∈ report.outcomes, outcome.result = .error failure := by
  simp only [failures, List.mem_filterMap, Outcome.failure?_eq_some]

theorem failures_eq_nil :
    report.failures = [] ↔ ∀ outcome ∈ report.outcomes, ∃ path, outcome.result = .ok path := by
  simp only [failures, List.filterMap_eq_nil_iff, Outcome.failure?_eq_none]

theorem failedCount_eq_zero :
    report.failedCount = 0 ↔ ∀ outcome ∈ report.outcomes, ∃ path, outcome.result = .ok path := by
  simp [failedCount, List.countP_eq_zero, ← Outcome.failure?_eq_none]

/-- Every row is counted once. -/
theorem generatedCount_add_failedCount (report : Report) :
    report.generatedCount + report.failedCount = report.outcomes.length := by
  have split := List.length_eq_countP_add_countP (fun outcome : Outcome => outcome.failure?.isSome)
    (l := report.outcomes)
  simp only [generatedCount, failedCount, Outcome.isSome_path?]
  simp only [Bool.not_eq_true, Bool.decide_eq_false] at split
  omega

/-- As many rows are generated as there are exactly if each of them is. -/
theorem generatedCount_eq_length : report.generatedCount = report.outcomes.length ↔
    ∀ outcome ∈ report.outcomes, ∃ path, outcome.result = .ok path := by
  rw [← failedCount_eq_zero, ← generatedCount_add_failedCount]
  omega

/-! ## All or nothing -/

/-- The failure is that of the first row that has failed. -/
def FirstFailure (report : Report) (failure : Failure) : Prop :=
  ∃ before outcome after, report.outcomes = before ++ outcome :: after ∧
    outcome.result = .error failure ∧ ∀ earlier ∈ before, ∃ path, earlier.result = .ok path

/-- The paths of some outcomes are there unless one of them is a failure, and then it is the first. -/
theorem allPaths_eq (outcomes : List Outcome) : allPaths outcomes =
    match outcomes.findSome? Outcome.failure? with
    | some failure => .error failure
    | none => .ok (outcomes.filterMap Outcome.path?) := by
  induction outcomes with
  | nil => rfl
  | cons outcome rest ih =>
    rw [allPaths, List.findSome?_cons, List.filterMap_cons, Outcome.failure?, Outcome.path?]
    cases outcome.result with
    | error failure => rfl
    | ok path =>
      simp only [ih]
      cases rest.findSome? Outcome.failure? <;> rfl

/-- Some outcomes have paths only if each of them has one, in order. -/
theorem allPaths_eq_ok {outcomes : List Outcome} (ok : allPaths outcomes = .ok paths) :
    outcomes.map Outcome.result = paths.map .ok := by
  rw [allPaths_eq] at ok
  split at ok
  case h_1 => simp at ok
  case h_2 none =>
    obtain rfl := Except.ok.inj ok
    rw [List.map_filterMap, ← List.filterMap_eq_map]
    refine List.filterMap_congr fun outcome member => ?_
    obtain ⟨path, result⟩ := Outcome.failure?_eq_none.1 (List.findSome?_eq_none_iff.1 none _ member)
    simp [Outcome.path?, result]

/-- A report comes to the first failure of a row, or else to whether the run was cancelled. -/
theorem result_eq (report : Report) : report.result =
    match report.outcomes.findSome? Outcome.failure? with
    | some failure => .error failure
    | none => if report.cancelled then .error .cancelled else .ok report.paths := by
  rw [result, allPaths_eq]
  cases report.outcomes.findSome? Outcome.failure? <;> rfl

/-- Two rows have failed in a run that was cancelled, and the first of them counts. -/
example : (⟨[⟨0, .ok ⟨[]⟩⟩, ⟨1, .error (.missingField [] 1)⟩, ⟨2, .error (.missingField [] 2)⟩],
    true⟩ : Report).result = .error (.missingField [] 1) := rfl

theorem findSome?_eq_some :
    report.outcomes.findSome? Outcome.failure? = some failure ↔ report.FirstFailure failure := by
  simp only [List.findSome?_eq_some_iff, FirstFailure, Outcome.failure?_eq_some,
    Outcome.failure?_eq_none]

theorem findSome?_eq_none :
    report.outcomes.findSome? Outcome.failure? = none ↔ report.failedCount = 0 := by
  simp only [List.findSome?_eq_none_iff, failedCount_eq_zero, Outcome.failure?_eq_none]

/-! ## All views together -/

theorem result_eq_ok :
    report.result = .ok paths ↔ report.isSuccess = true ∧ paths = report.paths := by
  rw [result_eq, isSuccess]
  cases first : report.outcomes.findSome? Outcome.failure? with
  | some failure =>
    have failed : report.failedCount ≠ 0 := by simp [← findSome?_eq_none, first]
    simp [failed]
  | none =>
    have sound := findSome?_eq_none.1 first
    cases report.cancelled <;> simp [sound, eq_comm]

theorem result_eq_error : report.result = .error failure ↔ report.FirstFailure failure ∨
    report.failedCount = 0 ∧ report.cancelled = true ∧ failure = .cancelled := by
  rw [result_eq, ← findSome?_eq_some, ← findSome?_eq_none]
  cases first : report.outcomes.findSome? Outcome.failure? with
  | some other => simp
  | none => cases report.cancelled <;> simp [eq_comm]

/-- All or nothing comes to the paths of the report exactly if the run was a success.  Otherwise it comes
to the failure of the first row that has failed or, if none has, to the run having been cancelled.  Every
row is counted once, as generated or as failed, and the summary has as many rows.  The two numbers of the
summary are those of its rows with a path and of its rows with a message, and its rows belong to the
outcomes one by one. -/
theorem views_agree (report : Report) :
    (∀ paths, report.result = .ok paths ↔ report.isSuccess = true ∧ paths = report.paths) ∧
    (∀ failure, report.result = .error failure ↔ report.FirstFailure failure ∨
      report.failedCount = 0 ∧ report.cancelled = true ∧ failure = .cancelled) ∧
    report.generatedCount + report.failedCount = report.outcomes.length ∧
    report.summary.rows.length = report.outcomes.length ∧
    report.summary.generated = report.summary.rows.countP (·.path?.isSome) ∧
    report.summary.failed = report.summary.rows.countP (·.message?.isSome) ∧
    List.Forall₂ (fun outcome row => row.IsOf outcome) report.outcomes report.summary.rows := by
  refine ⟨fun _ => result_eq_ok, fun _ => result_eq_error, report.generatedCount_add_failedCount,
    List.length_map _, ?_, ?_, ?_⟩
  · simp [summary, generatedCount, List.countP_map, Function.comp_def]
  · simp [summary, failedCount, List.countP_map, Function.comp_def]
  · rw [summary, List.forall₂_map_right_iff, List.forall₂_same]
    exact fun outcome _ => isOf_rowSummary outcome

end Report

end MailMerge
