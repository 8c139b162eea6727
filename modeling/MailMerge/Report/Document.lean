import MailMerge.Json
import MailMerge.Report
import MailMerge.Task

/-!
# Reports as documents

A report is written to a file as a JSON document: the counts, whether the run was cancelled, and then
each row with its path or with its failure.  A path that is not text cannot be written down; a report
with such a path has no document, and then no file is touched.
-/

namespace MailMerge

set_option autoImplicit false

/-- What is said when a path in a report is not text. -/
def pathNotText : Failure := .serialization "path contains invalid UTF-8 characters"

/-- The document for one row. -/
def RowSummary.document : RowSummary → Except Failure Json
  | .generated row path =>
    match path.text? with
    | some text => .ok (.object [("row", .number row), ("path", .string text)])
    | none => .error pathNotText
  | .failed row category message =>
    .ok (.object
      [("row", .number row), ("category", .string category.label), ("error", .string message)])

/-- The documents for some rows. -/
def rowDocuments : List RowSummary → Except Failure (List Json)
  | [] => .ok []
  | row :: rest =>
    match row.document, rowDocuments rest with
    | .error failure, _ => .error failure
    | .ok _, .error failure => .error failure
    | .ok document, .ok documents => .ok (document :: documents)

/-- The document for a summary. -/
def Summary.document (summary : Summary) : Except Failure Json :=
  match rowDocuments summary.rows with
  | .error failure => .error failure
  | .ok rows =>
    .ok (.object
      [("generated", .number summary.generated), ("failed", .number summary.failed),
        ("cancelled", .bool summary.cancelled), ("rows", .array rows)])

/-- Write octets to a file, in place of what it may have held. -/
def Task.writeFile (path : Path) (octets : Bytes) : Task (Except Fault Unit) :=
  (Task.create path).andThen fun () => Task.append path octets

/-- Write a report to a file. -/
def Report.write (report : Report) (path : Path) : Task (Except Failure Unit) := do
  match report.summary.document with
  | .error failure => return .error failure
  | .ok document =>
    match ← Task.writeFile path (utf8 document.pretty) with
    | .error fault => return .error (.io path fault)
    | .ok () => return .ok ()

end MailMerge
