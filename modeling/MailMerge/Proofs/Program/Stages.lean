import MailMerge.Program
import MailMerge.Proofs.Run.Refusals
import MailMerge.Proofs.Settings.Expansion
import MailMerge.Proofs.Tree.Files

/-!
# The stages of the program

What a task does depends on what it can see of a world (`World.sight`), and nothing that is said
belongs to that: notices, their display and the two outputs are never looked at.  So each stage of the
program can be told from the world that the program starts in, whatever has been said before it
(`Task.run_of_sight`).

Up to the generation of the rows every stage only looks.  It passes something on to the next stage or
ends the program, with a failure of a category that tells the stage; in particular the program never
ends with the failure of a row or because of a cancelled run.

The last stage writes the report.  Whether that has succeeded can be told from the files: it has if
and only if the document can be read where the report was asked for (`Program.run_writeReport`).
-/

namespace MailMerge

set_option autoImplicit false

/-! ## What a task can see -/

/-- What a task can see of a world. -/
def World.sight (world : World) : FileTree × Bool × Option Nat × List (Bytes × Bytes) :=
  (world.tree, world.cancelled, world.patience, world.«variables»)

theorem World.tree_of_sight {left right : World} (same : left.sight = right.sight) :
    left.tree = right.tree := congrArg (·.1) same

/-- An operation depends on no more than that. -/
theorem World.perform_of_sight {left right : World} (same : left.sight = right.sight)
    (operation : Operation) :
    (left.perform operation).1 = (right.perform operation).1 ∧
      (left.perform operation).2.sight = (right.perform operation).2.sight := by
  obtain ⟨tree, cancelled, patience, «variables», _, _, _, _⟩ := left
  obtain ⟨tree', cancelled', patience', variables', _, _, _, _⟩ := right
  obtain ⟨rfl, rfl, rfl, rfl⟩ : tree = tree' ∧ cancelled = cancelled' ∧ patience = patience' ∧
      «variables» = variables' := by simpa [sight] using same
  have update (change : Except Fault FileTree) (left right : World)
      (same : left.sight = right.sight) :
      (left.update change).1 = (right.update change).1 ∧
        (left.update change).2.sight = (right.update change).2.sight := by
    cases change with
    | error fault => exact ⟨rfl, same⟩
    | ok tree => exact ⟨rfl, congrArg (tree, ·.2) same⟩
  cases operation with
  | createDirectory path => exact update _ _ _ same
  | create path => exact update _ _ _ same
  | append path octets => exact update _ _ _ same
  | remove path => exact update _ _ _ same
  | rename source destination =>
    simp only [perform]
    cases tree.rename source destination with
    | error fault => exact ⟨rfl, rfl⟩
    | ok tree =>
      refine ⟨rfl, ?_⟩
      cases patience with
      | none => rfl
      | some count =>
        simp only [countMoved]
        split <;> rfl
  | _ => exact ⟨rfl, rfl⟩

/-- What a task comes to, and what can be seen afterwards, depends on what can be seen. -/
theorem Task.run_of_sight {α : Type} (task : Task α) {left right : World}
    (same : left.sight = right.sight) : (task.run left).1 = (task.run right).1 ∧
      (task.run left).2.sight = (task.run right).2.sight := by
  induction task generalizing left right with
  | done value => exact ⟨rfl, same⟩
  | ask operation next ih =>
    obtain ⟨reply, after⟩ := World.perform_of_sight same operation
    rw [Task.run, Task.run, reply]
    exact ih _ after

/-! ## Whom a failure blames -/

/-- If there is no value but a failure, it is of the category. -/
inductive Blames {α : Type} (category : Failure.Category) : Except Failure α → Prop where
  | ok (value : α) : Blames category (.ok value)
  | error {failure : Failure} : failure.category = category → Blames category (.error failure)

namespace Blames

variable {α β : Type} {category : Failure.Category}

theorem category_eq {failure : Failure} {result : Except Failure α} (blames : Blames category result)
    (failed : result = .error failure) : failure.category = category := by
  cases blames with
  | ok value => exact nomatch failed
  | error same => exact Except.error.inj failed ▸ same

theorem bind {result : Except Failure α} {rest : α → Except Failure β}
    (first : Blames category result) (second : ∀ value, Blames category (rest value)) :
    Blames category (result >>= rest) := by
  cases first with
  | ok value => exact second value
  | error same => exact .error same

end Blames

/-! ## Settings -/

/-- A settings file that cannot be used is a matter of the file system or of the settings. -/
theorem Sections.run_load (path : Path) (world : World) :
    ((Sections.load path).run world).2 = world ∧
      ∀ failure, ((Sections.load path).run world).1 = .error failure →
        failure.category = .io ∨ failure.category = .config := by
  have asked : (Task.read path).run world = (world.tree.read path, world) := rfl
  rw [Sections.load, Task.run_bind, asked]
  cases world.tree.read path with
  | error fault => exact ⟨rfl, fun _ failed => .inl (Except.error.inj failed ▸ rfl)⟩
  | ok content =>
    simp only
    cases Utf8.decode content with
    | error e => exact ⟨rfl, fun _ failed => .inl (Except.error.inj failed ▸ rfl)⟩
    | ok text =>
      simp only [Sections.expandText, Task.run_bind, Task.run_pure, run_expandVariables, true_and]
      intro failure failed
      right
      unfold Sections.ofText at failed
      split at failed
      case h_1 => exact Except.error.inj failed ▸ rfl
      case h_2 =>
        split at failed
        case h_1 => exact Except.error.inj failed ▸ rfl
        case h_2 => simp at failed

theorem Flags.run_settings (flags : Flags) (world : World) :
    (flags.settings.run world).2 = world ∧
      ∀ failure, (flags.settings.run world).1 = .error failure →
        failure.category = .io ∨ failure.category = .config := by
  unfold Flags.settings
  cases flags.config with
  | none => exact ⟨rfl, nofun⟩
  | some path =>
    obtain ⟨same, fails⟩ := Sections.run_load path world
    simp only [Task.run_bind, same]
    cases loaded : ((Sections.load path).run world).1 with
    | error failure =>
      exact ⟨rfl, fun other failed => Except.error.inj failed ▸ fails failure loaded⟩
    | ok sections => exact ⟨rfl, nofun⟩

namespace Settings

theorem blames_checkPath (field text : String) : Blames .config (checkPath field text) := by
  unfold checkPath
  split
  · exact .error rfl
  · split
    · exact .error rfl
    · exact .ok ()

theorem blames_checkRange (field : String) (value low high : Int) :
    Blames .config (checkRange field value low high) := by
  unfold checkRange
  split
  · exact .error rfl
  · exact .ok ()

theorem blames_delimiterOctet (settings : Settings) : Blames .config settings.delimiterOctet := by
  have checked (text : String) : Blames .config (checkDelimiter "delimiter" text) := by
    unfold checkDelimiter
    split
    · split
      · exact .ok _
      · exact .error rfl
    · exact .error rfl
  unfold delimiterOctet
  cases settings.delimiter with
  | none => exact .ok none
  | some text =>
    have octet := checked text
    simp only
    generalize checkDelimiter "delimiter" text = result at octet
    cases octet with
    | ok octet => exact .ok _
    | error same => exact .error same

/-- What is wrong with settings is a matter of the settings. -/
theorem blames_check (settings : Settings) : Blames .config settings.check := by
  have outside : Blames .config settings.checkOutputDir := by
    unfold checkOutputDir
    cases settings.outputDir with
    | none => exact .ok ()
    | some path => exact blames_checkPath ..
  refine .bind (blames_checkPath ..) fun _ => .bind (blames_checkPath ..) fun _ => ?_
  refine .bind outside fun _ => .bind (blames_checkRange ..) fun _ => ?_
  exact .bind (blames_delimiterOctet settings) fun _ => .ok ()

/-- Settings that have been checked say how the fields of the dataset are separated. -/
theorem exists_delimiterOctet (settings : Settings) (checked : settings.check = .ok ()) :
    ∃ delimiter, settings.delimiterOctet = .ok delimiter := by
  cases given : settings.delimiterOctet with
  | ok delimiter => exact ⟨delimiter, rfl⟩
  | error failure =>
    have last {α β : Type} (result : Except Failure α) (rest : α → Except Failure β)
        (fails : ∀ value, ∃ failure, rest value = .error failure) :
        ∃ failure, (result >>= rest) = .error failure := by
      cases result with
      | ok value => exact fails value
      | error failure => exact ⟨failure, rfl⟩
    have failed : ∃ failure, settings.check = .error failure := by
      unfold check
      refine last _ _ fun _ => last _ _ fun _ => last _ _ fun _ => last _ _ fun _ => ?_
      rw [given]
      exact ⟨failure, rfl⟩
    obtain ⟨other, failed⟩ := failed
    rw [checked] at failed
    exact nomatch failed

end Settings

/-! ## Datasets -/

/-- The rows of the dataset at a path, or why there are none. -/
def FileTree.rows (tree : FileTree) (path : Path) (delimiter : Option UInt8) :
    Except Failure (List Row) :=
  match tree.read path with
  | .error fault => .error (.io path fault)
  | .ok content =>
    match Utf8.decode content with
    | .error error => .error (.dataset 0 (.notText error))
    | .ok text => Dataset.parse path delimiter text

theorem Run.run_readDataset (path : Path) (delimiter : Option UInt8) (world : World) :
    ((readDataset path delimiter).run world).1 = world.tree.rows path delimiter ∧
      ((readDataset path delimiter).run world).2.sight = world.sight := by
  have asked : (Task.read path).run world = (world.tree.read path, world) := rfl
  rw [readDataset, Task.run_bind, asked, FileTree.rows]
  cases world.tree.read path with
  | error fault => exact ⟨rfl, rfl⟩
  | ok content =>
    simp only
    cases Utf8.decode content <;> exact ⟨rfl, rfl⟩

/-- The rows make the request. -/
theorem Run.run_jobRequest (settings : Settings) (delimiter : Option UInt8) (world : World) :
    ((jobRequest settings (.dataset settings.dataset delimiter)).run world).1 =
        (world.tree.rows settings.dataset delimiter).map settings.request ∧
      ((jobRequest settings (.dataset settings.dataset delimiter)).run world).2.sight =
        world.sight := by
  have noted : ((Task.note .info ("Reading rows from " ++ settings.dataset.display) none).run
      world).2.sight = world.sight := rfl
  obtain ⟨value, same⟩ := run_readDataset settings.dataset delimiter
    ((Task.note .info ("Reading rows from " ++ settings.dataset.display) none).run world).2
  rw [World.tree_of_sight noted] at value
  simp only [jobRequest, Source.rows, Task.run_bind, value]
  cases world.tree.rows settings.dataset delimiter with
  | error failure => exact ⟨rfl, same⟩
  | ok rows => exact ⟨rfl, same⟩

namespace Dataset

theorem blames_decodeFieldsFrom (number : Nat) (mark : Mark) (index : Nat) (fields : List Bytes) :
    Blames .dataset (decodeFieldsFrom number mark index fields) := by
  induction fields generalizing index with
  | nil => exact .ok []
  | cons field rest ih =>
    have below := ih (index + 1)
    rw [decodeFieldsFrom]
    cases Utf8.decode field with
    | error e => exact .error rfl
    | ok text =>
      generalize decodeFieldsFrom number mark (index + 1) rest = reading at below
      cases below with
      | ok texts => exact .ok _
      | error same => exact .error same

theorem blames_readHeader (record : Option Record) : Blames .dataset (readHeader record) := by
  simp only [readHeader, decodeFields]
  split
  case h_1 failure failed =>
    cases record with
    | none => cases failed
    | some first => exact .error ((blames_decodeFieldsFrom ..).category_eq failed)
  case h_2 names _ =>
    cases headerProblem? (names.map trimmed) with
    | some problem => exact .error rfl
    | none => exact .ok _

theorem blames_rowsFrom (header : List String) (number : Nat) (records : List Record) :
    Blames .dataset (rowsFrom header number records) := by
  induction records generalizing number with
  | nil => exact .ok []
  | cons record rest ih =>
    have first := blames_decodeFieldsFrom number record.mark 0 record.fields
    rw [rowsFrom, decodeFields]
    generalize decodeFieldsFrom number record.mark 0 record.fields = reading at first
    cases first with
    | error same => exact .error same
    | ok values =>
      simp only
      split
      case isTrue =>
        have below := ih (number + 1)
        generalize rowsFrom header (number + 1) rest = reading at below
        cases below with
        | error same => exact .error same
        | ok rows => exact .ok _
      case isFalse => exact .error rfl

/-- A text that is no table is a matter of the dataset. -/
theorem blames_parse (path : Path) (delimiter : Option UInt8) (text : List Char) :
    Blames .dataset (parse path delimiter text) := by
  unfold parse rows
  have first := blames_readHeader
    (records (delimiterFor path delimiter (withoutMark text)) (Utf8.encode (withoutMark text))).head?
  generalize readHeader _ = reading at first
  cases first with
  | error same => exact .error same
  | ok header => exact blames_rowsFrom ..

end Dataset

/-- A dataset that has no rows to give is a matter of the file system or of the dataset. -/
theorem FileTree.category_of_rows {tree : FileTree} {path : Path} {delimiter : Option UInt8}
    {failure : Failure} (failed : tree.rows path delimiter = .error failure) :
    failure.category = .io ∨ failure.category = .dataset := by
  unfold rows at failed
  split at failed
  case h_1 => exact .inl (Except.error.inj failed ▸ rfl)
  case h_2 =>
    split at failed
    case h_1 => exact .inr (Except.error.inj failed ▸ rfl)
    case h_2 => exact .inr ((Dataset.blames_parse path delimiter _).category_eq failed)

/-! ## Templates and reports -/

/-- A template that cannot be used is missing, or a matter of the file system. -/
theorem Request.category_of_refusal? {request : Request} {tree : FileTree} {failure : Failure}
    (refused : request.refusal? tree = some failure) :
    failure.category = .template ∨ failure.category = .io := by
  unfold refusal? unreadable? at refused
  grind [Failure.category]

theorem blames_rowDocument (summary : RowSummary) : Blames .io summary.document := by
  cases summary with
  | generated row path =>
    rw [RowSummary.document]
    cases path.text? with
    | some text => exact .ok _
    | none => exact .error rfl
  | failed row category message => exact .ok _

theorem blames_rowDocuments (summaries : List RowSummary) : Blames .io (rowDocuments summaries) := by
  induction summaries with
  | nil => exact .ok []
  | cons summary rest ih =>
    have first := blames_rowDocument summary
    rw [rowDocuments]
    generalize summary.document = document at first
    cases first with
    | error same => exact .error same
    | ok document =>
      generalize rowDocuments rest = documents at ih
      cases ih with
      | error same => exact .error same
      | ok documents => exact .ok _

/-- A report that cannot be written is a matter of the file system or of its own text. -/
theorem Report.blames_write (report : Report) (path : Path) (world : World) :
    Blames .io ((report.write path).run world).1 := by
  have first := blames_rowDocuments report.summary.rows
  rw [Report.write, Summary.document]
  generalize rowDocuments report.summary.rows = documents at first
  cases first with
  | error same => exact .error same
  | ok rows =>
    simp only [Task.run_bind]
    cases ((Task.writeFile path _).run world).1 with
    | error fault => exact .error rfl
    | ok _ => exact .ok ()

/-- The report can be read where it was asked for, if it was asked for at all. -/
def Report.Delivered (report : Report) (asked : Option Path) (tree : FileTree) : Prop :=
  ∀ path, asked = some path → ∃ document, report.summary.document = .ok document ∧
    tree.read path = .ok (utf8 document.pretty)

/-- A report has been written if and only if its document can be read afterwards, and if it has not
the world is as it was. -/
theorem Report.run_write (report : Report) (path : Path) (world : World) :
    (((report.write path).run world).1 = .ok () ↔
      ∃ document, report.summary.document = .ok document ∧
        ((report.write path).run world).2.tree.read path = .ok (utf8 document.pretty)) ∧
    ∀ failure, ((report.write path).run world).1 = .error failure →
      ((report.write path).run world).2 = world := by
  unfold Report.write
  cases report.summary.document with
  | error failure =>
    refine ⟨iff_of_false nofun ?_, fun _ _ => rfl⟩
    rintro ⟨_, ⟨⟩, _⟩
  | ok document =>
    obtain ⟨reads, unchanged⟩ := Task.run_writeFile_iff path (utf8 document.pretty) world
    simp only [Task.run_bind, Except.ok.injEq, exists_eq_left']
    cases wrote : ((Task.writeFile path (utf8 document.pretty)).run world).1 with
    | ok _ => exact ⟨iff_of_true rfl (reads.1 wrote), nofun⟩
    | error fault =>
      refine ⟨iff_of_false nofun ?_, fun _ _ => unchanged fault wrote⟩
      intro there
      simp [reads.2 there] at wrote

theorem Program.run_writeReport (report : Report) (asked : Option Path) (world : World) :
    (((writeReport report asked).run world).1 = .ok () ↔
      report.Delivered asked ((writeReport report asked).run world).2.tree) ∧
    ∀ failure, ((writeReport report asked).run world).1 = .error failure →
      ((writeReport report asked).run world).2.tree = world.tree := by
  cases asked with
  | none => exact ⟨iff_of_true rfl nofun, nofun⟩
  | some path =>
    obtain ⟨reads, unchanged⟩ := report.run_write path world
    have only (tree : FileTree) : report.Delivered (some path) tree ↔
        ∃ document, report.summary.document = .ok document ∧
          tree.read path = .ok (utf8 document.pretty) := by simp [Report.Delivered]
    rw [writeReport, Task.run_bind, only]
    cases wrote : ((report.write path).run world).1 with
    | ok _ => exact ⟨iff_of_true rfl (reads.1 wrote), nofun⟩
    | error failure =>
      refine ⟨iff_of_false nofun ?_, fun _ _ => congrArg World.tree (unchanged failure wrote)⟩
      intro there
      simp [reads.2 there] at wrote

theorem Program.blames_writeReport (report : Report) (path : Option Path) (world : World) :
    Blames .io ((writeReport report path).run world).1 := by
  cases path with
  | none => exact .ok ()
  | some path =>
    have written := report.blames_write path world
    rw [writeReport, Task.run_bind]
    generalize ((report.write path).run world).1 = result at written
    cases written with
    | error same => exact .error same
    | ok _ => exact .ok ()

end MailMerge
