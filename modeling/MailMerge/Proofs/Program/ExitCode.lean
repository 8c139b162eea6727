import MailMerge.Proofs.Program.Stages
import MailMerge.Proofs.Run.Reports

/-!
# Exit codes

A program that generates files either fails before it has a report (`Program.Fails`), and then it has
changed nothing, or it has one (`Program.Reports`) and goes on to write it where it was asked to.  Its
exit code tells what has happened (`Program.exitCode_run`): zero that every row has its file and the
report can be read, two that rows have failed for reasons of their own, one that the template, the
dataset or the settings are to blame, and three that the file system is.

The code of a severity does not grow with it, and the least severity has the code zero.  It is that
of a cancelled run, and no failure of the kind comes up in a run that nobody cancels.
-/

namespace MailMerge

set_option autoImplicit false

/-! ## What failures are about -/

namespace Failure

/-- Whether a failure is about a row alone. -/
def concernsRow : Failure → Bool
  | .missingField .. | .invalidName .. | .duplicateDestination .. => true
  | _ => false

/-- Whether a failure is that something could not be read or written. -/
def concernsStorage : Failure → Bool
  | .io .. | .serialization _ => true
  | _ => false

/-- Whether a failure is about what the program is given: the template is missing, the dataset is no
table, or the settings cannot be used. -/
def concernsInput : Failure → Bool
  | .templateNotFound _ | .dataset .. | .records _ | .configuration _ | .invalidConfiguration ..
  | .invalidSetting .. => true
  | _ => false

theorem category_eq_record {failure : Failure} :
    failure.category = .record ↔ failure.concernsRow = true := by
  cases failure <;> simp [category, concernsRow]

theorem category_eq_io {failure : Failure} :
    failure.category = .io ↔ failure.concernsStorage = true := by
  cases failure <;> simp [category, concernsStorage]

theorem category_mem_input {failure : Failure} :
    failure.category ∈ [.template, .dataset, .config] ↔ failure.concernsInput = true := by
  cases failure <;> simp [category, concernsInput]

/-- Only a cancelled run counts as nothing. -/
theorem exitCode_eq_zero {failure : Failure} :
    failure.severity.exitCode = 0 ↔ failure = .cancelled := by
  cases failure <;> simp [severity, category, Category.severity, Severity.exitCode]

theorem exitCode_of_storage {failure : Failure} (storage : failure.concernsStorage = true) :
    failure.severity.exitCode = 3 := by
  rw [severity, category_eq_io.2 storage]
  rfl

theorem exitCode_of_input {failure : Failure} (input : failure.concernsInput = true) :
    failure.severity.exitCode = 1 := by
  unfold severity
  have among := category_mem_input.2 input
  simp only [List.mem_cons, List.not_mem_nil, or_false] at among
  rcases among with category | category | category <;> rw [category] <;> rfl

end Failure

namespace Program

/-! ## Ways through the program -/

/-- The program gathers settings that can be used, and the dataset's fields are separated as they
say. -/
structure Gathers (flags : Flags) (world : World) (settings : Settings) (delimiter : Option UInt8) :
    Prop where
  loaded : (flags.settings.run world).1 = .ok settings
  checked : settings.check = .ok ()
  delimiter : settings.delimiterOctet = .ok delimiter

/-- The program ends with a failure and has no report. -/
inductive Fails (flags : Flags) (world : World) : Failure → Prop where
  | unloaded {failure : Failure} : (flags.settings.run world).1 = .error failure →
      Fails flags world failure
  | unchecked {settings : Settings} {failure : Failure} :
      (flags.settings.run world).1 = .ok settings → settings.check = .error failure →
      Fails flags world failure
  | unread {settings : Settings} {delimiter : Option UInt8} {failure : Failure} :
      Gathers flags world settings delimiter →
      world.tree.rows settings.dataset delimiter = .error failure → Fails flags world failure
  | refused {settings : Settings} {delimiter : Option UInt8} {rows : List Row} {failure : Failure} :
      Gathers flags world settings delimiter →
      world.tree.rows settings.dataset delimiter = .ok rows →
      (settings.request rows).refusal? world.tree = some failure → Fails flags world failure

/-- The program has a report, and some world is left behind. -/
def Reports (flags : Flags) (schedule : Run.Schedule) (world : World) (report : Report)
    (later : World) : Prop :=
  ∃ settings delimiter rows, Gathers flags world settings delimiter ∧
    world.tree.rows settings.dataset delimiter = .ok rows ∧
    (Run.process schedule (settings.request rows)).run world = (.ok report, later)

/-- What comes of writing the report, if that has been asked for. -/
def written (flags : Flags) (report : Report) (later : World) : Except Failure Unit :=
  ((writeReport report flags.reportJson).run later).1

variable {flags : Flags} {schedule : Run.Schedule} {world : World}

/-- There is no other way. -/
theorem fails_or_reports (flags : Flags) (schedule : Run.Schedule) (world : World) :
    (∃ failure, Fails flags world failure) ∨
      ∃ report later, Reports flags schedule world report later := by
  cases loaded : (flags.settings.run world).1 with
  | error failure => exact .inl ⟨failure, .unloaded loaded⟩
  | ok settings =>
    cases checked : settings.check with
    | error failure => exact .inl ⟨failure, .unchecked loaded checked⟩
    | ok _ =>
      obtain ⟨delimiter, octet⟩ := settings.exists_delimiterOctet checked
      have gathers : Gathers flags world settings delimiter := ⟨loaded, checked, octet⟩
      cases read : world.tree.rows settings.dataset delimiter with
      | error failure => exact .inl ⟨failure, .unread gathers read⟩
      | ok rows =>
        cases refusal : (settings.request rows).refusal? world.tree with
        | some failure => exact .inl ⟨failure, .refused gathers read refusal⟩
        | none =>
          obtain ⟨_, begins⟩ := Run.exists_begins schedule refusal
          exact .inr ⟨_, _, settings, delimiter, rows, gathers, read, Prod.ext begins.report rfl⟩

/-- A failure without a report is neither about a row nor that the run was cancelled. -/
theorem concerns_of_fails {failure : Failure} (fails : Fails flags world failure) :
    failure.concernsStorage = true ∨ failure.concernsInput = true := by
  rw [← Failure.category_eq_io, ← Failure.category_mem_input]
  cases fails with
  | unloaded failed =>
    exact ((flags.run_settings world).2 failure failed).imp_right fun config => by simp [config]
  | unchecked _ failed => exact .inr (by simp [(Settings.blames_check _).category_eq failed])
  | unread _ failed =>
    exact (FileTree.category_of_rows failed).imp_right fun dataset => by simp [dataset]
  | refused _ _ failed =>
    exact (Request.category_of_refusal? failed).symm.imp_right fun template => by simp [template]

/-! ## Stages in a row -/

theorem sight_beginDisplay (style : Journal.Style) (level : Option String) (world : World) :
    ((beginDisplay style level).run world).2.sight = world.sight := by
  rw [beginDisplay, Task.run_bind, Task.run_textVariable]
  rfl

theorem run_checkSettings (settings : Settings) (world : World) :
    ((checkSettings settings).run world).1 = settings.check ∧
      ((checkSettings settings).run world).2.sight = world.sight := by
  unfold checkSettings
  cases settings.check with
  | ok _ => exact ⟨rfl, rfl⟩
  | error failure => exact ⟨rfl, rfl⟩

/-- What is done once it is known whether the settings can be used. -/
def onceChecked (flags : Flags) (schedule : Run.Schedule) (settings : Settings) :
    Except Failure Unit → Task (Except Failure Nat)
  | .error failure => return .error failure
  | .ok () =>
    match sourceOf settings with
    | .error failure => return .error failure
    | .ok source =>
      if flags.dryRun then runDry settings source
      else runFully schedule settings source flags.reportJson

theorem runWith_eq (flags : Flags) (schedule : Run.Schedule) (settings : Settings) :
    runWith flags schedule settings = (do
      beginDisplay flags.style settings.logLevel
      noteSettings settings
      onceChecked flags schedule settings (← checkSettings settings)) := rfl

/-- With settings that can be loaded the program goes on to check them. -/
theorem run_attempt_of_loaded {settings : Settings}
    (loaded : (flags.settings.run world).1 = .ok settings) : ∃ early : World,
      early.sight = world.sight ∧ (attempt flags schedule).run world =
        (onceChecked flags schedule settings settings.check).run early := by
  have shown := sight_beginDisplay flags.style settings.logLevel world
  generalize begun : ((beginDisplay flags.style settings.logLevel).run world).2 = first at shown
  have noted : ((noteSettings settings).run first).2.sight = first.sight := rfl
  obtain ⟨value, checked⟩ := run_checkSettings settings ((noteSettings settings).run first).2
  refine ⟨_, (checked.trans noted).trans shown, ?_⟩
  rw [attempt, Task.andThen, Task.run_bind, loaded, (flags.run_settings world).1]
  change (runWith flags schedule settings).run world = _
  rw [runWith_eq, Task.run_bind, begun, Task.run_bind, Task.run_bind, value]

/-- With settings that can be used it goes on to run the job. -/
theorem run_attempt_of_gathers (full : flags.dryRun = false) {settings : Settings}
    {delimiter : Option UInt8} (gathers : Gathers flags world settings delimiter) :
    ∃ early : World, early.sight = world.sight ∧ (attempt flags schedule).run world =
      (runFully schedule settings (.dataset settings.dataset delimiter) flags.reportJson).run
        early := by
  obtain ⟨early, same, ran⟩ := run_attempt_of_loaded gathers.loaded
  refine ⟨early, same, ?_⟩
  rw [ran, gathers.checked, onceChecked, sourceOf, gathers.delimiter]
  simp only [full, Bool.false_eq_true, if_false]

/-- What comes of the job, depending on the rows. -/
theorem run_runJob (schedule : Run.Schedule) (settings : Settings) (delimiter : Option UInt8)
    {early : World} (same : early.sight = world.sight) :
    match world.tree.rows settings.dataset delimiter with
    | .error failure =>
      ((Run.runJob schedule settings (.dataset settings.dataset delimiter)).run early).1 =
          .error failure ∧
        ((Run.runJob schedule settings (.dataset settings.dataset delimiter)).run early).2.sight =
          world.sight
    | .ok rows =>
      ((Run.runJob schedule settings (.dataset settings.dataset delimiter)).run early).1 =
          ((Run.process schedule (settings.request rows)).run world).1 ∧
        ((Run.runJob schedule settings (.dataset settings.dataset delimiter)).run early).2.sight =
          ((Run.process schedule (settings.request rows)).run world).2.sight := by
  obtain ⟨value, sight⟩ := Run.run_jobRequest settings delimiter early
  rw [World.tree_of_sight same] at value
  rw [Run.runJob, Task.andThen, Task.run_bind, value]
  cases world.tree.rows settings.dataset delimiter with
  | error failure => exact ⟨rfl, sight.trans same⟩
  | ok rows => exact Task.run_of_sight _ (sight.trans same)

/-- A program that fails without a report has changed nothing. -/
theorem attempt_of_fails (full : flags.dryRun = false) {failure : Failure}
    (fails : Fails flags world failure) :
    ((attempt flags schedule).run world).1 = .error failure ∧
      ((attempt flags schedule).run world).2.tree = world.tree := by
  cases fails with
  | unloaded failed =>
    have same := (flags.run_settings world).1
    rw [attempt, Task.andThen, Task.run_bind, failed, same]
    exact ⟨rfl, rfl⟩
  | unchecked loaded failed =>
    obtain ⟨early, same, ran⟩ := run_attempt_of_loaded loaded
    rw [ran, failed]
    exact ⟨rfl, World.tree_of_sight same⟩
  | @unread settings delimiter _ gathers failed =>
    obtain ⟨early, same, ran⟩ := run_attempt_of_gathers full gathers
    have job := run_runJob schedule settings delimiter same
    rw [failed] at job
    rw [ran, runFully, Task.run_bind, job.1]
    exact ⟨rfl, World.tree_of_sight job.2⟩
  | @refused settings delimiter rows _ gathers read failed =>
    obtain ⟨early, same, ran⟩ := run_attempt_of_gathers full gathers
    have job := run_runJob schedule settings delimiter same
    obtain ⟨refused, unchanged⟩ := @Run.process_of_refused _ _ schedule _ failed
    rw [read] at job
    rw [ran, runFully, Task.run_bind, job.1, refused]
    exact ⟨rfl, (World.tree_of_sight job.2).trans unchanged⟩

/-- A program that has a report writes it, and then its exit code is that of the report.  Nothing
happens to the tree after that. -/
theorem attempt_of_reports (full : flags.dryRun = false) {report : Report} {later : World}
    (reports : Reports flags schedule world report later) :
    ((attempt flags schedule).run world).1 =
        ((written flags report later).map fun _ => reportCode report) ∧
      ((attempt flags schedule).run world).2.tree =
        ((writeReport report flags.reportJson).run later).2.tree := by
  obtain ⟨settings, delimiter, rows, gathers, read, processed⟩ := reports
  obtain ⟨early, same, ran⟩ := run_attempt_of_gathers full gathers
  have job := run_runJob schedule settings delimiter same
  simp only [read, processed] at job
  obtain ⟨wrote, sight⟩ := Task.run_of_sight (writeReport report flags.reportJson) job.2
  rw [ran, runFully, Task.run_bind, job.1]
  simp only [Task.run_bind, wrote, written]
  cases ((writeReport report flags.reportJson).run later).1 with
  | error failure => exact ⟨rfl, World.tree_of_sight sight⟩
  | ok _ => exact ⟨rfl, World.tree_of_sight sight⟩

/-- The exit code of the program. -/
theorem run_run (flags : Flags) (schedule : Run.Schedule) (world : World) :
    ((run flags schedule).run world).1 = (match ((attempt flags schedule).run world).1 with
      | .ok code => code
      | .error failure => failure.severity.exitCode) ∧
    ((run flags schedule).run world).2.tree = ((attempt flags schedule).run world).2.tree := by
  rw [run, Task.run_bind]
  cases ((attempt flags schedule).run world).1 with
  | ok code => exact ⟨rfl, rfl⟩
  | error failure => exact ⟨rfl, rfl⟩

/-! ## The worst failure -/

theorem worst?_eq_none {failures : List Failure} : worst? failures = none ↔ failures = [] := by
  cases failures with
  | nil => simp [worst?]
  | cons failure rest =>
    rw [worst?]
    cases worst? rest <;> simp

theorem rank_worse (left right : Failure.Severity) :
    left.rank ≤ (worse left right).rank ∧ right.rank ≤ (worse left right).rank ∧
      (worse left right = left ∨ worse left right = right) := by
  unfold worse
  split <;> simp <;> omega

/-- The worst severity is that of a failure, and no failure is worse. -/
theorem worst?_eq_some {failures : List Failure} {severity : Failure.Severity}
    (worst : worst? failures = some severity) :
    (∃ failure ∈ failures, failure.severity = severity) ∧
      ∀ failure ∈ failures, failure.severity.rank ≤ severity.rank := by
  induction failures generalizing severity with
  | nil => simp [worst?] at worst
  | cons first rest ih =>
    rw [worst?] at worst
    cases below : worst? rest with
    | none =>
      rw [below] at worst
      obtain rfl := Option.some.inj worst
      obtain rfl := worst?_eq_none.1 below
      simp
    | some other =>
      rw [below] at worst
      obtain rfl := Option.some.inj worst
      obtain ⟨⟨failure, member, same⟩, least⟩ := ih below
      obtain ⟨left, right, either⟩ := rank_worse first.severity other
      refine ⟨?_, fun failure member => ?_⟩
      · rcases either with here | there
        · exact ⟨first, by simp, here.symm⟩
        · exact ⟨failure, .tail _ member, same.trans there.symm⟩
      · rcases List.mem_cons.1 member with rfl | member
        · exact left
        · exact Nat.le_trans (least failure member) right

variable {report : Report}

theorem reportCode_of_no_failures (uncancelled : report.cancelled = false)
    (none_ : report.failures = []) : reportCode report = 0 := by
  simp [reportCode, uncancelled, none_, worst?]

/-- A failed row leads to a code other than zero, unless it failed because the run was cancelled. -/
theorem reportCode_ne_zero (uncancelled : report.cancelled = false) (some_ : report.failures ≠ [])
    (ordinary : ∀ failure ∈ report.failures, failure ≠ .cancelled) : reportCode report ≠ 0 := by
  obtain ⟨severity, worst⟩ := Option.ne_none_iff_exists'.1 (mt worst?_eq_none.1 some_)
  obtain ⟨⟨failure, member, rfl⟩, _⟩ := worst?_eq_some worst
  simp only [reportCode, uncancelled, worst, Bool.false_eq_true, if_false]
  exact mt Failure.exitCode_eq_zero.1 (ordinary failure member)

theorem reportCode_of_storage (uncancelled : report.cancelled = false) {failure : Failure}
    (member : failure ∈ report.failures) (storage : failure.concernsStorage = true) :
    reportCode report = 3 := by
  obtain ⟨severity, worst⟩ := Option.ne_none_iff_exists'.1
    (mt worst?_eq_none.1 (List.ne_nil_of_mem member))
  have least := (worst?_eq_some worst).2 failure member
  simp only [reportCode, uncancelled, worst, Bool.false_eq_true, if_false]
  rw [Failure.severity, Failure.category_eq_io.2 storage] at least
  cases severity <;> first | rfl | exact absurd least (by decide)

theorem reportCode_of_rows (uncancelled : report.cancelled = false) (some_ : report.failures ≠ [])
    (rows : ∀ failure ∈ report.failures, failure.concernsRow = true) : reportCode report = 2 := by
  obtain ⟨severity, worst⟩ := Option.ne_none_iff_exists'.1 (mt worst?_eq_none.1 some_)
  obtain ⟨⟨failure, member, rfl⟩, _⟩ := worst?_eq_some worst
  simp only [reportCode, uncancelled, worst, Bool.false_eq_true, if_false, Failure.severity,
    Failure.category_eq_record.2 (rows failure member)]
  rfl

/-! ## The rows of a report -/

/-- Every row is generated exactly when none has failed. -/
theorem generated_iff {request : Request} (shape : report.Shape request)
    (uncancelled : report.cancelled = false) :
    (∀ row < request.rows.length, ∃ path, report.outcomes[row]? = some ⟨row, .ok path⟩) ↔
      report.failures = [] := by
  constructor
  · intro generated
    refine Report.failures_eq_nil.2 fun outcome inside => ?_
    obtain ⟨row, found⟩ := List.mem_iff_getElem?.1 inside
    obtain ⟨path, here⟩ := generated row
      (Nat.lt_of_lt_of_le (List.getElem?_eq_some_iff.1 found).1 shape.few)
    exact ⟨path, congrArg Outcome.result (Option.some.inj (found.symm.trans here))⟩
  · intro none_ row inside
    have succeeds := Report.failures_eq_nil.1 none_
    have whole : report.outcomes.length = request.rows.length := by
      rcases shape.whole with whole | cancelled | ⟨_, last, failure, found, failed⟩
      · exact whole
      · rw [uncancelled] at cancelled
        exact nomatch cancelled
      · obtain ⟨path, ok⟩ := succeeds last (List.mem_of_getLast? found)
        rw [ok] at failed
        exact nomatch failed
    obtain ⟨outcome, found⟩ : ∃ outcome, report.outcomes[row]? = some outcome :=
      ⟨_, List.getElem?_eq_getElem (whole ▸ inside)⟩
    obtain ⟨path, ok⟩ := succeeds outcome (List.mem_of_getElem? found)
    refine ⟨path, found.trans ?_⟩
    rw [← shape.indices row outcome found, ← ok]

/-! ## The exit code -/

/-- In an undisturbed world no run has been cancelled. -/
theorem uncancelled_of_reports (silent : .interrupt ∉ schedule)
    (uncancelled : world.cancelled = false) (patient : world.patience = none) {later : World}
    (reports : Reports flags schedule world report later) :
    report.cancelled = false ∧ ∀ failure ∈ report.failures, failure ≠ .cancelled := by
  obtain ⟨_, _, _, _, _, processed⟩ := reports
  obtain ⟨reportable, running⟩ := Run.reportable_of_process (congrArg Prod.fst processed)
  refine ⟨running silent uncancelled patient, fun failure member => ?_⟩
  obtain ⟨outcome, inside, failed⟩ := Report.mem_failures.1 member
  exact (reportable outcome inside failure failed).2

/-- A failure that ends the program decides the exit code. -/
theorem run_of_attempt {failure : Failure}
    (failed : ((attempt flags schedule).run world).1 = .error failure) :
    ((run flags schedule).run world).1 = failure.severity.exitCode := by
  obtain ⟨code, -⟩ := run_run flags schedule world
  rw [failed] at code
  exact code

theorem run_of_fails (full : flags.dryRun = false) {failure : Failure}
    (fails : Fails flags world failure) :
    ((run flags schedule).run world).1 = failure.severity.exitCode ∧
      ((run flags schedule).run world).2.tree = world.tree := by
  obtain ⟨ended, same⟩ := attempt_of_fails full fails
  exact ⟨run_of_attempt ended, (run_run flags schedule world).2.trans same⟩

/-- A report that is not written is a matter of the file system. -/
theorem storage_of_unwritten {later : World} {failure : Failure}
    (unwritten : written flags report later = .error failure) : failure.concernsStorage = true :=
  Failure.category_eq_io.1 ((blames_writeReport report flags.reportJson later).category_eq unwritten)

theorem run_of_unwritten (full : flags.dryRun = false) {later : World}
    (reports : Reports flags schedule world report later) {failure : Failure}
    (unwritten : written flags report later = .error failure) :
    ((run flags schedule).run world).1 = 3 := by
  have failed := (attempt_of_reports full reports).1
  rw [unwritten] at failed
  exact (run_of_attempt failed).trans (Failure.exitCode_of_storage (storage_of_unwritten unwritten))

theorem run_of_written (full : flags.dryRun = false) {later : World}
    (reports : Reports flags schedule world report later)
    (done : written flags report later = .ok ()) :
    ((run flags schedule).run world).1 = reportCode report := by
  obtain ⟨code, -⟩ := run_run flags schedule world
  rw [(attempt_of_reports full reports).1, done] at code
  exact code

/-- A report that has been written can be read in the end, and it is only then that it has been
written.  If it has not, the files are those that the rows have left. -/
theorem written_iff (full : flags.dryRun = false) {later : World}
    (reports : Reports flags schedule world report later) :
    (written flags report later = .ok () ↔
      report.Delivered flags.reportJson ((run flags schedule).run world).2.tree) ∧
    ∀ failure, written flags report later = .error failure →
      ((run flags schedule).run world).2.tree = later.tree := by
  have same := (run_run flags schedule world).2.trans (attempt_of_reports full reports).2
  rw [same]
  exact run_writeReport report flags.reportJson later

/-- A program that ends with a failure has failed before it had a report or in writing it. -/
theorem fails_of_attempt (full : flags.dryRun = false) {failure : Failure}
    (failed : ((attempt flags schedule).run world).1 = .error failure) : Fails flags world failure ∨
      ∃ report later, Reports flags schedule world report later ∧
        written flags report later = .error failure := by
  rcases fails_or_reports flags schedule world with ⟨other, fails⟩ | ⟨report, later, reports⟩
  · rw [(attempt_of_fails full fails).1] at failed
    exact .inl (Except.error.inj failed ▸ fails)
  · rw [(attempt_of_reports full reports).1] at failed
    cases result : written flags report later with
    | error other =>
      rw [result] at failed
      exact .inr ⟨report, later, reports, result.trans (congrArg _ (Except.error.inj failed))⟩
    | ok _ =>
      rw [result] at failed
      exact nomatch failed

/-- The exit code is zero exactly when no row has failed and the report is written. -/
theorem run_eq_zero_iff (full : flags.dryRun = false) (silent : .interrupt ∉ schedule)
    (uncancelled : world.cancelled = false) (patient : world.patience = none) :
    ((run flags schedule).run world).1 = 0 ↔
      ∃ report later, Reports flags schedule world report later ∧ report.failures = [] ∧
        written flags report later = .ok () := by
  constructor
  · intro code
    rcases fails_or_reports flags schedule world with ⟨failure, fails⟩ | ⟨report, later, reports⟩
    · rw [(run_of_fails full fails).1] at code
      rcases concerns_of_fails fails with storage | input
      · rw [Failure.exitCode_of_storage storage] at code
        exact absurd code (by decide)
      · rw [Failure.exitCode_of_input input] at code
        exact absurd code (by decide)
    · cases done : written flags report later with
      | error failure =>
        rw [run_of_unwritten full reports done] at code
        exact absurd code (by decide)
      | ok _ =>
        rw [run_of_written full reports done] at code
        obtain ⟨running, ordinary⟩ := uncancelled_of_reports silent uncancelled patient reports
        refine ⟨report, later, reports, ?_, done⟩
        by_contra some_
        exact reportCode_ne_zero running some_ ordinary code
  · rintro ⟨report, later, reports, none_, done⟩
    obtain ⟨running, -⟩ := uncancelled_of_reports silent uncancelled patient reports
    rw [run_of_written full reports done]
    exact reportCode_of_no_failures running none_

/-- The exit code of a report: three if a row could not be written, and two if the report is written
and every failure is about a row alone. -/
theorem run_of_failures (full : flags.dryRun = false) {later : World}
    (reports : Reports flags schedule world report later) (running : report.cancelled = false) :
    ((∃ path fault, .io path fault ∈ report.failures) → ((run flags schedule).run world).1 = 3) ∧
      (written flags report later = .ok () → report.failures ≠ [] →
        (∀ failure ∈ report.failures, failure.concernsRow = true) →
        ((run flags schedule).run world).1 = 2) := by
  constructor
  · rintro ⟨path, fault, member⟩
    cases done : written flags report later with
    | error failure => exact run_of_unwritten full reports done
    | ok _ =>
      exact (run_of_written full reports done).trans (reportCode_of_storage running member rfl)
  · intro done some_ rows
    exact (run_of_written full reports done).trans (reportCode_of_rows running some_ rows)

/-- The exit code of a program that generates files and is not disturbed, in whatever order the rows
in the making take turns.  It is zero if and only if the settings can be loaded and used, the
dataset has been read, the template is a file and, if there is a row to fill it, a text, every row
has its file, and the report can be read in the end where it was asked for, if it was.  If the
program ends with a failure, the code is three when something could not be read or written and one
when it is about what was given; and nothing has changed unless the failure is that of writing the
report, which leaves the files of the rows.  When there is a report, it has been written if and only
if it can be read in the end; the code is three if a row could not be written, and two if the report
is written and every failure is about a row alone. -/
theorem exitCode_run (flags : Flags) (schedule : Run.Schedule) (world : World)
    (full : flags.dryRun = false) (silent : .interrupt ∉ schedule)
    (uncancelled : world.cancelled = false) (patient : world.patience = none) :
    (((run flags schedule).run world).1 = 0 ↔ ∃ settings delimiter rows report later,
      Gathers flags world settings delimiter ∧
      world.tree.rows settings.dataset delimiter = .ok rows ∧
      world.tree.kind settings.template = .ok .file ∧
      (rows = [] ∨ ∃ content, world.tree.read settings.template = .ok content ∧
        Utf8.isText content = true) ∧
      (Run.process schedule (settings.request rows)).run world = (.ok report, later) ∧
      (∀ row < rows.length, ∃ path, report.outcomes[row]? = some ⟨row, .ok path⟩) ∧
      report.Delivered flags.reportJson ((run flags schedule).run world).2.tree) ∧
    (∀ failure, ((attempt flags schedule).run world).1 = .error failure →
      (failure.concernsStorage = true ∨ failure.concernsInput = true) ∧
      (failure.concernsStorage = true → ((run flags schedule).run world).1 = 3) ∧
      (failure.concernsInput = true → ((run flags schedule).run world).1 = 1) ∧
      ((∃ report later, Reports flags schedule world report later ∧
          written flags report later = .error failure ∧
          ((run flags schedule).run world).2.tree = later.tree) ∨
        ((run flags schedule).run world).2.tree = world.tree)) ∧
    ∀ report later, Reports flags schedule world report later →
      (written flags report later = .ok () ↔
        report.Delivered flags.reportJson ((run flags schedule).run world).2.tree) ∧
      ((∃ path fault, .io path fault ∈ report.failures) → ((run flags schedule).run world).1 = 3) ∧
      (written flags report later = .ok () → report.failures ≠ [] →
        (∀ failure ∈ report.failures, failure.concernsRow = true) →
        ((run flags schedule).run world).1 = 2) := by
  refine ⟨(run_eq_zero_iff full silent uncancelled patient).trans ⟨?_, ?_⟩, ?_, ?_⟩
  · rintro ⟨report, later, reports, none_, done⟩
    obtain ⟨running, -⟩ := uncancelled_of_reports silent uncancelled patient reports
    have delivered := (written_iff full reports).1.1 done
    obtain ⟨settings, delimiter, rows, gathers, read, processed⟩ := reports
    have ok := congrArg Prod.fst processed
    obtain ⟨file, text⟩ := Request.refusal?_eq_none_iff.1 (Run.accepted_of_process ok)
    have generated := (generated_iff (Run.shape_of_process ok) running).2 none_
    exact ⟨settings, delimiter, rows, report, later, gathers, read, file, text, processed, generated,
      delivered⟩
  · rintro ⟨settings, delimiter, rows, report, later, gathers, read, -, -, processed, generated,
      delivered⟩
    have reports : Reports flags schedule world report later :=
      ⟨settings, delimiter, rows, gathers, read, processed⟩
    obtain ⟨running, -⟩ := uncancelled_of_reports silent uncancelled patient reports
    have shape := Run.shape_of_process (congrArg Prod.fst processed)
    have none_ := (generated_iff shape running).1 generated
    exact ⟨report, later, reports, none_, (written_iff full reports).1.2 delivered⟩
  · intro failure failed
    have code := run_of_attempt failed
    refine ⟨?_, fun storage => code.trans (Failure.exitCode_of_storage storage),
      fun input => code.trans (Failure.exitCode_of_input input), ?_⟩
    · rcases fails_of_attempt full failed with fails | ⟨report, later, -, unwritten⟩
      · exact concerns_of_fails fails
      · exact .inl (storage_of_unwritten unwritten)
    · rcases fails_of_attempt full failed with fails | ⟨report, later, reports, unwritten⟩
      · exact .inr (run_of_fails full fails).2
      · have left := (written_iff full reports).2 failure unwritten
        exact .inl ⟨report, later, reports, unwritten, left⟩
  · intro report later reports
    obtain ⟨running, -⟩ := uncancelled_of_reports silent uncancelled patient reports
    exact ⟨(written_iff full reports).1, run_of_failures full reports running⟩

/-- A world with a template and a dataset. -/
def supplied (dataset : String) : World :=
  { tree := ⟨[([utf8 "data.csv"], .file (utf8 dataset)),
      ([utf8 "template.txt"], .file (utf8 "A is {{A}}\n"))], []⟩ }

/-- Two rows may be in the making at a time, and a report is asked for. -/
def recording : Flags := { concurrency := some 2, reportJson := some ⟨utf8 "report.json"⟩ }

/-- Two rows take turns. -/
def turns : Run.Schedule := [.advance 0, .advance 1]

theorem reports_recording {dataset : String} {rows : List Row}
    (read : (supplied dataset).tree.rows ⟨utf8 "data.csv"⟩ none = .ok rows)
    (processed : ((Run.process turns (({ concurrency := 2 } : Settings).request rows)).run
      (supplied dataset)).1 = .ok report) :
    Gathers recording (supplied dataset) { concurrency := 2 } none ∧
      Reports recording turns (supplied dataset) report
        ((Run.process turns (({ concurrency := 2 } : Settings).request rows)).run
          (supplied dataset)).2 := by
  have gathers : Gathers recording (supplied dataset) { concurrency := 2 } none :=
    ⟨rfl, by decide +kernel, rfl⟩
  exact ⟨gathers, _, _, _, gathers, read, Prod.ext processed rfl⟩

/-- Of two rows the second one cannot have a file. -/
def mixed : World := supplied "FileName,A\na,x\n../b,y\n"

/-- Both rows can have a file. -/
def flawless : World := supplied "FileName,A\na,x\nb,y\n"

/-- A program in which a row fails before the one in front of it is through, with what can be read in
its report, and a program in which no row fails. -/
theorem exitCode_run_mixed :
    recording.dryRun = false ∧ .interrupt ∉ turns ∧ mixed.cancelled = false ∧
      mixed.patience = none ∧ flawless.cancelled = false ∧ flawless.patience = none ∧
      ((run recording turns).run mixed).1 = 2 ∧
      ((run recording turns).run mixed).2.tree.read ⟨utf8 "report.json"⟩ =
        .ok (utf8 ("\n".intercalate [
          "\x7b",
          "  \"generated\": 1,",
          "  \"failed\": 1,",
          "  \"cancelled\": false,",
          "  \"rows\": [",
          "    \x7b",
          "      \"row\": 0,",
          "      \"path\": \"a.txt\"",
          "    \x7d,",
          "    \x7b",
          "      \"row\": 1,",
          "      \"category\": \"record\",",
          "      \"error\": \"Invalid destination name '../b': file name contains a path separator\"",
          "    \x7d",
          "  ]",
          "\x7d"])) ∧
      ((run recording turns).run flawless).1 = 0 := by
  refine ⟨rfl, by decide, rfl, rfl, rfl, rfl, and_assoc.1 ⟨?_, ?_⟩⟩
  · have read : mixed.tree.rows ⟨utf8 "data.csv"⟩ none =
        .ok [.named "a" "x", .named "../b" "y"] := by decide +kernel
    have processed : ((Run.process turns (({ concurrency := 2 } : Settings).request
        [.named "a" "x", .named "../b" "y"])).run mixed).1 =
          .ok ⟨[⟨0, .ok ⟨utf8 "a.txt"⟩⟩, ⟨1, .error (.invalidName "../b" .separator)⟩], false⟩ := by
      decide +kernel
    obtain ⟨-, reports⟩ := reports_recording read processed
    obtain ⟨-, -, told⟩ := exitCode_run recording turns mixed rfl (by decide) rfl rfl
    obtain ⟨delivered, -, two⟩ := told _ _ reports
    refine ⟨two (by decide +kernel) (by simp [Report.failures, Outcome.failure?])
      (by simp [Report.failures, Outcome.failure?, Failure.concernsRow]), ?_⟩
    obtain ⟨document, same, there⟩ := delivered.1 (by decide +kernel) _ rfl
    refine there.trans (congrArg (fun text => Except.ok (utf8 text)) ?_)
    exact Except.ok.inj ((congrArg (Except.map Json.pretty) same).symm.trans (by decide +kernel))
  · have read : flawless.tree.rows ⟨utf8 "data.csv"⟩ none =
        .ok [.named "a" "x", .named "b" "y"] := by decide +kernel
    have processed : ((Run.process turns (({ concurrency := 2 } : Settings).request
        [.named "a" "x", .named "b" "y"])).run flawless).1 =
          .ok ⟨[⟨0, .ok ⟨utf8 "a.txt"⟩⟩, ⟨1, .ok ⟨utf8 "b.txt"⟩⟩], false⟩ := by decide +kernel
    obtain ⟨gathers, reports⟩ := reports_recording read processed
    obtain ⟨zero, -, told⟩ := exitCode_run recording turns flawless rfl (by decide) rfl rfl
    have delivered := (told _ _ reports).1.1 (by decide +kernel)
    refine zero.2 ⟨_, _, _, _, _, gathers, read, by decide +kernel, .inr ⟨utf8 "A is {{A}}\n",
      by decide +kernel, by decide +kernel⟩, Prod.ext processed rfl, ?_, delivered⟩
    intro row (inside : row < 2)
    obtain rfl | rfl : row = 0 ∨ row = 1 := by omega
    · exact ⟨_, rfl⟩
    · exact ⟨_, rfl⟩

end Program

end MailMerge
