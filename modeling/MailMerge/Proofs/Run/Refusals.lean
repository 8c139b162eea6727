import MailMerge.Proofs.Run.Accounts
import MailMerge.Proofs.Run.Contents
import MailMerge.Proofs.Run.Writing

/-!
# What a run as a whole fails for

A run fails as a whole when its template is no file, or when there is a row to fill and the template
is not text, and then it has changed nothing.  In every other run there is a report, and no row in it
has failed because something is not text, even if rows have replaced the template in the meantime
(`Run.error_process_iff`).

All rows of such a run write texts from a template that is text (`Run.writing`), and that is kept by
every move of the run (`Run.Wrote`).
-/

namespace MailMerge

set_option autoImplicit false

namespace Run

/-! ## A run that goes on -/

/-- How a run stands that has come some way: its rows write texts, what has become of the others may
be reported, and it was interrupted only if it has been cancelled. -/
structure Wrote (rest : List Assignment) (progress : Progress) (world : World) : Prop where
  crew : writing.Crew ⟨progress.halted, world⟩ rest progress.pending
  outcomes : ∀ outcome ∈ progress.outcomes, Reportable outcome.result
  cancelled : progress.interrupted = true → world.cancelled = true

variable {policy : ErrorPolicy} {rest : List Assignment} {progress : Progress} {world : World}

theorem kept_of_concluded {halted halted' : Bool} {world next : World}
    (concluded : Concluded world next) (halts : halted = true → halted' = true) :
    Kept ⟨halted, world⟩ ⟨halted', next⟩ := by
  refine ⟨concluded.texts, fun stopping => ?_⟩
  rcases Bool.or_eq_true_iff.1 stopping with cancelled | halted
  · exact Bool.or_eq_true_iff.2 (.inl (concluded.cancelled cancelled))
  · exact Bool.or_eq_true_iff.2 (.inr (halts halted))

theorem crew_kept {scene next : Scene} {crew : List Assignment} {pending : List Pending}
    (holds : writing.Crew scene crew pending) (kept : Kept scene next) :
    writing.Crew next crew pending :=
  holds.relied fun _ _ => kept

/-- A row is settled. -/
theorem Wrote.settle (wrote : Wrote rest progress world) (others : Nat) :
    Wrote rest.tail ((progress.settle policy others).run world).1
        ((progress.settle policy others).run world).2 ∧
      Concluded world ((progress.settle policy others).run world).2 := by
  cases rest with
  | nil =>
    rw [run_settle_nil (List.length_eq_zero_iff.1 wrote.crew.length_eq.symm)]
    exact ⟨wrote, .refl world⟩
  | cons assignment rest =>
    obtain ⟨result, making, last, writes, crew, moved, settled⟩ :=
      Terms.exists_settle policy others (apart_writing _) wrote.crew
    have written := written_of_moved moved
    rw [settled, List.tail_cons]
    by_cases halted : progress.halted = true
    · have concluded := concluded_discardResult result last
      rw [if_pos halted]
      exact ⟨⟨crew_kept crew (kept_of_concluded concluded id), wrote.outcomes, fun interrupted =>
        (written.concluded.trans concluded).cancelled (wrote.cancelled interrupted)⟩,
        written.concluded.trans concluded⟩
    · rw [if_neg halted]
      rw [Bool.not_eq_true] at halted
      rw [halted] at crew writes
      obtain ⟨concluded, ⟨outcome, reportable, recorded⟩ | ⟨cancelled, recorded⟩⟩ :=
        run_record_of_writes policy { progress with pending := making } assignment.index writes
      · refine ⟨⟨?_, ?_, ?_⟩, written.concluded.trans concluded⟩ <;> rw [recorded]
        · exact crew_kept crew (kept_of_concluded concluded (absurd · Bool.false_ne_true))
        · refine List.forall_mem_append.2 ⟨wrote.outcomes, fun other member => ?_⟩
          obtain rfl := List.mem_singleton.1 member
          exact reportable
        · exact fun interrupted =>
            (written.concluded.trans concluded).cancelled (wrote.cancelled interrupted)
      · refine ⟨⟨?_, ?_, ?_⟩, written.concluded.trans concluded⟩ <;> rw [recorded]
        · exact crew_kept crew (kept_of_concluded concluded (absurd · Bool.false_ne_true))
        · exact wrote.outcomes
        · exact fun _ => concluded.cancelled cancelled

/-- A row performs an operation. -/
theorem Wrote.advance (wrote : Wrote rest progress world) (position : Nat) :
    Wrote rest
        { progress with
          pending := ((advanceAt progress.halted position progress.pending).run world).1 }
        ((advanceAt progress.halted position progress.pending).run world).2 ∧
      Concluded world ((advanceAt progress.halted position progress.pending).run world).2 := by
  obtain ⟨crew, moved⟩ := Terms.crew_advanceAt (apart_writing rest) wrote.crew
  have concluded := (written_of_moved moved).concluded
  refine ⟨⟨crew, wrote.outcomes, fun interrupted => ?_⟩, concluded⟩
  exact concluded.cancelled (wrote.cancelled interrupted)

/-- The run is cancelled. -/
theorem Wrote.interrupt (wrote : Wrote rest progress world) :
    Wrote rest progress { world with cancelled := true } :=
  ⟨crew_kept wrote.crew ⟨.refl world.tree, fun _ => Bool.true_or _⟩, wrote.outcomes, fun _ => rfl⟩

/-! ## Whole runs -/

/-- A run whose template is text, as far as there are rows to fill it. -/
theorem wrote_start {request : Request}
    (legible : request.assigned ≠ [] → world.tree.Legible request.template) :
    Wrote request.assigned (.start request) world := by
  refine ⟨?_, fun _ member => absurd member List.not_mem_nil, nofun⟩
  refine Terms.crew_start fun assignment member => ?_
  obtain ⟨count, assigned⟩ := request.assigned_eq_take
  have planned := Request.mem_plan_of_mem_planned (List.mem_of_mem_take (assigned ▸ member))
  exact ⟨_, steady_legible request.template, legible (List.ne_nil_of_mem member),
    secure_stagePlanned request.template assignment.row
      (fun _ failed => Request.category_of_mem_plan (failed ▸ planned)) _⟩

/-- What a report of rows that write texts has in it. -/
theorem reportable_of_generate (schedule : Schedule) {request : Request}
    (legible : request.assigned ≠ [] → world.tree.Legible request.template) :
    (∀ outcome ∈ ((generate schedule request).run world).1.outcomes, Reportable outcome.result) ∧
      (.interrupt ∉ schedule → world.cancelled = false → world.patience = none →
        ((generate schedule request).run world).1.cancelled = false) := by
  have lasting : Lasting schedule request.errorPolicy request.width fun progress next =>
      ∃ rest, Wrote rest progress next ∧ (.interrupt ∉ schedule → world.patience = none →
        next.cancelled = world.cancelled ∧ next.patience = none) :=
    { settle := by
        rintro _ _ others _ ⟨_, wrote, calm⟩
        obtain ⟨wrote, concluded⟩ := wrote.settle others
        refine ⟨_, wrote, fun quiet patience => ?_⟩
        obtain ⟨cancelled, patience⟩ := calm quiet patience
        exact (concluded.calm patience).imp_left fun same => same.trans cancelled
      advance := by
        rintro _ _ position _ ⟨_, wrote, calm⟩
        obtain ⟨wrote, concluded⟩ := wrote.advance position
        refine ⟨_, wrote, fun quiet patience => ?_⟩
        obtain ⟨cancelled, patience⟩ := calm quiet patience
        exact (concluded.calm patience).imp_left fun same => same.trans cancelled
      interrupt := by
        rintro _ _ member ⟨_, wrote, _⟩
        exact ⟨_, wrote.interrupt, fun quiet => absurd member quiet⟩ }
  obtain ⟨progress, ⟨_, wrote, calm⟩, _, same⟩ :=
    lasting.generate ⟨_, wrote_start legible, fun _ patience => ⟨rfl, patience⟩⟩
  rw [same]
  refine ⟨wrote.outcomes, fun quiet cancelled patience => Bool.eq_false_iff.2 fun interrupted => ?_⟩
  have stopped := wrote.cancelled interrupted
  rw [(calm quiet patience).1, cancelled] at stopped
  exact Bool.false_ne_true stopped

end Run

/-- What a request needs not to be refused as a whole. -/
theorem Request.refusal?_eq_none_iff {request : Request} {tree : FileTree} :
    request.refusal? tree = none ↔ tree.kind request.template = .ok .file ∧
      (request.rows = [] ∨ ∃ content, tree.read request.template = .ok content ∧
        Utf8.isText content = true) := by
  unfold refusal?
  constructor
  · intro accepted
    split at accepted
    case h_1 => simp at accepted
    case h_2 => split at accepted <;> simp at accepted
    case h_3 file =>
      refine ⟨file, ?_⟩
      obtain ⟨content, there⟩ := FileTree.exists_read_of_kind file
      by_cases none_ : request.rows.isEmpty = true
      · exact .inl (List.isEmpty_iff.1 none_)
      · rw [if_neg none_, there] at accepted
        refine .inr ⟨content, there, ?_⟩
        unfold unreadable? at accepted
        unfold Utf8.isText
        cases decoded : Utf8.decode content with
        | ok text => rfl
        | error e => simp [decoded] at accepted
  · rintro ⟨file, none_ | ⟨content, there, text⟩⟩
    · simp [file, none_]
    · have accepted := refusal?_of_read there text
      unfold refusal? at accepted
      exact accepted

theorem Request.refusal?_ne_none_iff {request : Request} {tree : FileTree} :
    request.refusal? tree ≠ none ↔ tree.kind request.template ≠ .ok .file ∨
      request.rows ≠ [] ∧ ∃ content, tree.read request.template = .ok content ∧
        Utf8.isText content = false := by
  rw [Ne, refusal?_eq_none_iff]
  by_cases file : tree.kind request.template = .ok .file
  · obtain ⟨content, there⟩ := FileTree.exists_read_of_kind file
    simp [file, there]
  · simp [file]

namespace Run

/-- A run of a request fails as a whole exactly when the request is refused. -/
theorem exists_error_iff (schedule : Schedule) (request : Request) (world : World) :
    (∃ failure, ((process schedule request).run world).1 = .error failure) ↔
      request.refusal? world.tree ≠ none := by
  constructor
  · rintro ⟨failure, failed⟩ accepted
    obtain ⟨_, begins⟩ := exists_begins schedule accepted
    exact nomatch begins.report.symm.trans failed
  · intro refused
    obtain ⟨failure, refusal⟩ := Option.ne_none_iff_exists'.1 refused
    exact ⟨failure, (process_of_refused refusal).1⟩

theorem tree_of_error {schedule : Schedule} {request : Request} {world : World} {failure : Failure}
    (failed : ((process schedule request).run world).1 = .error failure) :
    ((process schedule request).run world).2.tree = world.tree := by
  obtain ⟨_, refusal⟩ := Option.ne_none_iff_exists'.1 ((exists_error_iff ..).1 ⟨failure, failed⟩)
  exact (process_of_refused refusal).2

/-- What becomes of the rows of a run that has a report may be reported, and only a run that was
cancelled, or is to be, is reported to have been. -/
theorem reportable_of_process {schedule : Schedule} {request : Request} {world : World}
    {report : Report} (ok : ((process schedule request).run world).1 = .ok report) :
    (∀ outcome ∈ report.outcomes, Reportable outcome.result) ∧
      (.interrupt ∉ schedule → world.cancelled = false → world.patience = none →
        report.cancelled = false) := by
  have accepted := accepted_of_process ok
  obtain ⟨early, begins, rfl⟩ := exists_begins_of_process ok
  rw [← begins.cancelled, ← begins.patience]
  refine reportable_of_generate schedule fun some_ => ?_
  obtain ⟨_, none_ | ⟨content, there, text⟩⟩ := Request.refusal?_eq_none_iff.1 accepted
  · exact absurd (by rw [Request.assigned, none_]; rfl) some_
  · exact begins.tree ▸ FileTree.legible_of_read there text

/-- A run fails as a whole if and only if its template is no file, or there is a row and the template
is not text; then it leaves everything as it was.  When there is a report instead, no row in it has
failed because something is not text, whatever the rows have made of the template. -/
theorem error_process_iff (schedule : Schedule) (request : Request) (world : World) :
    ((∃ failure, ((process schedule request).run world).1 = .error failure) ↔
      world.tree.kind request.template ≠ .ok .file ∨
        request.rows ≠ [] ∧ ∃ content, world.tree.read request.template = .ok content ∧
          Utf8.isText content = false) ∧
    (∀ failure, ((process schedule request).run world).1 = .error failure →
      ((process schedule request).run world).2.tree = world.tree) ∧
    ∀ report, ((process schedule request).run world).1 = .ok report →
      ∀ outcome ∈ report.outcomes, ∀ path, outcome.result ≠ .error (.io path .notText) ∧
        ∀ error, outcome.result ≠ .error (.io path (.lineNotText error)) := by
  refine ⟨(exists_error_iff ..).trans Request.refusal?_ne_none_iff, fun _ => tree_of_error,
    fun report ok outcome member path => ?_⟩
  have reportable := (reportable_of_process ok).1 outcome member
  refine ⟨fun failed => ?_, fun error failed => ?_⟩
  · exact absurd (reportable _ failed).1 (by simp [Failure.concernsText, Fault.concernsText])
  · exact absurd (reportable _ failed).1 (by simp [Failure.concernsText, Fault.concernsText])

end Run

/-- A world with nothing in it but a template that is not text. -/
def World.illegible : World := { tree := ⟨[([utf8 "pattern"], .file [0xFF])], []⟩ }

namespace Run

/-- A run whose template is not text, and one in which the first row has replaced the template before
the second one reads it. -/
theorem error_process_iff_replaced :
    (∃ failure,
      ((process [] (.couple (.named "pattern" "x") (.named "a" "y"))).run .illegible).1 =
          .error failure ∧
        ((process [] (.couple (.named "pattern" "x") (.named "a" "y"))).run .illegible).2.tree =
          World.illegible.tree) ∧
    ∃ report,
      ((process [.settle] (.couple (.named "pattern" "x") (.named "a" "y"))).run .pattern).1 =
          .ok report ∧
        ((process [.settle] (.couple (.named "pattern" "x") (.named "a" "y"))).run
          .pattern).2.tree.read ⟨utf8 "a"⟩ = .ok (utf8 "x") ∧
        report.outcomes.length = 2 ∧
        ∀ outcome ∈ report.outcomes, ∀ path, outcome.result ≠ .error (.io path .notText) ∧
          ∀ error, outcome.result ≠ .error (.io path (.lineNotText error)) := by
  constructor
  · obtain ⟨fails, unchanged, -⟩ :=
      error_process_iff [] (.couple (.named "pattern" "x") (.named "a" "y")) .illegible
    have unlike : Utf8.isText [0xFF] = false := by decide +kernel
    obtain ⟨failure, failed⟩ := fails.2 (.inr ⟨by decide, [0xFF], by decide +kernel, unlike⟩)
    exact ⟨failure, failed, unchanged failure failed⟩
  · obtain ⟨-, -, told⟩ :=
      error_process_iff [.settle] (.couple (.named "pattern" "x") (.named "a" "y")) .pattern
    have ok : ((process [.settle] (.couple (.named "pattern" "x") (.named "a" "y"))).run
        .pattern).1 =
          .ok ⟨[⟨0, .ok ⟨utf8 "pattern"⟩⟩, ⟨1, .ok ⟨utf8 "a"⟩⟩], false⟩ := by decide +kernel
    exact ⟨_, ok, by decide +kernel, rfl, told _ ok⟩

end Run

end MailMerge
