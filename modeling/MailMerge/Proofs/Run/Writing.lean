import MailMerge.Proofs.Run.Answers
import MailMerge.Proofs.Tree.Texts

/-!
# Rows that write texts

All that a row writes is text, if its template is: each operation of its work keeps texts
(`FileTree.KeepsTexts`), and so does moving its file into place, since a text waits under the
temporary name (`Run.Writes`).  A template that was text therefore stays one, whoever replaces it,
and no row fails because something is not text.  Nor does a row find the run cancelled unless it is
being stopped.

Rows of this kind (`Run.writing`) need nothing of each other but that they are of this kind.
-/

namespace MailMerge

set_option autoImplicit false

/-- Whether a failure is that some content is not text. -/
def Failure.concernsText : Failure → Bool
  | .io _ fault => fault.concernsText
  | _ => false

namespace Run

open FileTree (SystemOnly)

/-! ## Operations -/

/-- What a row may do with one operation: texts stay texts, and the run is as far as it was. -/
structure Written (scene next : Scene) : Prop where
  texts : scene.tree.KeepsTexts next.tree
  halted : next.halted = scene.halted
  cancelled : next.world.cancelled = scene.world.cancelled
  patience : next.world.patience = scene.world.patience

/-- What a row relies on the others to keep to: texts stay texts, and a run that is being stopped
goes on being stopped. -/
structure Kept (scene next : Scene) : Prop where
  texts : scene.tree.KeepsTexts next.tree
  stopping : scene.stopping = true → next.stopping = true

theorem Written.kept {scene next : Scene} (written : Written scene next) : Kept scene next := by
  refine ⟨written.texts, fun stopping => ?_⟩
  rw [Scene.stopping, written.cancelled, written.halted]
  exact stopping

theorem Written.trans {scene middle next : Scene} (first : Written scene middle)
    (second : Written middle next) : Written scene next :=
  ⟨first.texts.trans second.texts, second.halted.trans first.halted,
    second.cancelled.trans first.cancelled, second.patience.trans first.patience⟩

theorem Written.of_tree {scene next : Scene} (tree : next.tree = scene.tree)
    (halted : next.halted = scene.halted) (cancelled : next.world.cancelled = scene.world.cancelled)
    (patience : next.world.patience = scene.world.patience) : Written scene next :=
  ⟨tree ▸ .refl scene.tree, halted, cancelled, patience⟩

theorem written_changed {scene : Scene} {change : Except Fault FileTree}
    (keeps : ∀ tree, change = .ok tree → scene.tree.KeepsTexts tree) :
    Written scene (scene.changed change) := by
  cases change with
  | error fault => exact .of_tree rfl rfl rfl rfl
  | ok tree => exact ⟨keeps tree rfl, rfl, rfl, rfl⟩

variable {now : Assertion}

theorem steady_legible (path : Path) : Assertion.Steady Kept fun scene => scene.tree.Legible path :=
  fun _ _ kept legible => legible.keeps kept.texts

/-- An operation of a row lets everything stay that the row relies on. -/
theorem secure_written {operation : Operation} {more : operation.Reply → Assertion}
    (steady : now.Steady Kept) (steady' : ∀ reply, (more reply).Steady Kept)
    (written : ∀ scene, now scene → Written scene (scene.after operation))
    (holds : ∀ scene, now scene → more (scene.reply operation) (scene.after operation)) :
    (Task.perform operation).Secure Kept Written (fun reply scene => now scene ∧ more reply scene)
      now :=
  .perform (fun reply => steady.and (steady' reply)) fun scene start =>
    ⟨written scene start, steady _ _ (written scene start).kept start, holds scene start⟩

theorem systemOnly_map {α β : Type} {reply : Except Fault α} (system : SystemOnly reply)
    (change : α → β) : SystemOnly (reply.map change) := by
  intro fault failed
  cases reply with
  | ok value => simp [Except.map] at failed
  | error other => exact system fault (by simpa [Except.map] using failed)

theorem secure_createDirectory (steady : now.Steady Kept) (path : Path) :
    (Task.createDirectory path).Secure Kept Written (fun reply scene => now scene ∧ SystemOnly reply)
      now := by
  refine secure_written steady (fun _ _ _ _ holds => holds) (fun scene _ => ?_) fun scene _ => ?_
  · rw [Scene.after_createDirectory]
    exact written_changed fun tree created => FileTree.keepsTexts_createDirectory created
  · rw [Scene.reply_createDirectory]
    exact systemOnly_map (FileTree.systemOnly_createDirectory scene.tree path) _

theorem secure_kind (steady : now.Steady Kept) (path : Path) :
    (Task.kind path).Secure Kept Written (fun reply scene => now scene ∧ SystemOnly reply) now :=
  secure_written steady (fun _ _ _ _ holds => holds) (fun _ _ => .of_tree rfl rfl rfl rfl)
    fun scene _ => FileTree.systemOnly_kind scene.tree path

theorem secure_isCancelled (steady : now.Steady Kept) :
    Task.isCancelled.Secure Kept Written
      (fun reply scene => now scene ∧ (reply = true → scene.stopping = true)) now :=
  secure_written steady (fun _ _ _ kept told yes => kept.stopping (told yes))
    (fun _ _ => .of_tree rfl rfl rfl rfl) fun _ _ stopping => stopping

theorem secure_note (steady : now.Steady Kept) (level : Journal.Level) (message : String)
    (row : Option Nat) : (Task.note level message row).Secure Kept Written (fun _ => now) now :=
  .perform (fun _ => steady) fun scene start =>
    have written : Written scene (scene.after (.note ⟨level, message, row⟩)) :=
      .of_tree rfl rfl rfl rfl
    ⟨written, steady _ _ written.kept start⟩

/-! ## Failures -/

/-- A failure has a good reason: not that some content is not text, and that the run was cancelled
only if it is being stopped. -/
def Justified (failure : Failure) : Assertion :=
  fun scene => failure.concernsText = false ∧ (failure = .cancelled → scene.stopping = true)

theorem steady_justified (failure : Failure) : (Justified failure).Steady Kept :=
  fun _ _ kept justified => ⟨justified.1, fun cancelled => kept.stopping (justified.2 cancelled)⟩

theorem justified_io {α : Type} {path : Path} {fault : Fault} {reply : Except Fault α}
    (system : SystemOnly reply) (failed : reply = .error fault) (scene : Scene) :
    Justified (.io path fault) scene :=
  ⟨system fault failed, nofun⟩

/-- If something has failed, it has a good reason. -/
def Vouched {α : Type} (result : Except Failure α) : Assertion :=
  fun scene => ∀ failure, result = .error failure → Justified failure scene

theorem vouched_ok {α : Type} (value : α) (scene : Scene) : Vouched (.ok value) scene := nofun

theorem vouched_error {α : Type} {failure : Failure} {scene : Scene}
    (justified : Justified failure scene) : Vouched (.error failure : Except Failure α) scene :=
  fun _ same => Except.error.inj same ▸ justified

/-! ## Directories -/

theorem secure_unlessDirectory (steady : now.Steady Kept) (path : Path) {fault : Fault}
    (system : fault.concernsText = false) :
    (Task.unlessDirectory path fault).Secure Kept Written
      (fun reply scene => now scene ∧ SystemOnly reply) now := by
  refine .unlessDirectory (secure_kind steady path) (fun _ looked => ⟨looked.1, nofun⟩) ?_
  exact fun _ _ _ looked => ⟨looked.1, fun _ same => Except.error.inj same ▸ system⟩

theorem secure_ensureDirectory_kept (steady : now.Steady Kept) (path : Path) :
    (Task.ensureDirectory path).Secure Kept Written (fun reply scene => now scene ∧ SystemOnly reply)
      now := by
  refine .ensureDirectory (secure_createDirectory steady path) (fun _ created => created) ?_
  exact fun fault => .assuming fun system => secure_unlessDirectory steady path (system fault rfl)

theorem secure_createAlong (steady : now.Steady Kept) (paths : List Path) :
    (Task.createAlong paths).Secure Kept Written (fun reply scene => now scene ∧ SystemOnly reply)
      now := by
  induction paths with
  | nil => exact .pure fun _ start => ⟨start, nofun⟩
  | cons path above ih =>
    refine .createAlong_cons (fun _ _ start => ⟨start, nofun⟩) (secure_createDirectory steady path)
      (fun _ created => created) (ih.strengthen fun _ tried => tried.1) ?_
      (fun _ _ failed => failed) ?_
    · exact (secure_ensureDirectory_kept steady path).strengthen fun _ climbed => climbed.1
    · intro fault _
      exact .assuming fun system => secure_unlessDirectory steady path (system fault rfl)

theorem secure_ensureDirectory (steady : now.Steady Kept) (destination : Path) :
    (ensureDirectory destination).Secure Kept Written
      (fun reply scene => now scene ∧ Vouched reply scene) now := by
  refine .ensureDirectory_of_destination (fun _ scene start => ⟨start, vouched_ok () scene⟩) ?_
  refine fun parent _ => (secure_createAlong steady _).weaken fun reply scene made => ?_
  cases reply with
  | ok _ => exact ⟨made.1, vouched_ok () scene⟩
  | error fault => exact ⟨made.1, vouched_error (justified_io made.2 rfl scene)⟩

/-! ## Files -/

theorem secure_removeTemporary (steady : now.Steady Kept) (temporary : Path) :
    (removeTemporary temporary).Secure Kept Written (fun _ => now) now := by
  refine .removeTemporary ?_ fun message => secure_note steady .warn message none
  refine .perform (fun _ => steady) fun scene start => ?_
  have written : Written scene (scene.after (.remove temporary)) := by
    rw [Scene.after_remove]
    exact written_changed fun tree removed => FileTree.keepsTexts_remove removed
  exact ⟨written, steady _ _ written.kept start⟩

theorem secure_create {temporary : Path} (steady : now.Steady Kept) :
    (Task.create temporary).Secure Kept Written
      (fun reply scene => now scene ∧ SystemOnly reply ∧
        (reply = .ok () → scene.tree.Legible temporary)) now := by
  refine secure_written steady (fun reply => ?_) (fun scene _ => ?_) fun scene _ => ?_
  · exact fun scene next kept both => ⟨both.1, fun created => (both.2 created).keeps kept.texts⟩
  · rw [Scene.after_create]
    exact written_changed fun tree created => (FileTree.keepsTexts_create created).1
  · rw [Scene.reply_create, Scene.after_create]
    refine ⟨systemOnly_map (FileTree.systemOnly_create scene.tree temporary) _, fun done => ?_⟩
    cases created : scene.tree.create temporary with
    | error fault => simp [created, Except.map] at done
    | ok tree => exact (FileTree.keepsTexts_create created).2

theorem secure_append (steady : now.Steady Kept) (temporary : Path) (row : Row)
    (line : Template.Line) :
    (Task.append temporary (line.fill row).bytes).Secure Kept Written
      (fun reply scene => now scene ∧ SystemOnly reply) now := by
  have text : Utf8.isText (line.fill row).bytes = true := Utf8.isText_encode _
  refine secure_written steady (fun _ _ _ _ holds => holds) (fun scene _ => ?_) fun scene _ => ?_
  · rw [Scene.after_append]
    exact written_changed fun tree appended => FileTree.keepsTexts_append text appended
  · rw [Scene.reply_append]
    exact systemOnly_map (FileTree.systemOnly_append scene.tree temporary _) _

/-- Lines that are texts are written, or the file system prevents it, or the run was cancelled. -/
theorem secure_writeLines (steady : now.Steady Kept) (template : Path) (row : Row)
    (temporary : Path) (lines : List Template.Line) :
    (writeLines template row temporary (lines.map .ok)).Secure Kept Written
      (fun reply scene => now scene ∧ Vouched reply scene) now := by
  refine (Task.Secure.writeLines_of_ok (fun failure scene => now scene ∧ Justified failure scene)
    ?_ ?_ lines).weaken fun reply scene told => ?_
  · exact (secure_isCancelled steady).weaken fun _ _ asked =>
      ⟨asked.1, fun yes => ⟨asked.1, rfl, fun _ => asked.2 yes⟩⟩
  · exact fun line => (secure_append steady temporary row line).either (fun _ _ told => told.1)
      fun _ scene told => ⟨told.1, justified_io told.2 rfl scene⟩
  · cases reply with
    | ok _ => exact ⟨told, vouched_ok () scene⟩
    | error failure => exact ⟨told.1, vouched_error told.2⟩

/-- From a template that is text, a text is written under the temporary name. -/
theorem secure_writeTemporary (template : Path) (row : Row) (temporary : Path) :
    (writeTemporary template row temporary).Secure Kept Written
      (fun reply scene => Vouched reply scene ∧ (reply = .ok () → scene.tree.Legible temporary))
      fun scene => scene.tree.Legible template := by
  have steady := steady_legible template
  have both : Assertion.Steady Kept fun scene =>
      scene.tree.Legible template ∧ scene.tree.Legible temporary :=
    steady.and (steady_legible temporary)
  refine .writeTemporary (fun scene => scene.tree.Legible template)
    (fun scene => scene.tree.Legible template ∧ scene.tree.Legible temporary)
    (fun content scene => (scene.tree.Legible template ∧ scene.tree.Legible temporary) ∧
      Utf8.isText content = true) ?_ ?_ ?_ fun content => .assuming fun text => ?_
  · exact (secure_kind steady template).either (fun _ _ told => told.1)
      fun _ scene told => ⟨vouched_error (justified_io told.2 rfl scene), nofun⟩
  · exact (secure_create steady).either (fun _ _ told => ⟨told.1, told.2.2 rfl⟩)
      fun _ scene told => ⟨vouched_error (justified_io told.2.1 rfl scene), nofun⟩
  · have looked : (Task.read template).Secure Kept Written (fun reply scene =>
        (scene.tree.Legible template ∧ scene.tree.Legible temporary) ∧ SystemOnly reply ∧
          ∀ content, reply = .ok content → Utf8.isText content = true)
        fun scene => scene.tree.Legible template ∧ scene.tree.Legible temporary :=
      secure_written both (fun _ _ _ _ holds => holds) (fun _ _ => .of_tree rfl rfl rfl rfl)
        fun scene legible => ⟨FileTree.systemOnly_read scene.tree template,
          fun _ there => legible.1.isText there⟩
    exact looked.either (fun content _ told => ⟨told.1, told.2.2 content rfl⟩)
      fun _ scene told => ⟨vouched_error (justified_io told.2.1 rfl scene), nofun⟩
  · obtain ⟨lines, same, _⟩ := Template.exists_lines text
    rw [same]
    exact (secure_writeLines both template row temporary lines).weaken
      fun _ _ written => ⟨written.2, fun _ => written.1.2⟩

/-! ## Rows -/

/-- What is true when a row's work is done: if it has failed, it has a good reason, and if its file is
complete, a text waits under the temporary name. -/
def Writes (result : Except Failure Staged) : Assertion :=
  fun scene => Vouched result scene ∧
    ∀ staged, result = .ok staged → scene.tree.Legible staged.temporary

theorem secure_stage (template : Path) (row : Row) (destination : Path) (index : Nat) :
    (stage template row destination index).Secure Kept Written Writes
      fun scene => scene.tree.Legible template := by
  have steady := steady_legible template
  refine .stage
    ((secure_ensureDirectory steady destination).either (fun _ _ told => told.1)
      fun failure _ told => ⟨vouched_error (told.2 failure rfl), nofun⟩)
    (secure_writeTemporary template row _) (fun scene written => ⟨vouched_ok _ scene, ?_⟩)
    fun failure => ?_
  · rintro staged same
    obtain rfl := Except.ok.inj same
    exact written.2 rfl
  · refine ((secure_removeTemporary (steady_justified failure) _).strengthen
      fun _ written => written.1 failure rfl).weaken fun _ _ justified => ?_
    exact ⟨vouched_error justified, nofun⟩

/-- A failure of a plan is reason enough, for it is about the row alone. -/
theorem justified_of_record {failure : Failure} (category : failure.category = .record)
    (scene : Scene) : Justified failure scene := by
  cases failure with
  | io path fault => simp [Failure.category] at category
  | cancelled => simp [Failure.category] at category
  | _ => simp [Justified, Failure.concernsText]

theorem secure_stagePlanned (template : Path) (row : Row) {plan : Except Failure Path}
    (planned : ∀ failure, plan = .error failure → failure.category = .record) (index : Nat) :
    (stagePlanned template row plan index).Secure Kept Written Writes
      fun scene => scene.tree.Legible template := by
  refine .stagePlanned ((secure_isCancelled (steady_legible template)).weaken fun _ _ asked =>
      ⟨asked.1, fun yes => ⟨vouched_error ⟨rfl, fun _ => asked.2 yes⟩, nofun⟩⟩) ?_
    fun path _ => secure_stage template row path index
  intro failure failed scene _
  exact ⟨vouched_error (justified_of_record (planned failure failed) scene), nofun⟩

/-- The terms of rows that write texts from a template that is text. -/
def writing : Terms where
  rely _ := Kept
  step _ := Written
  goal _ := Writes

theorem apart_writing (crew : List Assignment) : writing.Apart crew :=
  List.pairwise_of_forall fun _ _ =>
    ⟨fun _ _ written => written.kept, fun _ _ written => written.kept⟩

theorem written_of_moved {crew : List Assignment} {scene next : Scene}
    (moved : writing.Moved crew scene next) : Written scene next := by
  induction moved with
  | refl => exact .of_tree rfl rfl rfl rfl
  | tail _ step ih =>
    obtain ⟨_, _, written⟩ := step
    exact ih.trans written

/-! ## The end of a row's work -/

/-- A task that nobody disturbs reaches its goal. -/
theorem run_of_secure {α : Type} {task : Task α} {goal : α → Assertion} {world : World}
    (secure : task.Secure Kept Written goal now) (start : now ⟨false, world⟩) :
    goal (task.run world).1 ⟨false, (task.run world).2⟩ ∧
      Written ⟨false, world⟩ ⟨false, (task.run world).2⟩ := by
  induction task generalizing now world with
  | done value => exact ⟨secure _ start, .of_tree rfl rfl rfl rfl⟩
  | ask operation next ih =>
    obtain ⟨later, _, steps, rest⟩ := secure
    obtain ⟨written, after⟩ := steps _ start
    have heard : Scene.reply ⟨false, world⟩ operation = (world.perform operation).1 := by
      cases operation with
      | isCancelled => exact Bool.or_false _
      | _ => rfl
    obtain ⟨reached, more⟩ := ih (world.perform operation).1
      (rest (world.perform operation).1) (heard ▸ after)
    exact ⟨reached, written.trans more⟩

/-- What the end of a row's work leaves of a run: texts stay texts, a run that has been cancelled
stays so, and a run that nobody is going to cancel goes on. -/
structure Concluded (world next : World) : Prop where
  texts : world.tree.KeepsTexts next.tree
  cancelled : world.cancelled = true → next.cancelled = true
  calm : world.patience = none → next.cancelled = world.cancelled ∧ next.patience = none

theorem Concluded.refl (world : World) : Concluded world world :=
  ⟨.refl world.tree, id, fun patience => ⟨rfl, patience⟩⟩

theorem Concluded.trans {world middle next : World} (first : Concluded world middle)
    (second : Concluded middle next) : Concluded world next := by
  refine ⟨first.texts.trans second.texts, second.cancelled ∘ first.cancelled, fun patience => ?_⟩
  obtain ⟨cancelled, patience⟩ := first.calm patience
  obtain ⟨cancelled', patience'⟩ := second.calm patience
  exact ⟨cancelled'.trans cancelled, patience'⟩

theorem Concluded.of_core {world next last : World} (concluded : Concluded world next)
    (core : last.core = next.core) : Concluded world last := by
  have tree : last.tree = next.tree := congrArg (·.1) core
  have cancelled : last.cancelled = next.cancelled := congrArg (·.2.1) core
  have patience : last.patience = next.patience := congrArg (·.2.2) core
  exact ⟨tree ▸ concluded.texts, cancelled ▸ concluded.cancelled,
    cancelled ▸ patience ▸ concluded.calm⟩

theorem Written.concluded {scene next : Scene} (written : Written scene next) :
    Concluded scene.world next.world :=
  ⟨written.texts, fun cancelled => written.cancelled.trans cancelled,
    fun patience => ⟨written.cancelled, written.patience.trans patience⟩⟩

theorem concluded_removeTemporary (temporary : Path) (world : World) :
    Concluded world ((removeTemporary temporary).run world).2 := by
  have secure : (removeTemporary temporary).Secure Kept Written (fun _ _ => True) fun _ => True :=
    secure_removeTemporary (fun _ _ _ holds => holds) temporary
  have written : Written ⟨false, world⟩ _ := (run_of_secure secure trivial).2
  exact written.concluded

theorem concluded_countMoved {world : World} {tree : FileTree}
    (keeps : world.tree.KeepsTexts tree) : Concluded world { world with tree }.countMoved := by
  refine ⟨by rw [World.tree_countMoved]; exact keeps, fun cancelled => ?_, fun patience => ?_⟩
  · unfold World.countMoved
    split
    · exact cancelled
    · split
      · rfl
      · exact cancelled
  · simp only [World.countMoved, patience, and_self]

theorem concluded_discardResult (result : Except Failure Staged) (world : World) :
    Concluded world ((discardResult result).run world).2 := by
  cases result with
  | ok staged => exact concluded_removeTemporary staged.temporary world
  | error failure => exact .refl world

/-- A failure that a report may give for a row: not that some content is not text, and not that the
run was cancelled. -/
def Reportable (result : Except Failure Path) : Prop :=
  ∀ failure, result = .error failure → failure.concernsText = false ∧ failure ≠ .cancelled

theorem concluded_commit {staged : Staged} {world : World}
    (legible : world.tree.Legible staged.temporary) :
    Concluded world (staged.commit.run world).2 ∧ Reportable (staged.commit.run world).1 := by
  rw [Staged.commit, Task.run_bind, run_rename]
  cases renamed : world.tree.rename staged.temporary staged.destination with
  | ok tree =>
    have concluded := concluded_countMoved (FileTree.keepsTexts_rename legible renamed)
    exact ⟨concluded, fun _ same => absurd same (by simp)⟩
  | error fault =>
    simp only [Task.run_bind, Task.run_pure]
    refine ⟨concluded_removeTemporary staged.temporary world, fun failure same => ?_⟩
    obtain rfl := Except.error.inj same
    exact ⟨FileTree.systemOnly_rename world.tree _ _ fault renamed, by simp⟩

/-- The outcome of a row that writes texts may be reported, unless the row has found the run
cancelled; and then it has been. -/
theorem run_record_of_writes (policy : ErrorPolicy) (progress : Progress) (index : Nat)
    {result : Except Failure Staged} {world : World} (writes : Writes result ⟨false, world⟩) :
    Concluded world ((progress.record policy index result).run world).2 ∧
      ((∃ outcome, Reportable outcome ∧ ((progress.record policy index result).run world).1 =
          progress.recorded policy index outcome) ∨
        world.cancelled = true ∧ ((progress.record policy index result).run world).1 =
          { progress with halted := true, interrupted := true }) := by
  cases result with
  | ok staged =>
    obtain ⟨concluded, reportable⟩ := concluded_commit (writes.2 staged rfl)
    obtain ⟨recorded, core⟩ := run_record_ok policy progress index staged world
    exact ⟨concluded.of_core core, .inl ⟨_, reportable, recorded⟩⟩
  | error failure =>
    obtain ⟨concerns, stopping⟩ := writes.1 failure rfl
    by_cases cancelled : failure = .cancelled
    · subst cancelled
      exact ⟨.refl world, .inr ⟨by simpa [Scene.stopping] using stopping rfl, rfl⟩⟩
    · obtain ⟨recorded, core⟩ := run_recordFailed policy progress index failure world
      rw [record_error policy progress index cancelled]
      refine ⟨(Concluded.refl world).of_core core, .inl ⟨_, fun other same => ?_, recorded⟩⟩
      obtain rfl := Except.error.inj same
      exact ⟨concerns, cancelled⟩

end Run

end MailMerge
