import MailMerge.Proofs.Run.Rules
import MailMerge.Proofs.Run.Tally

/-!
# What may become of a row

The outcome of a row is bound by the plan, whatever the files are and whatever other rows do.  A row
without destination fails for the reason that the plan gives.  A row with a destination is generated
there, or it fails because of the file system and for no other reason (`Run.Fulfils`).

This does not depend on any file: whatever the replies to the operations of a row are, it ends with an
answer of this kind, or it has found the run cancelled (`Run.ends_stagePlanned`).  So it is an
achievement of rows that rely on nothing and may do anything (`Run.answering`).
-/

namespace MailMerge

set_option autoImplicit false

namespace Task

variable {α : Type}

/-- Whatever the replies to its operations are, the task ends with a value that has a property. -/
def Ends (goal : α → Prop) (task : Task α) : Prop :=
  task.Secure (fun _ _ => True) (fun _ _ => True) (fun value _ => goal value) fun _ => True

/-- Nothing is asked of the value. -/
theorem Ends.any (task : Task α) : task.Ends fun _ => True := by
  induction task with
  | done value => exact fun _ _ => trivial
  | ask operation next ih =>
    exact ⟨fun _ _ => True, fun _ _ _ _ _ => trivial, fun _ _ => ⟨trivial, trivial⟩, ih⟩

end Task

namespace Run

/-! ## Answers -/

/-- What may become of a row, given what was planned for it. -/
inductive Fulfils : (plan result : Except Failure Path) → Prop where
  | refused {failure : Failure} : Fulfils (.error failure) (.error failure)
  | generated {path : Path} : Fulfils (.ok path) (.ok path)
  | broken {path other : Path} {fault : Fault} : Fulfils (.ok path) (.error (.io other fault))

/-- What the work of a row may end with, given what was planned for the row. -/
def Answers (plan : Except Failure Path) : Except Failure Staged → Prop
  | .ok staged => plan = .ok staged.destination
  | .error failure => failure = .cancelled ∨ Fulfils plan (.error failure)

/-- If something has failed, it has because the run was cancelled or because of the file system. -/
def BreaksOff {α : Type} (result : Except Failure α) : Prop :=
  ∀ failure, result = .error failure → failure = .cancelled ∨ ∃ path fault, failure = .io path fault

theorem breaksOff_ok {α : Type} (value : α) : BreaksOff (.ok value) := nofun

theorem breaksOff_cancelled {α : Type} : BreaksOff (.error .cancelled : Except Failure α) :=
  fun _ same => .inl (Except.error.inj same).symm

theorem breaksOff_io {α : Type} (path : Path) (fault : Fault) :
    BreaksOff (.error (.io path fault) : Except Failure α) :=
  fun _ same => .inr ⟨path, fault, (Except.error.inj same).symm⟩

theorem BreaksOff.answers {failure : Failure}
    (breaks : BreaksOff (.error failure : Except Failure Unit)) (path : Path) :
    Answers (.ok path) (.error failure) := by
  obtain rfl | ⟨other, fault, rfl⟩ := breaks failure rfl
  · exact .inl rfl
  · exact .inr .broken

/-! ## The work of a row -/

/-- A fault of an operation on a path is a failure of that kind. -/
theorem ends_either {α : Type} (task : Task (Except Fault α)) (path : Path) :
    task.Secure (fun _ _ => True) (fun _ _ => True)
      (.either (fun _ _ => True) fun fault _ =>
        BreaksOff (.error (.io path fault) : Except Failure Unit)) fun _ => True :=
  (Task.Ends.any task).either (fun _ _ _ => trivial) fun fault _ _ => breaksOff_io path fault

theorem ends_ensureDirectory (destination : Path) :
    (ensureDirectory destination).Ends BreaksOff := by
  refine .ensureDirectory_of_destination (fun _ _ _ => breaksOff_ok ()) fun parent _ => ?_
  refine (ends_either _ parent).weaken fun reply _ told => ?_
  cases reply with
  | ok _ => exact breaksOff_ok ()
  | error fault => exact told

theorem ends_writeLines (template : Path) (row : Row) (temporary : Path)
    (items : List (Except Utf8.DecodeError Template.Line)) :
    (writeLines template row temporary items).Ends BreaksOff := by
  have asked : Task.isCancelled.Secure (fun _ _ => True) (fun _ _ => True) (fun reply _ => True ∧
      (reply = true → BreaksOff (.error .cancelled : Except Failure Unit))) fun _ => True :=
    (Task.Ends.any _).weaken fun _ _ _ => ⟨trivial, fun _ => breaksOff_cancelled⟩
  refine (Task.Secure.writeLines (fun _ _ => True)
    (fun failure _ => BreaksOff (.error failure : Except Failure Unit)) (fun _ => asked)
    (fun _ _ => ends_either _ temporary) items []).weaken fun result _ told => ?_
  cases result with
  | ok _ => exact breaksOff_ok ()
  | error failure =>
    obtain breaks | ⟨e, _, _, rfl, _⟩ := told
    · exact breaks
    · exact breaksOff_io template _

theorem ends_writeTemporary (template : Path) (row : Row) (temporary : Path) :
    (writeTemporary template row temporary).Ends BreaksOff :=
  .writeTemporary (fun _ => True) (fun _ => True) (fun _ _ => True) (ends_either _ template)
    (ends_either _ temporary) (ends_either _ template) fun _ => ends_writeLines ..

theorem ends_stage (template : Path) (row : Row) (destination : Path) (index : Nat) :
    (stage template row destination index).Ends (Answers (.ok destination)) := by
  have housed : (ensureDirectory destination).Secure (fun _ _ => True) (fun _ _ => True)
      (.either (fun _ _ => True) fun failure _ => Answers (.ok destination) (.error failure))
      fun _ => True :=
    Task.Secure.either (ends_ensureDirectory destination) (fun _ _ _ => trivial)
      fun _ _ breaks => BreaksOff.answers breaks destination
  refine .stage housed (ends_writeTemporary ..) (fun _ _ => rfl) fun failure => ?_
  refine .strengthen (.assuming fun breaks => ?_) fun _ breaks => ⟨trivial, breaks⟩
  exact (Task.Ends.any _).weaken fun _ _ _ => BreaksOff.answers breaks destination

/-- Whatever happens, a row fails for the reason that was planned, or its file is staged for the
destination that was planned, or the file system or a cancellation keeps it from that. -/
theorem ends_stagePlanned (template : Path) (row : Row) (plan : Except Failure Path) (index : Nat) :
    (stagePlanned template row plan index).Ends (Answers plan) := by
  refine .stagePlanned ((Task.Ends.any _).weaken fun _ _ _ => ⟨trivial, fun _ => .inl rfl⟩) ?_ ?_
  · rintro failure rfl _ _
    exact .inr .refused
  · rintro path rfl
    exact ends_stage ..

/-! ## The end of a row's work -/

/-- A complete file is moved to its destination, or the file system prevents it. -/
theorem fulfils_commit (staged : Staged) (world : World) :
    Fulfils (.ok staged.destination) (staged.commit.run world).1 := by
  rw [Staged.commit, Task.run_bind]
  cases ((Task.rename staged.temporary staged.destination).run world).1 with
  | ok _ => exact .generated
  | error fault =>
    simp only [Task.run_bind, Task.run_pure]
    exact .broken

/-- What is recorded of a row is bound by its plan, unless the row has found the run cancelled. -/
theorem run_record_of_answers (policy : ErrorPolicy) (progress : Progress) (index : Nat)
    {plan : Except Failure Path} {result : Except Failure Staged} (answers : Answers plan result)
    (world : World) :
    (∃ outcome, Fulfils plan outcome ∧
      ((progress.record policy index result).run world).1 =
        progress.recorded policy index outcome) ∨
    ((progress.record policy index result).run world).1 =
      { progress with halted := true, interrupted := true } := by
  cases result with
  | ok staged =>
    obtain rfl := answers
    have recorded := (run_record_ok policy progress index staged world).1
    exact .inl ⟨_, fulfils_commit staged world, recorded⟩
  | error failure =>
    by_cases cancelled : failure = .cancelled
    · obtain rfl := cancelled
      exact .inr rfl
    · refine .inl ⟨_, answers.resolve_left cancelled, ?_⟩
      rw [record_error policy progress index cancelled]
      exact (run_recordFailed policy progress index failure world).1

/-- The terms of rows that rely on nothing and may do anything, and still answer as planned. -/
def answering : Terms where
  rely _ _ _ := True
  step _ _ _ := True
  goal assignment result _ := Answers assignment.destination result

theorem apart_answering (crew : List Assignment) : answering.Apart crew :=
  List.pairwise_of_forall fun _ _ => ⟨fun _ _ _ => trivial, fun _ _ _ => trivial⟩

/-- A row that has not begun will answer as planned. -/
theorem held_answering (template : Path) (assignment : Assignment) (scene : Scene) :
    answering.Held assignment (assignment.pending template).work scene :=
  ⟨fun _ => True, fun _ _ _ _ => trivial, trivial, ends_stagePlanned ..⟩

end Run

end MailMerge
