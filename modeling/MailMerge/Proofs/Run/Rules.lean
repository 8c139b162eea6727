import MailMerge.Proofs.Run.Assertions
import MailMerge.Proofs.Template.Lines
import MailMerge.Proofs.Tree.Making
import MailMerge.Run.Staging

/-!
# The rules of a row's work

Only here the work of a row is followed from one operation to the next.  There is a rule for each
task that it is made of, which says what has to be known of the operations of that task, on whatever
terms, for the task to achieve something.  In the loop over the lines of the template
(`Task.Secure.writeLines`) this is what is known of the file, which every inquiry leaves as it is and
every line adds to.

So whoever works on some terms has to tell no more than what single operations achieve on them.
-/

namespace MailMerge

set_option autoImplicit false

/-- One thing is known of the value after a success, and another of the failure. -/
def Assertion.either {ε α : Type} (success : α → Assertion) (failure : ε → Assertion) :
    Except ε α → Assertion
  | .ok value => success value
  | .error reason => failure reason

theorem Assertion.steady_either {rely : Scene → Scene → Prop} {ε α : Type}
    {success : α → Assertion} {failure : ε → Assertion} (first : ∀ value, (success value).Steady rely)
    (second : ∀ reason, (failure reason).Steady rely) (result : Except ε α) :
    (Assertion.either success failure result).Steady rely := by
  cases result with
  | ok value => exact first value
  | error reason => exact second reason

namespace Task.Secure

open Run (Staged)

variable {rely step : Scene → Scene → Prop} {now : Assertion}

/-- What is known of a result is told for successes and failures one by one. -/
theorem either {ε α : Type} {task : Task (Except ε α)} {known : Except ε α → Assertion}
    {success : α → Assertion} {failure : ε → Assertion} (secure : task.Secure rely step known now)
    (ok : ∀ value scene, known (.ok value) scene → success value scene)
    (error : ∀ reason scene, known (.error reason) scene → failure reason scene) :
    task.Secure rely step (Assertion.either success failure) now := by
  refine secure.weaken fun result scene holds => ?_
  cases result with
  | ok value => exact ok value scene holds
  | error reason => exact error reason scene holds

/-- An operation that always has the same result does not fail. -/
theorem of_ok {ε α : Type} {task : Task (Except ε α)} {value : α} {later : Assertion}
    {success : α → Assertion} {failure : ε → Assertion}
    (secure : task.Secure rely step (fun reply scene => later scene ∧ reply = .ok value) now)
    (ok : ∀ scene, later scene → success value scene) :
    task.Secure rely step (Assertion.either success failure) now := by
  refine secure.either ?_ ?_
  · rintro _ scene ⟨holds, ⟨⟩⟩
    exact ok scene holds
  · rintro _ _ ⟨_, ⟨⟩⟩

/-! ## Directories -/

section Directories

variable {path : Path} {goal tried climbed : Except Fault Unit → Assertion}

/-- A fault does not matter if there is a directory, and otherwise it is passed on. -/
theorem unlessDirectory {fault : Fault} {seen : Except Fault Kind → Assertion}
    (looked : (Task.kind path).Secure rely step seen now)
    (there : ∀ scene, seen (.ok .directory) scene → goal (.ok ()) scene)
    (missed : ∀ reply scene, reply ≠ .ok .directory → seen reply scene →
      goal (.error fault) scene) :
    (Task.unlessDirectory path fault).Secure rely step goal now := by
  refine looked.bind fun reply => ?_
  split
  · exact .pure there
  · next other => exact .pure fun scene => missed reply scene other

theorem ensureDirectory (created : (Task.createDirectory path).Secure rely step tried now)
    (done : ∀ scene, tried (.ok ()) scene → goal (.ok ()) scene)
    (looked : ∀ fault, (Task.unlessDirectory path fault).Secure rely step goal
      (tried (.error fault))) :
    (Task.ensureDirectory path).Secure rely step goal now := by
  refine created.bind fun reply => ?_
  cases reply with
  | ok _ => exact .pure done
  | error fault => exact looked fault

/-- A directory is tried first; if its parent is missing, the directories above it are made and it is
tried again. -/
theorem createAlong_cons {above : List Path}
    (empty : path.components.isEmpty = true → ∀ scene, now scene → goal (.ok ()) scene)
    (created : (Task.createDirectory path).Secure rely step tried now)
    (done : ∀ scene, tried (.ok ()) scene → goal (.ok ()) scene)
    (ascent : (Task.createAlong above).Secure rely step climbed (tried (.error .notFound)))
    (again : (Task.ensureDirectory path).Secure rely step goal (climbed (.ok ())))
    (failed : ∀ fault scene, climbed (.error fault) scene → goal (.error fault) scene)
    (looked : ∀ fault, fault ≠ .notFound →
      (Task.unlessDirectory path fault).Secure rely step goal (tried (.error fault))) :
    (Task.createAlong (path :: above)).Secure rely step goal now := by
  rw [Task.createAlong]
  split
  case isTrue none => exact .pure (empty none)
  case isFalse =>
    refine created.bind fun reply => ?_
    split
    case h_1 => exact .pure done
    case h_2 =>
      refine ascent.bind fun reply => ?_
      cases reply with
      | ok _ => exact again
      | error fault => exact .pure (failed fault)
    case h_3 fault other => exact looked fault other

/-- Nothing above a path is tried if the first attempt fails, but not for a missing parent. -/
theorem createAlong_cons_of_failed {later : Assertion} {above : List Path} {fault : Fault}
    (named : path.bytes ≠ []) (created : (Task.createDirectory path).Secure rely step
      (fun reply scene => later scene ∧ reply = .error fault) now) (other : fault ≠ .notFound)
    (looked : (Task.unlessDirectory path fault).Secure rely step goal later) :
    (Task.createAlong (path :: above)).Secure rely step goal now := by
  have ascent : (Task.createAlong above).Secure rely step (fun _ _ => False) fun scene =>
      later scene ∧ (.error .notFound : Except Fault Unit) = .error fault :=
    .assuming fun same => absurd (Except.error.inj same).symm other
  refine createAlong_cons (fun empty => absurd (FileTree.components_isEmpty_iff.1 empty) named)
    created (fun _ told => nomatch told.2) ascent (impossible _) (fun _ _ never => never.elim)
    fun reason _ => .assuming fun same => ?_
  obtain rfl := Except.error.inj same
  exact looked

end Directories

/-! ## The temporary file -/

section Files

variable {template temporary : Path} {row : Row}

theorem removeTemporary {left : Assertion}
    (removed : (Task.remove temporary).Secure rely step (fun _ => left) now)
    (noted : ∀ message, (Task.note .warn message none).Secure rely step (fun _ => left) left) :
    (Run.removeTemporary temporary).Secure rely step (fun _ => left) now := by
  refine removed.bind fun reply => ?_
  cases reply with
  | ok _ => exact .pure fun _ holds => holds
  | error fault =>
    simp only
    split
    · exact .pure fun _ holds => holds
    · exact noted _

/-- All lines are written, unless something has stopped that or one of them is not text. -/
theorem writeLines (drafting : Bytes → Assertion) (stopped : Failure → Assertion)
    (asked : ∀ written, Task.isCancelled.Secure rely step
      (fun reply scene => drafting written scene ∧ (reply = true → stopped .cancelled scene))
      (drafting written))
    (appended : ∀ written line, (Task.append temporary (Template.Line.fill row line).bytes).Secure
      rely step
      (.either (fun _ => drafting (written ++ (line.fill row).bytes))
        fun fault => stopped (.io temporary fault)) (drafting written))
    (items : List (Except Utf8.DecodeError Template.Line)) (written : Bytes) :
    (Run.writeLines template row temporary items).Secure rely step
      (.either
        (fun _ scene => ∃ octets, Template.renderLines row items = .ok octets ∧
          drafting (written ++ octets) scene)
        fun failure scene => stopped failure scene ∨ ∃ e more,
          Template.renderLines row items = .error e ∧ failure = .io template (.lineNotText e) ∧
            drafting more scene)
      (drafting written) := by
  induction items generalizing written with
  | nil =>
    refine (asked written).bind fun reply => ?_
    cases reply with
    | true => exact .pure fun _ holds => .inl (holds.2 rfl)
    | false => exact .pure fun _ holds => ⟨[], rfl, by simpa using holds.1⟩
  | cons item rest ih =>
    refine (asked written).bind fun reply => ?_
    cases reply with
    | true => exact .pure fun _ holds => .inl (holds.2 rfl)
    | false =>
      refine strengthen ?_ fun _ holds => holds.1
      cases item with
      | error e => exact .pure fun _ holds => .inr ⟨e, written, rfl, rfl, holds⟩
      | ok line =>
        refine (appended written line).bind fun reply => ?_
        cases reply with
        | error fault => exact .pure fun _ holds => .inl holds
        | ok _ =>
          refine (ih (written ++ (line.fill row).bytes)).weaken fun result scene holds => ?_
          cases result with
          | ok _ =>
            obtain ⟨octets, rendered, drafted⟩ := holds
            refine ⟨(line.fill row).bytes ++ octets, ?_, ?_⟩
            · simp only [Template.renderLines, rendered]
            · rwa [List.append_assoc] at drafted
          | error failure =>
            obtain stopped | ⟨e, more, rendered, same, drafted⟩ := holds
            · exact .inl stopped
            · exact .inr ⟨e, more, by simp only [Template.renderLines, rendered], same, drafted⟩

/-- All lines of a text are written, unless something has stopped that. -/
theorem writeLines_of_ok (stopped : Failure → Assertion)
    (asked : Task.isCancelled.Secure rely step
      (fun reply scene => now scene ∧ (reply = true → stopped .cancelled scene)) now)
    (appended : ∀ line, (Task.append temporary (Template.Line.fill row line).bytes).Secure rely step
      (.either (fun _ => now) fun fault => stopped (.io temporary fault)) now)
    (lines : List Template.Line) :
    (Run.writeLines template row temporary (lines.map .ok)).Secure rely step
      (.either (fun _ => now) stopped) now := by
  refine (writeLines (fun _ => now) stopped (fun _ => asked) (fun _ => appended) _ []).weaken
    fun result scene holds => ?_
  cases result with
  | ok _ =>
    obtain ⟨_, _, holds⟩ := holds
    exact holds
  | error failure =>
    obtain stopped | ⟨e, _, failed, _⟩ := holds
    · exact stopped
    · simp [Template.renderLines_ok] at failed

/-- The template is looked for before the temporary file is created, and read afterwards. -/
theorem writeTemporary {goal : Except Failure Unit → Assertion} (found created : Assertion)
    (opened : Bytes → Assertion)
    (looked : (Task.kind template).Secure rely step
      (.either (fun _ => found) fun fault => goal (.error (.io template fault))) now)
    (creates : (Task.create temporary).Secure rely step
      (.either (fun _ => created) fun fault => goal (.error (.io temporary fault))) found)
    (reads : (Task.read template).Secure rely step
      (.either opened fun fault => goal (.error (.io template fault))) created)
    (writes : ∀ content, (Run.writeLines template row temporary (Template.lines content)).Secure
      rely step goal (opened content)) :
    (Run.writeTemporary template row temporary).Secure rely step goal now := by
  refine looked.bind fun reply => ?_
  cases reply with
  | error fault => exact .pure fun _ failed => failed
  | ok kind =>
    refine creates.bind fun reply => ?_
    cases reply with
    | error fault => exact .pure fun _ failed => failed
    | ok _ =>
      refine reads.bind fun reply => ?_
      cases reply with
      | error fault => exact .pure fun _ failed => failed
      | ok content => exact writes content

end Files

/-! ## The whole work -/

section Rows

variable {template destination : Path} {row : Row} {index : Nat}
  {goal : Except Failure Staged → Assertion}

theorem ensureDirectory_of_destination {seen : Except Failure Unit → Assertion}
    (home : Run.neededDirectory? destination = none → ∀ scene, now scene → seen (.ok ()) scene)
    (made : ∀ parent, Run.neededDirectory? destination = some parent →
      (Task.createDirectories parent).Secure rely step
        (fun reply => seen (Run.onPath parent reply)) now) :
    (Run.ensureDirectory destination).Secure rely step seen now := by
  rw [Run.ensureDirectory]
  cases needed : Run.neededDirectory? destination with
  | none => exact .pure (home needed)
  | some parent => exact (made parent needed).bind fun _ => .pure fun _ holds => holds

/-- A row that has failed after it began to write takes its temporary file away. -/
theorem stage {housed : Assertion} {written : Except Failure Unit → Assertion}
    (sees : (Run.ensureDirectory destination).Secure rely step
      (.either (fun _ => housed) fun failure => goal (.error failure)) now)
    (writes : (Run.writeTemporary template row (Destination.temporary destination index)).Secure
      rely step written housed)
    (done : ∀ scene, written (.ok ()) scene →
      goal (.ok ⟨Destination.temporary destination index, destination⟩) scene)
    (removes : ∀ failure, (Run.removeTemporary (Destination.temporary destination index)).Secure
      rely step (fun _ => goal (.error failure)) (written (.error failure))) :
    (Run.stage template row destination index).Secure rely step goal now := by
  refine sees.bind fun reply => ?_
  cases reply with
  | error failure => exact .pure fun _ failed => failed
  | ok _ =>
    refine writes.bind fun reply => ?_
    cases reply with
    | ok _ => exact .pure done
    | error failure => exact (removes failure).bind fun _ => .pure fun _ failed => failed

/-- In a run that is being cancelled not even the plan of a row is looked at. -/
theorem stagePlanned {plan : Except Failure Path}
    (asked : Task.isCancelled.Secure rely step
      (fun reply scene => now scene ∧ (reply = true → goal (.error .cancelled) scene)) now)
    (refused : ∀ failure, plan = .error failure → ∀ scene, now scene → goal (.error failure) scene)
    (stages : ∀ path, plan = .ok path →
      (Run.stage template row path index).Secure rely step goal now) :
    (Run.stagePlanned template row plan index).Secure rely step goal now := by
  refine asked.bind fun reply => ?_
  cases reply with
  | true => exact .pure fun _ holds => holds.2 rfl
  | false =>
    refine strengthen ?_ fun _ holds => holds.1
    cases plan with
    | error failure => exact .pure (refused failure rfl)
    | ok path => exact stages path rfl

end Rows

end Task.Secure

end MailMerge
