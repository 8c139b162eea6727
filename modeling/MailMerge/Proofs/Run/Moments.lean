import MailMerge.Run.Process

/-!
# What is true at every moment

A run can be cut off between any two of its operations, and what is there then is what the world
holds after some number of them (`Task.after`).  A task that only looks leaves the files and
directories as they are at every moment (`Task.Idle`); so does everything in the run of a request
but the generation of its rows.

For a task that changes something there is a condition that its operations keep.  It may depend on
another condition that was met at all moments before, as when a row's text is that of a template
which was there at some time (`Task.Along`, `Task.Along.after`).
-/

namespace MailMerge

set_option autoImplicit false

namespace Task

variable {α β : Type}

/-! ## Tasks that only look -/

/-- None of the operations changes a file or a directory, whatever the replies are. -/
def Idle : Task α → Prop
  | .done _ => True
  | .ask operation next => (∀ world : World, (world.perform operation).2.tree = world.tree) ∧
      ∀ reply, (next reply).Idle

namespace Idle

theorem pure (value : α) : (Pure.pure value : Task α).Idle := trivial

theorem perform {operation : Operation}
    (same : ∀ world : World, (world.perform operation).2.tree = world.tree) :
    (Task.perform operation).Idle :=
  ⟨same, fun _ => trivial⟩

theorem note (level : Journal.Level) (message : String) (row : Option Nat) :
    (Task.note level message row).Idle :=
  perform fun _ => rfl

theorem bind {task : Task α} {rest : α → Task β} (first : task.Idle)
    (second : ∀ value, (rest value).Idle) : (task >>= rest).Idle := by
  induction task with
  | done value => exact second value
  | ask operation next ih => exact ⟨first.1, fun reply => ih reply (first.2 reply)⟩

theorem after {task : Task α} (idle : task.Idle) (count : Nat) (world : World) :
    (Task.after count task world).tree = world.tree := by
  induction count generalizing task world with
  | zero => rfl
  | succ count ih =>
    cases task with
    | done value => rfl
    | ask operation next => exact (ih (idle.2 _) _).trans (idle.1 world)

theorem run {task : Task α} (idle : task.Idle) (world : World) :
    (task.run world).2.tree = world.tree := by
  induction task generalizing world with
  | done value => rfl
  | ask operation next ih => exact (ih _ (idle.2 _) _).trans (idle.1 world)

end Idle

/-! ## Tasks that keep something -/

/-- As long as a condition on the files is met after every operation, another one is kept by every
operation, and at the end the value has the property asked for. -/
def Along (given kept : FileTree → Prop) (goal : α → World → Prop) : Task α → World → Prop
  | .done value, world => goal value world
  | .ask operation next, world => given (world.perform operation).2.tree →
      kept (world.perform operation).2.tree ∧
        (next (world.perform operation).1).Along given kept goal (world.perform operation).2

namespace Along

variable {given kept : FileTree → Prop} {world : World}

theorem bind {middle : α → World → Prop} {goal : β → World → Prop} {task : Task α}
    {rest : α → Task β} (first : task.Along given kept middle world) (start : given world.tree)
    (second : ∀ value last, middle value last → given last.tree →
      (rest value).Along given kept goal last) :
    (task >>= rest).Along given kept goal world := by
  induction task generalizing world with
  | done value => exact second value world first start
  | ask operation next ih =>
    intro met
    obtain ⟨keeps, later⟩ := first met
    exact ⟨keeps, ih _ later met⟩

/-- The value at the end is the one with which the task is carried out. -/
theorem ending {goal : α → World → Prop} {task : Task α}
    (along : task.Along given kept (fun _ _ => True) world) (start : given world.tree)
    (holds : given (task.run world).2.tree → goal (task.run world).1 (task.run world).2) :
    task.Along given kept goal world := by
  induction task generalizing world with
  | done value => exact holds start
  | ask operation next ih =>
    intro met
    obtain ⟨keeps, later⟩ := along met
    exact ⟨keeps, ih _ later met holds⟩

theorem bind_run {goal : β → World → Prop} {task : Task α} {rest : α → Task β}
    (first : task.Along given kept (fun _ _ => True) world) (start : given world.tree)
    (second : given (task.run world).2.tree →
      (rest (task.run world).1).Along given kept goal (task.run world).2) :
    (task >>= rest).Along given kept goal world :=
  (first.ending start second).bind start fun _ _ holds _ => holds

theorem weaken {given' kept' : FileTree → Prop} {goal goal' : α → World → Prop} {task : Task α}
    (along : task.Along given kept goal world) (less : ∀ tree, given' tree → given tree)
    (more : ∀ tree, kept tree → kept' tree) (value : ∀ value last, goal value last →
      goal' value last) : task.Along given' kept' goal' world := by
  induction task generalizing world with
  | done result => exact value result world along
  | ask operation next ih =>
    intro met
    obtain ⟨keeps, later⟩ := along (less _ met)
    exact ⟨more _ keeps, ih _ later⟩

/-- What is kept without condition is true at the end. -/
theorem run {goal : α → World → Prop} {task : Task α}
    (along : task.Along (fun _ => True) kept goal world) (start : kept world.tree) :
    kept (task.run world).2.tree := by
  induction task generalizing world with
  | done value => exact start
  | ask operation next ih =>
    obtain ⟨keeps, later⟩ := along trivial
    exact ih _ later keeps

theorem of_idle {task : Task α} (idle : task.Idle) (start : kept world.tree) :
    task.Along given kept (fun _ _ => True) world := by
  induction task generalizing world with
  | done value => exact trivial
  | ask operation next ih =>
    have same : kept (world.perform operation).2.tree := (idle.1 world).symm ▸ start
    exact fun _ => ⟨same, ih _ (idle.2 _) same⟩

/-- What is kept as long as a condition is met is true at every moment up to which the condition
was. -/
theorem after {goal : α → World → Prop} {task : Task α}
    (along : task.Along given kept goal world) (start : kept world.tree) {count : Nat}
    (met : ∀ earlier ≤ count, given (Task.after earlier task world).tree) :
    kept (Task.after count task world).tree := by
  induction count generalizing task world with
  | zero => exact start
  | succ count ih =>
    cases task with
    | done value => exact start
    | ask operation next =>
      have now : given (world.perform operation).2.tree := met 1 (Nat.le_add_left 1 count)
      obtain ⟨keeps, later⟩ := along now
      exact ih later keeps fun earlier before => met (earlier + 1) (Nat.succ_le_succ before)

end Along

end Task

namespace Run

open MailMerge.Task (Idle)

theorem idle_openTemplate (path : Path) : (openTemplate path).Idle := by
  refine (Idle.perform fun _ => rfl).bind fun reply => ?_
  split
  · exact .pure _
  · exact .pure _
  · split
    · exact .pure _
    · exact .pure _

theorem idle_noteAll (level : Journal.Level) (messages : List String) :
    (noteAll level messages).Idle := by
  induction messages with
  | nil => exact .pure ()
  | cons message rest ih => exact (Idle.note ..).bind fun _ => ih

theorem idle_noteUnprovided (request : Request) : (noteUnprovided request).Idle := by
  rw [noteUnprovided]
  cases request.rows.isEmpty with
  | true => exact .pure _
  | false =>
    have looked : (templatePlaceholders request.template).Idle := by
      refine (Idle.perform fun _ => rfl).bind fun reply => ?_
      split
      · exact .pure _
      · split
        · exact .pure _
        · exact .pure _
    refine looked.bind fun names => ?_
    cases names with
    | error failure => exact .pure _
    | ok names => exact (idle_noteAll ..).bind fun _ => .pure _

theorem idle_noteRepetitions (request : Request) : (noteRepetitions request).Idle := by
  rw [noteRepetitions]
  cases request.duplicatePolicy with
  | overwrite => exact idle_noteAll ..
  | error => exact .pure ()

theorem idle_noteReport (request : Request) (report : Report) :
    (noteReport request report).Idle := by
  rw [noteReport]
  cases report.cancelled with
  | true => exact (Idle.note ..).bind fun _ => .note ..
  | false => exact .note ..

/-- Planning a request only looks. -/
theorem idle_planOnly (request : Request) : (planOnly request).Idle := by
  refine (idle_openTemplate request.template).bind fun reply => ?_
  cases reply with
  | error failure => exact .pure _
  | ok _ => exact (idle_noteRepetitions request).bind fun _ => .pure _

end Run

end MailMerge
