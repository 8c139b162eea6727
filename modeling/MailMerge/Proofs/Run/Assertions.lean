import Mathlib.Tactic.Choose
import MailMerge.World

/-!
# Tasks that are interrupted by others

What a task does between two of its own operations is nothing, but others may do something.  A task
is secure for an assertion when every operation of it, performed in a scene of which the assertion
holds, is a step that it is allowed to take, and what it knows from then on stays true whatever the
others do (`Task.Secure`).  What the others may do is the relation relied on; what the task may do
is the relation of its own steps.

Secure tasks are put together like tasks: an operation is secure by itself (`Secure.perform`), and a
task that goes on with another one is secure if each part is (`Secure.bind`).
-/

namespace MailMerge

set_option autoImplicit false

/-- A world in which a run is going on, and whether that run is being halted. -/
structure Scene where
  /-- Whether an inquiry for cancellation is answered with yes in any case. -/
  halted : Bool
  /-- The world. -/
  world : World

namespace Scene

/-- What a task gets to hear as the reply to an operation. -/
def reply (scene : Scene) (operation : Operation) : operation.Reply :=
  Task.heard scene.halted operation (scene.world.perform operation).1

/-- The scene after an operation. -/
def after (scene : Scene) (operation : Operation) : Scene :=
  ⟨scene.halted, (scene.world.perform operation).2⟩

/-- The files and directories. -/
abbrev tree (scene : Scene) : FileTree := scene.world.tree

/-- Whether the run is being halted or has been cancelled. -/
def stopping (scene : Scene) : Bool := scene.world.cancelled || scene.halted

/-- The scene after a change of the tree, or as it is if the change failed. -/
def changed (scene : Scene) : Except Fault FileTree → Scene
  | .ok tree => ⟨scene.halted, { scene.world with tree }⟩
  | .error _ => scene

/-! ## Changes of the tree -/

variable (scene : Scene) (path : Path)

theorem reply_createDirectory : scene.reply (.createDirectory path) =
    (scene.tree.createDirectory path).map fun _ => () := by
  change (scene.world.update (scene.tree.createDirectory path)).1 = _
  unfold World.update
  cases scene.tree.createDirectory path <;> rfl

theorem after_createDirectory : scene.after (.createDirectory path) =
    scene.changed (scene.tree.createDirectory path) := by
  change Scene.mk scene.halted (scene.world.update (scene.tree.createDirectory path)).2 = _
  unfold World.update
  cases scene.tree.createDirectory path <;> rfl

theorem reply_create :
    scene.reply (.create path) = (scene.tree.create path).map fun _ => () := by
  change (scene.world.update (scene.tree.create path)).1 = _
  unfold World.update
  cases scene.tree.create path <;> rfl

theorem after_create : scene.after (.create path) = scene.changed (scene.tree.create path) := by
  change Scene.mk scene.halted (scene.world.update (scene.tree.create path)).2 = _
  unfold World.update
  cases scene.tree.create path <;> rfl

theorem reply_append (octets : Bytes) :
    scene.reply (.append path octets) = (scene.tree.append path octets).map fun _ => () := by
  change (scene.world.update (scene.tree.append path octets)).1 = _
  unfold World.update
  cases scene.tree.append path octets <;> rfl

theorem after_append (octets : Bytes) :
    scene.after (.append path octets) = scene.changed (scene.tree.append path octets) := by
  change Scene.mk scene.halted (scene.world.update (scene.tree.append path octets)).2 = _
  unfold World.update
  cases scene.tree.append path octets <;> rfl

theorem after_remove : scene.after (.remove path) = scene.changed (scene.tree.remove path) := by
  change Scene.mk scene.halted (scene.world.update (scene.tree.remove path)).2 = _
  unfold World.update
  cases scene.tree.remove path <;> rfl

end Scene

/-- What may be true of a scene. -/
abbrev Assertion := Scene → Prop

/-- An assertion that stays true whatever happens in some relation. -/
def Assertion.Steady (rely : Scene → Scene → Prop) (now : Assertion) : Prop :=
  ∀ scene next, rely scene next → now scene → now next

theorem Assertion.Steady.and {rely : Scene → Scene → Prop} {left right : Assertion}
    (first : left.Steady rely) (second : right.Steady rely) :
    Assertion.Steady rely fun scene => left scene ∧ right scene :=
  fun scene next relied both => ⟨first scene next relied both.1, second scene next relied both.2⟩

theorem Assertion.Steady.of_imp {rely : Scene → Scene → Prop} {fact : Prop} {now : Assertion}
    (steady : now.Steady rely) : Assertion.Steady rely fun scene => fact → now scene :=
  fun scene next relied holds given => steady scene next relied (holds given)

theorem Assertion.Steady.or_const {rely : Scene → Scene → Prop} {now : Assertion} {fact : Prop}
    (steady : now.Steady rely) : Assertion.Steady rely fun scene => now scene ∨ fact :=
  fun scene next relied holds => holds.imp_left (steady scene next relied)

namespace Task

variable {α β : Type} {rely step : Scene → Scene → Prop}

/-- Every operation of the task is a step allowed to it, and ends in a scene of which an assertion
holds that the others keep; at the end the value has the property asked for. -/
def Secure (rely step : Scene → Scene → Prop) (goal : α → Assertion) : Task α → Assertion → Prop
  | .done value, now => ∀ scene, now scene → goal value scene
  | .ask operation next, now => ∃ later : operation.Reply → Assertion,
    (∀ reply, (later reply).Steady rely) ∧
    (∀ scene, now scene → step scene (scene.after operation) ∧
      later (scene.reply operation) (scene.after operation)) ∧
    ∀ reply, (next reply).Secure rely step goal (later reply)

namespace Secure

theorem pure {goal : α → Assertion} {value : α} {now : Assertion}
    (holds : ∀ scene, now scene → goal value scene) :
    (Pure.pure value : Task α).Secure rely step goal now := holds

theorem strengthen {goal : α → Assertion} {task : Task α} {now more : Assertion}
    (secure : task.Secure rely step goal now) (holds : ∀ scene, more scene → now scene) :
    task.Secure rely step goal more := by
  cases task with
  | done value => exact fun scene more => secure scene (holds scene more)
  | ask operation next =>
    obtain ⟨later, steady, steps, rest⟩ := secure
    exact ⟨later, steady, fun scene more => steps scene (holds scene more), rest⟩

theorem weaken {goal less : α → Assertion} {task : Task α} {now : Assertion}
    (secure : task.Secure rely step goal now)
    (holds : ∀ value scene, goal value scene → less value scene) :
    task.Secure rely step less now := by
  induction task generalizing now with
  | done value => exact fun scene start => holds value scene (secure scene start)
  | ask operation next ih =>
    obtain ⟨later, steady, steps, rest⟩ := secure
    exact ⟨later, steady, steps, fun reply => ih reply (rest reply)⟩

theorem bind {middle : α → Assertion} {goal : β → Assertion} {task : Task α} {rest : α → Task β}
    {now : Assertion} (first : task.Secure rely step middle now)
    (second : ∀ value, (rest value).Secure rely step goal (middle value)) :
    (task >>= rest).Secure rely step goal now := by
  induction task generalizing now with
  | done value => exact (second value).strengthen first
  | ask operation next ih =>
    obtain ⟨later, steady, steps, secure⟩ := first
    exact ⟨later, steady, steps, fun reply => ih reply (secure reply)⟩

theorem perform {operation : Operation} {goal : operation.Reply → Assertion} {now : Assertion}
    (steady : ∀ reply, (goal reply).Steady rely)
    (steps : ∀ scene, now scene → step scene (scene.after operation) ∧
      goal (scene.reply operation) (scene.after operation)) :
    (Task.perform operation).Secure rely step goal now :=
  ⟨goal, steady, steps, fun _ _ holds => holds⟩

/-- A task may be secure for two reasons at once. -/
theorem and {first second : α → Assertion} {task : Task α} {left right : Assertion}
    (one : task.Secure rely step first left) (two : task.Secure rely step second right) :
    task.Secure rely step (fun value scene => first value scene ∧ second value scene)
      fun scene => left scene ∧ right scene := by
  induction task generalizing left right with
  | done value => exact fun scene both => ⟨one scene both.1, two scene both.2⟩
  | ask operation next ih =>
    obtain ⟨later, steady, steps, rest⟩ := one
    obtain ⟨later', steady', steps', rest'⟩ := two
    refine ⟨fun reply scene => later reply scene ∧ later' reply scene,
      fun reply => (steady reply).and (steady' reply), fun scene both => ?_,
      fun reply => ih reply (rest reply) (rest' reply)⟩
    exact ⟨(steps scene both.1).1, (steps scene both.1).2, (steps' scene both.2).2⟩

/-- What never happens need not be looked after. -/
theorem impossible {goal : α → Assertion} (task : Task α) :
    task.Secure rely step goal fun _ => False := by
  induction task with
  | done value => exact fun _ never => never.elim
  | ask operation next ih =>
    exact ⟨fun _ _ => False, fun _ _ _ _ never => never, fun _ never => never.elim, ih⟩

/-- A fact that does not depend on the scene may be used as one. -/
theorem assuming {goal : α → Assertion} {task : Task α} {now : Assertion} {fact : Prop}
    (secure : fact → task.Secure rely step goal now) :
    task.Secure rely step goal fun scene => now scene ∧ fact := by
  by_cases holds : fact
  · exact (secure holds).strengthen fun _ both => both.1
  · exact (impossible task).strengthen fun _ both => holds both.2

/-- What is true for some value may be used for that value. -/
theorem exists_now {ι : Type} {goal : α → Assertion} {task : Task α} {now : ι → Assertion}
    (secure : ∀ value, task.Secure rely step goal (now value)) :
    task.Secure rely step goal fun scene => ∃ value, now value scene := by
  induction task generalizing now with
  | done result =>
    rintro scene ⟨value, holds⟩
    exact secure value scene holds
  | ask operation next ih =>
    choose later steady steps rest using secure
    refine ⟨fun reply scene => ∃ value, later value reply scene, ?_, ?_,
      fun reply => ih reply fun value => rest value reply⟩
    · rintro reply scene other relied ⟨value, holds⟩
      exact ⟨value, steady value reply scene other relied holds⟩
    · rintro scene ⟨value, holds⟩
      exact ⟨(steps value scene holds).1, value, (steps value scene holds).2⟩

end Secure

end Task

end MailMerge
