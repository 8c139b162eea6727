import MailMerge.Task

/-!
# Worlds

A world is everything outside that a task can see or change, as a value: the file tree, whether the
run has been cancelled, the environment variables, the notices given so far and what has been written
to the two outputs.  `World.perform` says what each operation does to it, and `Task.run` carries a
task out.

A world also knows when the person at the terminal will interrupt the run, as a number of files that
are still to be moved into place before that.
-/

namespace MailMerge

set_option autoImplicit false

/-- Everything outside that a task can see or change. -/
structure World where
  /-- The files and directories. -/
  tree : FileTree
  /-- Whether the run has been cancelled. -/
  cancelled : Bool := false
  /-- After how many more files the run will be cancelled, if it will be. -/
  patience : Option Nat := none
  /-- The environment variables with their values. -/
  «variables» : List (Bytes × Bytes) := []
  /-- The notices given so far. -/
  notices : List Journal.Notice := []
  /-- How notices are displayed, if they are. -/
  display : Option Journal.Display := none
  /-- What has been written to the output. -/
  output : String := ""
  /-- What has been written to the error output. -/
  errorOutput : String := ""

namespace World

/-- The value of a variable: of the entries `name=value` the first that begins with the name and an
equals sign has it behind that sign. -/
def valueOf? (world : World) (name : Bytes) : Option Bytes :=
  if name.contains 0 then none
  else
    world.«variables».findSome? fun entry =>
      let text := entry.1 ++ 0x3D :: entry.2
      if (name ++ [0x3D]).isPrefixOf text then some (text.drop (name.length + 1)) else none

/-- The world after a change of the tree, or as it is if the change failed. -/
def update (world : World) (change : Except Fault FileTree) : Except Fault Unit × World :=
  match change with
  | .ok tree => (.ok (), { world with tree })
  | .error fault => (.error fault, world)

/-- The world after one more file has been moved into place. -/
def countMoved (world : World) : World :=
  match world.patience with
  | none => world
  | some n => if n ≤ 1 then { world with cancelled := true, patience := none }
    else { world with patience := some (n - 1) }

/-- The reply to an operation, and the world after it. -/
def perform (world : World) : (operation : Operation) → operation.Reply × World
  | .kind path => (world.tree.kind path, world)
  | .read path => (world.tree.read path, world)
  | .createDirectory path => world.update (world.tree.createDirectory path)
  | .create path => world.update (world.tree.create path)
  | .append path octets => world.update (world.tree.append path octets)
  | .rename source destination =>
    match world.tree.rename source destination with
    | .ok tree => (.ok (), { world with tree }.countMoved)
    | .error fault => (.error fault, world)
  | .remove path => world.update (world.tree.remove path)
  | .isCancelled => (world.cancelled, world)
  | .cancel => ((), { world with cancelled := true })
  | .note notice =>
    let line := (world.display.bind (·.line? notice)).getD ""
    ((), { world with notices := world.notices ++ [notice], output := world.output ++ line })
  | .display display => ((), { world with display := some display })
  | .variable name => (world.valueOf? (utf8 name), world)
  | .print text => ((), { world with output := world.output ++ text })
  | .printError text => ((), { world with errorOutput := world.errorOutput ++ text })

end World

namespace Task

/-- The value of a task carried out in a world, and the world afterwards. -/
def run {α : Type} : Task α → World → α × World
  | .done value, world => (value, world)
  | .ask operation next, world =>
    (next (world.perform operation).1).run (world.perform operation).2

/-- The world after at most `count` operations of a task. -/
def after {α : Type} : Nat → Task α → World → World
  | 0, _, world => world
  | _ + 1, .done _, world => world
  | count + 1, .ask operation next, world =>
    after count (next (world.perform operation).1) (world.perform operation).2

@[simp] theorem run_pure {α : Type} (value : α) (world : World) :
    (pure value : Task α).run world = (value, world) := rfl

@[simp] theorem run_done {α : Type} (value : α) (world : World) :
    (Task.done value).run world = (value, world) := rfl

/-- Carrying out two tasks in a row is carrying out the second in the world that the first leaves. -/
@[simp] theorem run_bind {α β : Type} (task : Task α) (rest : α → Task β) (world : World) :
    (task >>= rest).run world = (rest (task.run world).1).run (task.run world).2 := by
  induction task generalizing world with
  | done value => rfl
  | ask operation next ih => exact ih _ _

@[simp] theorem run_perform (operation : Operation) (world : World) :
    (perform operation).run world = world.perform operation := rfl

end Task

end MailMerge
