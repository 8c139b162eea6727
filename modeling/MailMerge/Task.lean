import MailMerge.FileTree
import MailMerge.Journal.Filter

/-!
# Tasks

What a run does to the world outside is described by data.  A task is finished, or it asks for one
operation and goes on with the reply.  Nothing happens when a task is built; it is carried out by
something that performs the operations, be it a `World` that is a value or the system itself.

Because a task says which operation comes next, several tasks can be carried out in turns, operation
by operation, and a task can be cut off between any two operations (`Task.after`).
-/

namespace MailMerge

set_option autoImplicit false

/-! ## Operations -/

/-- What a task may ask for. -/
inductive Operation where
  /-- The kind of the entry that a path leads to. -/
  | kind (path : Path)
  /-- The content of a file. -/
  | read (path : Path)
  /-- A directory where nothing is. -/
  | createDirectory (path : Path)
  /-- An empty file. -/
  | create (path : Path)
  /-- Octets at the end of a file. -/
  | append (path : Path) (octets : Bytes)
  /-- A file moved to another path. -/
  | rename (source destination : Path)
  /-- A file removed. -/
  | remove (path : Path)
  /-- Whether the run has been cancelled. -/
  | isCancelled
  /-- The run cancelled. -/
  | cancel
  /-- A notice given. -/
  | note (notice : Journal.Notice)
  /-- From now on notices displayed in this way. -/
  | display (display : Journal.Display)
  /-- The value of an environment variable. -/
  | variable (name : String)
  /-- Text written to the output. -/
  | print (text : String)
  /-- Text written to the error output. -/
  | printError (text : String)

/-- The reply to an operation. -/
def Operation.Reply : Operation → Type
  | .kind _ => Except Fault Kind
  | .read _ => Except Fault Bytes
  | .createDirectory _ | .create _ | .append _ _ | .rename _ _ | .remove _ => Except Fault Unit
  | .isCancelled => Bool
  | .variable _ => Option Bytes
  | .cancel | .note _ | .display _ | .print _ | .printError _ => Unit

/-! ## Tasks -/

/-- A computation that asks for operations one after another. -/
inductive Task (α : Type) where
  /-- Nothing is left to do. -/
  | done (value : α)
  /-- An operation is needed, and its reply says how to go on. -/
  | ask (operation : Operation) (next : operation.Reply → Task α)

namespace Task

/-- The task that goes on with another one when it is done. -/
def bind {α β : Type} : Task α → (α → Task β) → Task β
  | .done value, rest => rest value
  | .ask operation next, rest => .ask operation fun reply => (next reply).bind rest

instance : Monad Task where
  pure := .done
  bind := .bind

@[simp] theorem pure_bind {α β : Type} (value : α) (rest : α → Task β) :
    (pure value >>= rest : Task β) = rest value := rfl

@[simp] theorem done_bind {α β : Type} (value : α) (rest : α → Task β) :
    (Task.done value >>= rest : Task β) = rest value := rfl

@[simp] theorem ask_bind {α β : Type} (operation : Operation)
    (next : operation.Reply → Task α) (rest : α → Task β) :
    (Task.ask operation next >>= rest : Task β) =
      .ask operation fun reply => next reply >>= rest := rfl

/-- The task that asks for one operation and returns the reply. -/
def perform (operation : Operation) : Task operation.Reply := .ask operation .done

/-- The kind of the entry that a path leads to. -/
def kind (path : Path) : Task (Except Fault Kind) := perform (.kind path)

/-- The content of a file. -/
def read (path : Path) : Task (Except Fault Bytes) := perform (.read path)

/-- A directory where nothing is. -/
def createDirectory (path : Path) : Task (Except Fault Unit) := perform (.createDirectory path)

/-- An empty file. -/
def create (path : Path) : Task (Except Fault Unit) := perform (.create path)

/-- Octets at the end of a file. -/
def append (path : Path) (octets : Bytes) : Task (Except Fault Unit) :=
  perform (.append path octets)

/-- A file moved to another path. -/
def rename (source destination : Path) : Task (Except Fault Unit) :=
  perform (.rename source destination)

/-- A file removed. -/
def remove (path : Path) : Task (Except Fault Unit) := perform (.remove path)

/-- Whether the run has been cancelled. -/
def isCancelled : Task Bool := perform .isCancelled

/-- The run cancelled. -/
def cancel : Task Unit := perform .cancel

/-- A notice of some level. -/
def note (level : Journal.Level) (message : String) (row : Option Nat) : Task Unit :=
  perform (.note ⟨level, message, row⟩)

/-- Text written to the output. -/
def print (text : String) : Task Unit := perform (.print text)

/-- Text written to the error output. -/
def printError (text : String) : Task Unit := perform (.printError text)

/-- The task that goes on with another one if it succeeds, and otherwise ends with its failure. -/
def andThen {ε α β : Type} (task : Task (Except ε α)) (rest : α → Task (Except ε β)) :
    Task (Except ε β) := do
  match ← task with
  | .ok value => rest value
  | .error failure => pure (.error failure)

/-! ## Directories -/

/-- Whatever went wrong in making a directory, it does not matter if the directory is there. -/
def unlessDirectory (path : Path) (fault : Fault) : Task (Except Fault Unit) := do
  match ← kind path with
  | .ok .directory => return .ok ()
  | _ => return .error fault

/-- A directory at a path, unless there is one. -/
def ensureDirectory (path : Path) : Task (Except Fault Unit) := do
  match ← createDirectory path with
  | .ok () => return .ok ()
  | .error fault => unlessDirectory path fault

/-- Directories at the first of some paths, each of which is the parent of the one before, and at as
many of the others as are missing.  The paths are tried from the first on until one is there or can be
created; then the missing ones are created on the way back. -/
def createAlong : List Path → Task (Except Fault Unit)
  | [] => pure (.ok ())
  | path :: above =>
    if path.components.isEmpty then pure (.ok ())
    else do
      match ← createDirectory path with
      | .ok () => return .ok ()
      | .error .notFound =>
        match ← createAlong above with
        | .ok () => ensureDirectory path
        | .error fault => return .error fault
      | .error fault => unlessDirectory path fault

/-- Directories at a path and at all its ancestors, one after another. -/
def createDirectories (path : Path) : Task (Except Fault Unit) :=
  createAlong (FileTree.ancestors path.bytes.length path)

/-! ## Taking turns -/

/-- What a task gets to hear as the reply to an operation.  In a run that is being `halted`, an inquiry
whether the run has been cancelled is answered with yes. -/
def heard (halted : Bool) : (operation : Operation) → operation.Reply → operation.Reply
  | .isCancelled => fun cancelled : Bool => cancelled || halted
  | _ => id

/-- The first operation of a task, and then the task that is left of it. -/
def advance {α : Type} (halted : Bool) : Task α → Task (Task α)
  | .done value => .done (.done value)
  | .ask operation next => .ask operation fun reply => .done (next (heard halted operation reply))

/-- Whether nothing is left to do. -/
def isDone {α : Type} : Task α → Bool
  | .done _ => true
  | .ask _ _ => false

end Task

end MailMerge
