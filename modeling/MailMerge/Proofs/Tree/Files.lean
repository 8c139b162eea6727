import MailMerge.Proofs.Tree.Resolution
import MailMerge.Report.Document
import MailMerge.World

/-!
# Files that are written

To create a file or to add to it leaves all paths leading where they led, so the file can be read at
the path at which it was written, and every other file is as it was.

A file that is written as a whole takes two operations, and an answer that this went well is only an
answer.  What it is worth is stated here: the file has been written if and only if the octets can be
read at the path afterwards, and nothing has changed otherwise (`Task.run_writeFile_iff`).
-/

namespace MailMerge

set_option autoImplicit false

/-! ## Reading what is there -/

namespace FileTree

variable {tree next : FileTree} {path other : Path} {content : Bytes}

/-- A file that is set where no directory is leaves all paths leading where they led. -/
theorem target_set_file {name : Bytes} {above : Location}
    (noDirectory : ¬ tree.HasDirectory (name :: above)) {goal : Target}
    (found : tree.target path = .ok goal) :
    FileTree.target (tree.set (name :: above) (.file content)) path = .ok goal := by
  have kept : ∀ location, tree.HasDirectory location →
      (tree.set (name :: above) (.file content)).HasDirectory location := by
    intro location directory
    exact (hasDirectory_set_file noDirectory ..).2 directory
  exact target_mono (base_set ..) kept found

/-- It is read at each path that leads there. -/
theorem read_set_file {name : Bytes} {above : Location}
    (noDirectory : ¬ tree.HasDirectory (name :: above))
    (found : tree.target path = .ok (.place (name :: above) false)) :
    FileTree.read (tree.set (name :: above) (.file content)) path = .ok content := by
  refine read_of_target (target_set_file noDirectory found) ?_
  rw [content?_set_file, if_pos rfl]

/-- A file can be added to, and holds afterwards what it held and what was added. -/
theorem read_append (there : tree.read path = .ok content) (octets : Bytes) :
    ∃ next, tree.append path octets = .ok next ∧ next.read path = .ok (content ++ octets) := by
  obtain ⟨location, found⟩ := exists_find_of_read there
  obtain ⟨name, above, rfl, target, -, noDirectory⟩ := exists_cons_of_find found
  exact ⟨_, by rw [append, found], read_set_file noDirectory target⟩

/-- A file that has been created is empty. -/
theorem read_create (created : tree.create path = .ok next) : next.read path = .ok [] := by
  obtain ⟨name, above, target, noDirectory, rfl⟩ := exists_of_create created
  exact read_set_file noDirectory target

/-- Files at other places are as they were when a file has been created. -/
theorem read_create_of_ne (created : tree.create path = .ok next)
    (there : tree.read other = .ok content) (apart : tree.target path ≠ tree.target other) :
    next.read other = .ok content := by
  obtain ⟨name, above, target, noDirectory, rfl⟩ := exists_of_create created
  obtain ⟨location, found⟩ := exists_find_of_read there
  obtain ⟨target', held⟩ := target_of_find found
  refine read_of_target (target_set_file noDirectory target') ?_
  have elsewhere : location ≠ name :: above := by
    rintro rfl
    exact apart (target.trans target'.symm)
  rw [content?_set_file, if_neg elsewhere, held]

/-- A file that can be read can be created anew. -/
theorem exists_create_of_read (there : tree.read path = .ok content) :
    ∃ next, tree.create path = .ok next := by
  obtain ⟨location, found⟩ := exists_find_of_read there
  obtain ⟨target, file⟩ := target_of_find found
  refine ⟨tree.set location (.file []), ?_⟩
  simp [create, target, content?_eq_some.1 file]

/-- What is added to a new file is all that it holds, and no other entry is touched. -/
theorem append_of_created (created : tree.create path = .ok next) (octets : Bytes) :
    ∃ name above, tree.target path = .ok (.place (name :: above) false) ∧
      ¬ tree.HasDirectory (name :: above) ∧
      next.append path octets = .ok (tree.set (name :: above) (.file octets)) := by
  obtain ⟨name, above, target, noDirectory, rfl⟩ := exists_of_create created
  refine ⟨name, above, target, noDirectory, ?_⟩
  have there : FileTree.find (tree.set (name :: above) (.file [])) path =
      .ok (name :: above, .file []) := by
    refine find_of_target (target_set_file noDirectory target) ?_
    rw [content?_set_file, if_pos rfl]
  rw [append, there]
  simp [set]

end FileTree

/-! ## Tasks -/

namespace Task

variable {path : Path} {world : World} {content : Bytes}

theorem run_read (there : world.tree.read path = .ok content) :
    (Task.read path).run world = (.ok content, world) := by
  change (world.tree.read path, world) = _
  rw [there]

theorem run_kind (there : world.tree.read path = .ok content) :
    (Task.kind path).run world = (.ok .file, world) := by
  obtain ⟨location, found⟩ := FileTree.exists_find_of_read there
  change (world.tree.kind path, world) = _
  rw [FileTree.kind, found]
  rfl

theorem run_create {tree : FileTree} (created : world.tree.create path = .ok tree) :
    (Task.create path).run world = (.ok (), { world with tree }) := by
  change world.update (world.tree.create path) = _
  rw [created]
  rfl

theorem run_append (there : world.tree.read path = .ok content) (octets : Bytes) :
    ∃ next : World, (Task.append path octets).run world = (.ok (), next) ∧
      next.cancelled = world.cancelled ∧ next.tree.read path = .ok (content ++ octets) := by
  obtain ⟨tree, appended, held⟩ := FileTree.read_append there octets
  refine ⟨{ world with tree }, ?_, rfl, held⟩
  change world.update (world.tree.append path octets) = _
  rw [appended]
  rfl

/-! ## A file as a whole -/

/-- Where a file can be created, that is where the octets are afterwards. -/
theorem run_writeFile {tree : FileTree} (created : world.tree.create path = .ok tree)
    (octets : Bytes) : ∃ name above, world.tree.target path = .ok (.place (name :: above) false) ∧
      ¬ world.tree.HasDirectory (name :: above) ∧ (writeFile path octets).run world =
        (.ok (), { world with tree := world.tree.set (name :: above) (.file octets) }) := by
  obtain ⟨name, above, target, noDirectory, appended⟩ := FileTree.append_of_created created octets
  refine ⟨name, above, target, noDirectory, ?_⟩
  rw [writeFile, andThen, Task.run_bind, run_create created]
  change World.update { world with tree } (tree.append path octets) = _
  rw [appended]
  rfl

/-- Where none can be created, nothing happens. -/
theorem run_writeFile_of_failed {fault : Fault} (failed : world.tree.create path = .error fault)
    (octets : Bytes) : (writeFile path octets).run world = (.error fault, world) := by
  have tried : (Task.create path).run world = (.error fault, world) := by
    change world.update (world.tree.create path) = _
    rw [failed]
    rfl
  rw [writeFile, andThen, Task.run_bind, tried]
  rfl

/-- A file has been written if and only if the octets can be read afterwards, and if it has not the
world is as it was. -/
theorem run_writeFile_iff (path : Path) (octets : Bytes) (world : World) :
    (((writeFile path octets).run world).1 = .ok () ↔
      ((writeFile path octets).run world).2.tree.read path = .ok octets) ∧
    ∀ fault, ((writeFile path octets).run world).1 = .error fault →
      ((writeFile path octets).run world).2 = world := by
  cases created : world.tree.create path with
  | ok tree =>
    obtain ⟨name, above, target, noDirectory, ran⟩ := run_writeFile created octets
    rw [ran]
    exact ⟨iff_of_true rfl (FileTree.read_set_file noDirectory target), nofun⟩
  | error fault =>
    rw [run_writeFile_of_failed created octets]
    refine ⟨iff_of_false nofun ?_, fun _ _ => rfl⟩
    intro there
    obtain ⟨tree, ok⟩ := FileTree.exists_create_of_read there
    simp [created] at ok

end Task

end MailMerge
