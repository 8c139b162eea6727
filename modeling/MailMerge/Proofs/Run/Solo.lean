import MailMerge.Proofs.Run.Generation

/-!
# Rows that work by themselves

When only one row is in the making, nothing happens to the tree between its operations, and what it
does can be told whatever its temporary file is in the way of.  The file at the location of the
temporary file, if there is one, is lost; the row reads the template after that
(`Site.held_alone`).

The terms here are those of the row alone (`Site.alone`): it relies on a tree that stays as it is,
may do what it likes, and only has to account for what it has done when it succeeds.
-/

namespace MailMerge

open MailMerge.Path (IsPlain)
open Run (Assignment Staged)

set_option autoImplicit false

namespace Site

/-! ## Trees between rows -/

/-- A tree in which rows have worked one after another, with the regular files given.  As long as
the directory is not there no file has been touched. -/
structure Sole (site : Site) (files : Files) (tree : FileTree) : Prop where
  base : tree.base = site.before.base
  kept : ∀ location, site.before.HasDirectory location → tree.HasDirectory location
  free : ∀ location, tree.HasDirectory location → site.before.content? location = none
  contents : ∀ location, tree.content? location = files location
  early : ¬ site.Reached tree → ∀ location, files location = site.before.content? location

/-- A row that has the given name for its file. -/
structure Chosen (site : Site) (assignment : Assignment) (name : Bytes) : Prop where
  plain : IsPlain name
  destination : assignment.destination = .ok (site.directory.join ⟨name⟩)

variable {site : Site} {assignment : Assignment} {name : Bytes} {files : Files} {tree : FileTree}

theorem sole_before : site.Sole site.before.content? site.before where
  base := rfl
  kept _ directory := directory
  free _ directory := directory.content?
  contents _ := rfl
  early _ _ := rfl

/-- What a path leads to was its location before the run. -/
theorem Sole.location?_of_target (sole : site.Sole files tree) {path : Path} {location : Location}
    {wanted : Bool} (found : tree.target path = .ok (.place location wanted)) :
    site.before.location? path = some location :=
  FileTree.location?_of_target sole.base sole.free found

/-- What is read from the template is the file at its location before the run. -/
theorem Sole.content?_of_read (sole : site.Sole files tree)
    (located : site.before.location? site.template = some site.mark) {content : Bytes}
    (reading : tree.read site.template = .ok content) :
    tree.content? site.mark = some content := by
  unfold FileTree.read at reading
  split at reading
  case h_2 => simp at reading
  case h_3 => simp at reading
  case h_1 location _ found =>
    obtain ⟨target, file⟩ := FileTree.target_of_find found
    obtain rfl := Option.some.inj (located.symm.trans (sole.location?_of_target target))
    exact file.trans (congrArg some (Except.ok.inj reading))

/-- What can be read at an entry of the directory is the file at its location. -/
theorem Sole.read_iff (sole : site.Sole files tree) (reached : site.Reached tree)
    (plain : IsPlain name) {home : Location}
    (located : site.before.location? (site.directory.join ⟨name⟩) = some home) {octets : Bytes} :
    tree.read (site.directory.join ⟨name⟩) = .ok octets ↔ files home = some octets := by
  obtain ⟨above, walked⟩ := reached.walk
  have target := FileTree.target_of_location?_join sole.base sole.free walked plain located
  rw [← sole.contents]
  constructor
  · intro reading
    unfold FileTree.read at reading
    split at reading
    case h_1 place content found =>
      obtain ⟨target', file⟩ := FileTree.target_of_find found
      obtain ⟨rfl, _⟩ := FileTree.Target.place.inj (Except.ok.inj (target.symm.trans target'))
      rw [file, Except.ok.inj reading]
    case h_2 => simp at reading
    case h_3 => simp at reading
  · intro file
    rw [FileTree.read, FileTree.find_of_target target file]

/-- Directories are made without touching any file. -/
theorem Sole.createDirectory (sole : site.Sole site.before.content? tree) {path : Path}
    {next : FileTree} (created : tree.createDirectory path = .ok next) :
    site.Sole site.before.content? next := by
  obtain ⟨name, above, _, _, vacant, rfl⟩ := FileTree.createDirectory_eq_ok created
  have same := FileTree.content?_set_directory vacant
  refine ⟨sole.base, fun location directory => ?_, fun location directory => ?_,
    fun location => (same location).trans (sole.contents location), fun _ _ => rfl⟩
  · exact (FileTree.hasDirectory_set_directory ..).2 (.inr (sole.kept location directory))
  · rw [← sole.contents, ← same]
    exact directory.content?

/-! ## Making the directory -/

/-- Nothing happens to the tree. -/
def Undisturbed (scene next : Scene) : Prop := next.tree = scene.tree

/-- Whatever may be done. -/
def Whatever (_ _ : Scene) : Prop := True

theorem steady_tree (property : FileTree → Prop) :
    Assertion.Steady Undisturbed fun scene => property scene.tree :=
  fun scene next same holds => by
    change property next.tree
    rwa [show next.tree = scene.tree from same]

/-- An attempt to make a directory that has succeeded, in a tree whose files nobody has touched. -/
def Untouched (site : Site) (path : Path) (result : Except Fault Unit) (tree : FileTree) : Prop :=
  site.Sole site.before.content? tree ∧ (result = .ok () → tree.isDirectory path = true)

theorem secure_createDirectory_untouched (path : Path) :
    (Task.createDirectory path).Secure Undisturbed Whatever
      (fun result scene => site.Untouched path result scene.tree)
      fun scene => site.Sole site.before.content? scene.tree := by
  refine .perform (fun _ => steady_tree _) fun scene sole => ⟨trivial, ?_⟩
  rw [Scene.reply_createDirectory, Scene.after_createDirectory]
  cases created : scene.tree.createDirectory path with
  | ok next =>
    exact ⟨sole.createDirectory created, fun _ => FileTree.isDirectory_of_createDirectory created⟩
  | error fault => exact ⟨sole, fun never => by simp [Except.map] at never⟩

theorem secure_unlessDirectory_untouched (path : Path) (fault : Fault) :
    (Task.unlessDirectory path fault).Secure Undisturbed Whatever
      (fun result scene => site.Untouched path result scene.tree)
      fun scene => site.Sole site.before.content? scene.tree := by
  have looked : (Task.kind path).Secure Undisturbed Whatever
      (fun reply scene => site.Sole site.before.content? scene.tree ∧
        scene.tree.kind path = reply) fun scene => site.Sole site.before.content? scene.tree :=
    .perform (fun _ => steady_tree fun tree => site.Sole _ tree ∧ tree.kind path = _)
      fun _ sole => ⟨trivial, sole, rfl⟩
  exact .unlessDirectory looked (fun _ holds => ⟨holds.1, fun _ =>
    FileTree.isDirectory_of_kind holds.2⟩) fun _ _ _ holds => ⟨holds.1, nofun⟩

theorem secure_ensureDirectory_untouched (path : Path) :
    (Task.ensureDirectory path).Secure Undisturbed Whatever
      (fun result scene => site.Untouched path result scene.tree)
      fun scene => site.Sole site.before.content? scene.tree := by
  refine .ensureDirectory (secure_createDirectory_untouched path) (fun _ holds => holds) ?_
  exact fun fault => (secure_unlessDirectory_untouched path fault).strengthen fun _ holds => holds.1

/-- On the way to a directory nothing but directories is made. -/
theorem secure_createAlong_untouched (paths : List Path) :
    (Task.createAlong paths).Secure Undisturbed Whatever
      (fun result scene => site.Sole site.before.content? scene.tree ∧ (result = .ok () →
        ∀ path ∈ paths.head?, path.bytes ≠ [] → scene.tree.isDirectory path = true))
      fun scene => site.Sole site.before.content? scene.tree := by
  induction paths with
  | nil => exact .pure fun _ sole => ⟨sole, by simp⟩
  | cons path above ih =>
    have made : ∀ (result : Except Fault Unit) (scene : Scene),
        site.Untouched path result scene.tree → site.Sole site.before.content? scene.tree ∧
          (result = .ok () → ∀ other ∈ (path :: above).head?, other.bytes ≠ [] →
            scene.tree.isDirectory other = true) := by
      intro result scene holds
      refine ⟨holds.1, fun ok other head _ => ?_⟩
      obtain rfl := Option.some.inj head
      exact holds.2 ok
    have again : (Task.ensureDirectory path).Secure Undisturbed Whatever _
        fun scene => site.Sole site.before.content? scene.tree :=
      (secure_ensureDirectory_untouched path).weaken made
    have looked : ∀ fault, (Task.unlessDirectory path fault).Secure Undisturbed Whatever _
        fun scene => site.Sole site.before.content? scene.tree :=
      fun fault => (secure_unlessDirectory_untouched path fault).weaken made
    refine .createAlong_cons (fun empty _ sole => ⟨sole, fun _ other head named => ?_⟩)
      (secure_createDirectory_untouched path) (made _) (ih.strengthen fun _ tried => tried.1)
      (again.strengthen fun _ climbed => climbed.1) (fun _ _ failed => ⟨failed.1, nofun⟩)
      fun fault _ => (looked fault).strengthen fun _ tried => tried.1
    obtain rfl := Option.some.inj head
    exact absurd (FileTree.components_isEmpty_iff.1 empty) named

/-- A row by itself finds the directory, or it has to make it in a tree that nobody has touched. -/
def Begun (site : Site) (files : Files) (tree : FileTree) : Prop :=
  site.Sole files tree ∧ site.Reached tree

theorem Sole.begun_of_untouched {path : Path} (needed : site.needed? = some path)
    (sole : site.Sole site.before.content? tree) (directory : tree.isDirectory path = true) :
    site.Begun site.before.content? tree := by
  refine ⟨sole, fun other needed' => ?_⟩
  obtain rfl := Option.some.inj (needed.symm.trans needed')
  exact directory

/-- When a row by itself has seen to its directory the files are as before. -/
theorem secure_ensureDirectory_alone (chosen : site.Chosen assignment name) (reached : Prop) :
    (Run.ensureDirectory (site.directory.join ⟨name⟩)).Secure Undisturbed Whatever
      (fun result scene => result = .ok () → site.Begun files scene.tree)
      fun scene => site.Sole files scene.tree ∧ (site.Reached scene.tree ↔ reached) := by
  refine .ensureDirectory_of_destination (fun home scene holds _ => ⟨holds.1, fun path needed => ?_⟩)
    fun path needed => ?_
  · simp [neededDirectory?_join site chosen.plain, needed] at home
  rw [neededDirectory?_join site chosen.plain] at needed
  by_cases there : reached
  · have begun : (Task.createDirectories path).Secure Undisturbed Whatever _ fun scene =>
        site.Begun files scene.tree :=
      Task.secure_createDirectories (needed?_eq_some needed).2 (steady_tree (site.Begun files))
        (fun _ begun => begun.2 path needed) fun _ _ => trivial
    exact (begun.strengthen fun scene holds => ⟨holds.1, holds.2.2 there⟩).weaken
      fun _ _ holds _ => holds.1
  · -- No file has been touched, so the files are those from before the run.
    refine .strengthen (.assuming fun same => ?_) fun scene (holds : _ ∧ _) =>
      ⟨holds.1, funext (holds.1.early fun already => there (holds.2.1 already))⟩
    subst same
    obtain ⟨above, same, _⟩ := exists_lineage needed
    rw [Task.createDirectories, same]
    refine (secure_createAlong_untouched (path :: above)).weaken fun reply scene holds ok => ?_
    cases reply with
    | ok _ =>
      exact holds.1.begun_of_untouched needed (holds.2 rfl path rfl (needed?_eq_some needed).2)
    | error fault => simp [Run.onPath] at ok

/-! ## The temporary file -/

/-- What is known when a row by itself has written something to its temporary file. -/
def Drafting (site : Site) (files : Files) (temporary : Path) (spot : Location) (octets : Bytes)
    (tree : FileTree) : Prop :=
  site.Begun (Function.update files spot (some octets)) tree ∧
    tree.target temporary = .ok (.place spot false)

/-- The files may change while the directories stay. -/
theorem Begun.change (begun : site.Begun files tree) {next : FileTree} {later : Files}
    (base : next.base = tree.base)
    (same : ∀ location, next.HasDirectory location ↔ tree.HasDirectory location)
    (contents : ∀ location, next.content? location = later location) :
    site.Begun later next := by
  obtain ⟨sole, reached⟩ := begun
  have reached : site.Reached next := reached.mono base fun location => (same location).2
  refine ⟨⟨base.trans sole.base, ?_, ?_, contents, fun missed => absurd reached missed⟩, reached⟩
  · exact fun location directory => (same location).2 (sole.kept location directory)
  · exact fun location directory => sole.free location ((same location).1 directory)

theorem Begun.drafting (begun : site.Begun files tree) {temporary : Path} {spot : Location}
    (found : tree.target temporary = .ok (.place spot false)) (vacant : ¬ tree.HasDirectory spot)
    (octets : Bytes) :
    site.Drafting files temporary spot octets (tree.set spot (.file octets)) := by
  obtain ⟨name, above, rfl⟩ := FileTree.exists_cons_of_place found
  have same := FileTree.hasDirectory_set_file vacant octets
  refine ⟨begun.change (FileTree.base_set ..) same fun location => ?_, ?_⟩
  · rw [FileTree.content?_set_file, Function.update_apply, begun.1.contents]
  · exact FileTree.target_mono (FileTree.base_set ..) (fun location => (same location).2) found

theorem Drafting.find {temporary : Path} {spot : Location} {octets : Bytes}
    (drafting : site.Drafting files temporary spot octets tree) :
    tree.find temporary = .ok (spot, .file octets) := by
  refine FileTree.find_of_target drafting.2 ?_
  rw [drafting.1.1.contents, Function.update_self]

theorem Drafting.noDirectory {temporary : Path} {spot : Location} {octets : Bytes}
    (drafting : site.Drafting files temporary spot octets tree) : ¬ tree.HasDirectory spot := by
  intro directory
  have file := drafting.1.1.contents spot
  rw [directory.content?, Function.update_self] at file
  simp at file

theorem Drafting.again {temporary : Path} {spot : Location} {octets : Bytes}
    (drafting : site.Drafting files temporary spot octets tree) (more : Bytes) :
    site.Drafting files temporary spot more (tree.set spot (.file more)) := by
  have again := drafting.1.drafting drafting.2 drafting.noDirectory more
  rwa [Drafting, Function.update_idem] at again

/-- The file is moved to where its destination leads. -/
theorem Drafting.moved {temporary destination : Path} {spot home : Location} {octets : Bytes}
    (drafting : site.Drafting files temporary spot octets tree)
    (landed : tree.landing destination = .ok home) :
    site.Begun (Function.update (Function.update files spot none) home (some octets))
        ((tree.erase spot).set home (.file octets)) ∧
      site.before.location? destination = some home := by
  obtain ⟨found, vacant⟩ := FileTree.target_of_landing landed
  obtain ⟨name, above, rfl⟩ := FileTree.exists_cons_of_place drafting.2
  obtain ⟨last, parent, rfl⟩ := FileTree.exists_cons_of_place found
  have erased := FileTree.hasDirectory_erase drafting.noDirectory
  have same := FileTree.hasDirectory_set_file
    (fun directory => vacant ((erased _).1 directory)) octets
  refine ⟨drafting.1.change rfl (fun location => (same location).trans (erased location))
    fun location => ?_, drafting.1.1.location?_of_target found⟩
  rw [FileTree.content?_set_file, FileTree.content?_erase, drafting.1.1.contents]
  simp only [Function.update_apply]
  split_ifs <;> rfl

theorem secure_create_alone {temporary : Path} (noSlash : FileTree.endsInSlash temporary = false) :
    (Task.create temporary).Secure Undisturbed Whatever
      (fun reply scene => reply = .ok () → ∃ spot, site.Drafting files temporary spot [] scene.tree)
      fun scene => site.Begun files scene.tree := by
  refine .perform (fun reply => steady_tree fun tree => reply = .ok () →
      ∃ spot, site.Drafting files temporary spot [] tree) fun scene begun => ⟨trivial, ?_⟩
  have created := @FileTree.create_eq scene.tree temporary noSlash
  rw [Scene.reply_create, Scene.after_create, created]
  cases landed : scene.tree.landing temporary with
  | error fault => exact fun never => by simp [Except.map] at never
  | ok spot =>
    obtain ⟨found, vacant⟩ := FileTree.target_of_landing landed
    exact fun _ => ⟨spot, begun.drafting (noSlash ▸ found) vacant []⟩

theorem secure_append_alone {temporary : Path} {spot : Location} {written : Bytes}
    (octets : Bytes) :
    (Task.append temporary octets).Secure Undisturbed Whatever
      (fun _ scene => site.Drafting files temporary spot (written ++ octets) scene.tree)
      fun scene => site.Drafting files temporary spot written scene.tree := by
  refine .perform (fun _ => steady_tree _) fun scene drafting => ⟨trivial, ?_⟩
  have appended : scene.tree.append temporary octets =
      .ok (scene.tree.set spot (.file (written ++ octets))) := by
    rw [FileTree.append, drafting.find]
  rw [Scene.after_append, appended]
  exact drafting.again (written ++ octets)

theorem secure_writeLines_alone {temporary : Path} {spot : Location}
    (items : List (Except Utf8.DecodeError Template.Line)) :
    (Run.writeLines site.template assignment.row temporary items).Secure Undisturbed Whatever
      (.either (fun _ scene => ∃ octets,
        Template.renderLines assignment.row items = .ok octets ∧
          site.Drafting files temporary spot octets scene.tree) fun _ _ => True)
      fun scene => site.Drafting files temporary spot [] scene.tree := by
  have asked : ∀ written, Task.isCancelled.Secure Undisturbed Whatever
      (fun reply scene => site.Drafting files temporary spot written scene.tree ∧
        (reply = true → True)) fun scene => site.Drafting files temporary spot written scene.tree :=
    fun written => .perform
      (fun reply => steady_tree fun tree => site.Drafting files temporary spot written tree ∧
        (reply = true → True)) fun _ drafting => ⟨trivial, drafting, fun _ => trivial⟩
  exact (Task.Secure.writeLines
    (fun written scene => site.Drafting files temporary spot written scene.tree) (fun _ _ => True)
    asked (fun _ _ => (secure_append_alone _).either (fun _ _ drafting => drafting)
      fun _ _ _ => trivial) items []).either (fun _ _ told => told) fun _ _ _ => trivial

/-- A row by itself reads the template after it has created its temporary file, and that is empty
then. -/
theorem secure_writeTemporary_alone
    (located : site.before.location? site.template = some site.mark) {temporary : Path}
    (noSlash : FileTree.endsInSlash temporary = false) :
    (Run.writeTemporary site.template assignment.row temporary).Secure Undisturbed Whatever
      (.either (fun _ scene => ∃ spot content octets,
        Function.update files spot (some []) site.mark = some content ∧
          Template.render assignment.row content = .ok octets ∧
          site.Drafting files temporary spot octets scene.tree) fun _ _ => True)
      fun scene => site.Begun files scene.tree := by
  have looked : (Task.kind site.template).Secure Undisturbed Whatever
      (fun _ scene => site.Begun files scene.tree) fun scene => site.Begun files scene.tree :=
    .perform (fun _ => steady_tree (site.Begun files)) fun _ begun => ⟨trivial, begun⟩
  have opened : ∀ spot, (Task.read site.template).Secure Undisturbed Whatever
      (fun reply scene => site.Drafting files temporary spot [] scene.tree ∧
        scene.tree.read site.template = reply)
      fun scene => site.Drafting files temporary spot [] scene.tree :=
    fun spot => .perform
      (fun reply => steady_tree fun tree =>
        site.Drafting files temporary spot [] tree ∧ tree.read site.template = reply)
      fun _ drafting => ⟨trivial, drafting, rfl⟩
  refine .writeTemporary (fun scene => site.Begun files scene.tree)
    (fun scene => ∃ spot, site.Drafting files temporary spot [] scene.tree)
    (fun content scene => ∃ spot, site.Drafting files temporary spot [] scene.tree ∧
      Function.update files spot (some []) site.mark = some content)
    (looked.either (fun _ _ begun => begun) fun _ _ _ => trivial)
    ((secure_create_alone noSlash).either (fun _ _ created => created rfl) fun _ _ _ => trivial)
    (.exists_now fun spot => (opened spot).either ?_ fun _ _ _ => trivial)
    fun content => .exists_now fun spot => .assuming fun template => ?_
  · rintro content scene ⟨drafting, reading⟩
    refine ⟨spot, drafting, ?_⟩
    rw [← drafting.1.1.contents]
    exact drafting.1.1.content?_of_read located reading
  · refine (secure_writeLines_alone (Template.lines content)).either ?_ fun _ _ _ => trivial
    rintro _ scene ⟨octets, rendered, drafting⟩
    exact ⟨spot, content, octets, template, rendered, drafting⟩

/-! ## The work of a row -/

theorem secure_whatever {α : Type} (task : Task α) (now : Assertion) :
    task.Secure Undisturbed Whatever (fun _ _ => True) now := by
  induction task generalizing now with
  | done value => exact fun _ _ => trivial
  | ask operation next ih =>
    exact ⟨fun _ _ => True, fun _ _ _ _ _ => trivial, fun _ _ => ⟨trivial, trivial⟩,
      fun reply => ih reply _⟩

/-- What the text is that a row by itself makes of the template, given where it has created its
temporary file. -/
def Filled (site : Site) (files : Files) (row : Row) (spot : Location) (octets : Bytes) : Prop :=
  ∃ content, Function.update files spot (some []) site.mark = some content ∧
    Template.render row content = .ok octets

/-- What is true when a row by itself is done with some result. -/
def Finished (site : Site) (files : Files) (assignment : Assignment) :
    Except Failure Staged → Assertion
  | .ok staged => fun scene =>
    ∃ name spot octets, site.Chosen assignment name ∧
      staged = ⟨Destination.temporary (site.directory.join ⟨name⟩) assignment.index,
        site.directory.join ⟨name⟩⟩ ∧
      site.Filled files assignment.row spot octets ∧
      site.Drafting files staged.temporary spot octets scene.tree
  | .error _ => fun _ => True

/-- The terms of a row that works by itself. -/
def alone (site : Site) (files : Files) : Run.Terms where
  rely _ := Undisturbed
  step _ := Whatever
  goal := site.Finished files

theorem secure_stage_alone (located : site.before.location? site.template = some site.mark)
    (chosen : site.Chosen assignment name) (reached : Prop) :
    (Run.stage site.template assignment.row (site.directory.join ⟨name⟩) assignment.index).Secure
      Undisturbed Whatever (site.Finished files assignment)
      fun scene => site.Sole files scene.tree ∧ (site.Reached scene.tree ↔ reached) := by
  have temporary := Path.temporary_join site.directory chosen.plain assignment.index
  have noSlash : FileTree.endsInSlash
      (Destination.temporary (site.directory.join ⟨name⟩) assignment.index) = false := by
    rw [temporary]
    exact FileTree.endsInSlash_join _ (Path.isPlain_temporaryName chosen.plain _)
  refine .stage
    ((secure_ensureDirectory_alone chosen reached).either (fun _ _ begun => begun rfl)
      fun _ _ _ => trivial)
    (secure_writeTemporary_alone located noSlash) ?_ fun _ => secure_whatever _ _
  rintro scene ⟨spot, content, octets, template, rendered, drafting⟩
  exact ⟨name, spot, octets, chosen, rfl, ⟨content, template, rendered⟩, drafting⟩

theorem held_alone (located : site.before.location? site.template = some site.mark)
    (enters : site.Enters assignment) {scene : Scene} (sole : site.Sole files scene.tree) :
    (site.alone files).Held assignment (assignment.pending site.template).work scene := by
  have steady := steady_tree fun tree =>
    site.Sole files tree ∧ (site.Reached tree ↔ site.Reached scene.tree)
  refine ⟨_, steady, ⟨sole, Iff.rfl⟩, ?_⟩
  have asked : Task.isCancelled.Secure Undisturbed Whatever
      (fun _ next => site.Sole files next.tree ∧ (site.Reached next.tree ↔ site.Reached scene.tree))
      fun next => site.Sole files next.tree ∧ (site.Reached next.tree ↔ site.Reached scene.tree) :=
    .perform (fun _ => steady) fun _ holds => ⟨trivial, holds⟩
  refine .stagePlanned (asked.weaken fun _ _ holds => ⟨holds, fun _ => trivial⟩)
    (fun _ _ _ _ => trivial) fun destination chosen => ?_
  obtain ⟨name, plain, rfl⟩ := enters destination chosen
  exact secure_stage_alone located ⟨plain, chosen⟩ _

end Site

end MailMerge
