import MailMerge.Proofs.Run.Site

/-!
# The terms of a run

Every row of a run works on the same terms (`Site.terms`).  It may make directories that the ready
tree has, and it may do what it likes with its own temporary file; it relies on the others to keep
to the same and, if it has a destination, to leave the template alone.  Its goal is a complete file
that waits under the temporary name, or a failure that the template, the plan and the ready tree
account for, and then no temporary file.

Two rows tolerate each other because their temporary files are at different locations and none of
them is the template (`Site.tolerates`).
-/

namespace MailMerge

open MailMerge.Path (IsPlain)
open Run (Assignment Staged)

set_option autoImplicit false

namespace Site

/-! ## Terms -/

/-- The location of the temporary file of an assignment. -/
def spot? (site : Site) (assignment : Assignment) : Option Location :=
  match assignment.destination with
  | .ok destination => site.before.location? (Destination.temporary destination assignment.index)
  | .error _ => none

/-- What a row relies on the others to keep to. -/
structure Relied (site : Site) (assignment : Assignment) (scene next : Scene) : Prop where
  amid : site.Amid next.tree
  base : next.tree.base = scene.tree.base
  directories : ∀ location, scene.tree.HasDirectory location → next.tree.HasDirectory location
  own : ∀ location, site.spot? assignment = some location →
    next.tree.content? location = scene.tree.content? location
  template : (∃ destination, assignment.destination = .ok destination) →
    next.tree.content? site.mark = scene.tree.content? site.mark
  stopping : scene.stopping = true → next.stopping = true

/-- What a row keeps to with each of its operations. -/
structure Step (site : Site) (assignment : Assignment) (scene next : Scene) : Prop where
  amid : site.Amid next.tree
  base : next.tree.base = scene.tree.base
  directories : ∀ location, scene.tree.HasDirectory location → next.tree.HasDirectory location
  others : ∀ location, site.spot? assignment ≠ some location →
    next.tree.content? location = scene.tree.content? location
  halted : next.halted = scene.halted
  cancelled : next.world.cancelled = scene.world.cancelled
  patience : next.world.patience = scene.world.patience

/-- The content of a row's file, given what the template holds, or why there is none. -/
def draft (site : Site) (row : Row) (temporary : Path) (content : Bytes) : Except Failure Bytes :=
  match site.ready.landing temporary with
  | .error fault => .error (.io temporary fault)
  | .ok _ =>
    match Template.render row content with
    | .error e => .error (.io site.template (.lineNotText e))
    | .ok octets => .ok octets

/-- What may be the reason that the directory could not be made.  It is a single one when an attempt
leaves everything as it is. -/
def Refuses (site : Site) (path : Path) (fault : Fault) : Prop :=
  (∀ location, site.ready.entry? location = site.before.entry? location) →
    (site.before.createDirectories path).2 = .error fault

/-- The failure of a row before its file is complete, given what the template holds. -/
inductive Rejected (site : Site) (assignment : Assignment) (template : Option Bytes) :
    Failure → Prop where
  | unplanned {failure : Failure} : assignment.destination = .error failure →
      Rejected site assignment template failure
  | unreachable {destination path : Path} {fault : Fault} :
      assignment.destination = .ok destination → site.needed? = some path →
      site.ready.isDirectory path = false → site.Refuses path fault →
      Rejected site assignment template (.io path fault)
  | undrafted {destination : Path} {content : Bytes} {failure : Failure} :
      assignment.destination = .ok destination → site.Reached site.ready →
      template = some content →
      site.draft assignment.row (Destination.temporary destination assignment.index) content =
        .error failure →
      Rejected site assignment template failure

/-- What is true when the work of an assignment is done with some result. -/
def Goal (site : Site) (assignment : Assignment) : Except Failure Staged → Assertion
  | .ok staged => fun scene =>
    ∃ destination location content octets, assignment.destination = .ok destination ∧
      staged = ⟨Destination.temporary destination assignment.index, destination⟩ ∧
      site.Reached scene.tree ∧ site.ready.landing staged.temporary = .ok location ∧
      scene.tree.content? location = some octets ∧
      scene.tree.content? site.mark = some content ∧
      site.draft assignment.row staged.temporary content = .ok octets
  | .error failure => fun scene =>
    (∀ location, site.spot? assignment = some location → scene.tree.content? location = none) ∧
      (failure = .cancelled ∧ scene.stopping = true ∨ failure ≠ .cancelled ∧
        site.Rejected assignment (scene.tree.content? site.mark) failure)

/-- The terms on which the rows of a run work. -/
def terms (site : Site) : Run.Terms where
  rely := site.Relied
  step := site.Step
  goal := site.Goal

/-- The destination of an assignment, if it has one, is an entry of the directory. -/
def Enters (site : Site) (assignment : Assignment) : Prop :=
  ∀ destination, assignment.destination = .ok destination →
    ∃ name, IsPlain name ∧ destination = site.directory.join ⟨name⟩

/-- An assignment that belongs to a run: its destination is an entry of the directory, and before
the run there is nothing at the location of its temporary file. -/
structure Fits (site : Site) (assignment : Assignment) : Prop where
  entry : site.Enters assignment
  failure : ∀ failure, assignment.destination = .error failure → failure ≠ .cancelled
  fresh : ∀ location, site.spot? assignment = some location →
    site.before.entry? location = none

/-- The template is a file before the run. -/
structure Grounded (site : Site) : Prop where
  target : site.before.target site.template = .ok (.place site.mark false)
  content : site.before.content? site.mark ≠ none

/-- A row with a destination, of a run whose template is a file. -/
structure Placed (site : Site) (assignment : Assignment) (destination : Path) : Prop where
  grounded : site.Grounded
  fits : site.Fits assignment
  chosen : assignment.destination = .ok destination

variable {site : Site} {assignment : Assignment} {destination : Path}

theorem Fits.isEntry (fits : site.Fits assignment)
    (chosen : assignment.destination = .ok destination) : site.IsEntry destination := by
  obtain ⟨name, plain, same⟩ := fits.entry destination chosen
  exact ⟨site.directory, name, plain, same, .inl rfl⟩

theorem Fits.isEntry_temporary (fits : site.Fits assignment)
    (chosen : assignment.destination = .ok destination) :
    site.IsEntry (Destination.temporary destination assignment.index) := by
  obtain ⟨name, plain, rfl⟩ := fits.entry destination chosen
  exact ⟨site.directory.trimmed, _, Path.isPlain_temporaryName plain assignment.index,
    Path.temporary_join site.directory plain assignment.index, .inr rfl⟩

theorem spot?_of_chosen (chosen : assignment.destination = .ok destination) :
    site.spot? assignment =
      site.before.location? (Destination.temporary destination assignment.index) := by
  rw [spot?, chosen]

theorem exists_of_spot? {location : Location} (spot : site.spot? assignment = some location) :
    ∃ destination, assignment.destination = .ok destination ∧
      site.before.location? (Destination.temporary destination assignment.index) =
        some location := by
  cases chosen : assignment.destination with
  | error failure => simp [spot?, chosen] at spot
  | ok destination => exact ⟨destination, rfl, spot?_of_chosen chosen ▸ spot⟩

/-- The temporary file is not the template. -/
theorem Placed.ne_mark (placed : site.Placed assignment destination) {location : Location}
    (own : site.spot? assignment = some location) : location ≠ site.mark := by
  rintro rfl
  exact placed.grounded.content (FileTree.content?_eq_none.2 (.inl (placed.fits.fresh _ own)))

/-! ## What a row knows -/

/-- What a row knows at any time: what the template holds, and what its own temporary file holds. -/
structure Knows (site : Site) (assignment : Assignment) (content : Bytes) (own : Option Bytes)
    (scene : Scene) : Prop where
  amid : site.Amid scene.tree
  template : scene.tree.content? site.mark = some content
  own : ∀ location, site.spot? assignment = some location → scene.tree.content? location = own

theorem Knows.steady (placed : site.Placed assignment destination) (content : Bytes)
    (own : Option Bytes) :
    Assertion.Steady (site.Relied assignment) (site.Knows assignment content own) :=
  fun _ _ relied knows => ⟨relied.amid,
    (relied.template ⟨destination, placed.chosen⟩).trans knows.template,
    fun location spot => (relied.own location spot).trans (knows.own location spot)⟩

theorem steady_isDirectory (assignment : Assignment) (path : Path) :
    Assertion.Steady (site.Relied assignment) fun scene => scene.tree.isDirectory path = true :=
  fun _ _ relied directory => FileTree.isDirectory_mono relied.base relied.directories directory

theorem steady_reached (assignment : Assignment) :
    Assertion.Steady (site.Relied assignment) fun scene => site.Reached scene.tree :=
  fun _ _ relied reached => reached.mono relied.base relied.directories

theorem steady_stopping (assignment : Assignment) :
    Assertion.Steady (site.Relied assignment) fun scene => scene.stopping = true :=
  fun _ _ relied => relied.stopping

/-! ## Single operations -/

variable {content : Bytes} {own : Option Bytes} {now : Assertion}

/-- An operation that leaves the tree as it is may be done at any time. -/
theorem step_of_tree {scene next : Scene} (amid : site.Amid scene.tree)
    (tree : next.tree = scene.tree) (halted : next.halted = scene.halted)
    (cancelled : next.world.cancelled = scene.world.cancelled)
    (patience : next.world.patience = scene.world.patience) : site.Step assignment scene next where
  amid := tree ▸ amid
  base := congrArg FileTree.base tree
  directories _ directory := tree ▸ directory
  others _ _ := tree ▸ rfl
  halted := halted
  cancelled := cancelled
  patience := patience

theorem secure_kind {path : Path} {goal : Except Fault Kind → Assertion}
    (steady : ∀ reply, (goal reply).Steady (site.Relied assignment))
    (holds : ∀ scene, now scene → site.Amid scene.tree ∧
      goal (scene.tree.kind path) scene) :
    (Task.kind path).Secure (site.Relied assignment) (site.Step assignment) goal now :=
  .perform steady fun scene start =>
    ⟨step_of_tree (holds scene start).1 rfl rfl rfl rfl, (holds scene start).2⟩

theorem secure_read {path : Path} {goal : Except Fault Bytes → Assertion}
    (steady : ∀ reply, (goal reply).Steady (site.Relied assignment))
    (holds : ∀ scene, now scene → site.Amid scene.tree ∧
      goal (scene.tree.read path) scene) :
    (Task.read path).Secure (site.Relied assignment) (site.Step assignment) goal now :=
  .perform steady fun scene start =>
    ⟨step_of_tree (holds scene start).1 rfl rfl rfl rfl, (holds scene start).2⟩

/-- An inquiry for cancellation tells whether the run is being stopped. -/
theorem secure_isCancelled (steady : now.Steady (site.Relied assignment))
    (amid : ∀ scene, now scene → site.Amid scene.tree) :
    Task.isCancelled.Secure (site.Relied assignment) (site.Step assignment)
      (fun reply scene => now scene ∧ (reply = true → scene.stopping = true)) now :=
  .perform (fun _ => steady.and (steady_stopping assignment).of_imp) fun scene start =>
    ⟨step_of_tree (amid scene start) rfl rfl rfl rfl, start, fun stopping => stopping⟩

end Site

end MailMerge
