import MailMerge.Proofs.Run.Course
import MailMerge.Proofs.Run.Staging

/-!
# Settling a row

When a row's work is done, its file is moved to its destination or its failure is recorded, and
nobody comes in between.  What this does to the regular files is what the course of the run says
(`Site.Resolves`, `Site.resolves_commit`); everything else stays, and no temporary file of the row is
left.

Rows in the making are not disturbed by each other's operations (`Site.tolerates`), since their
temporary files are apart.
-/

namespace MailMerge

open Run (Assignment Staged Pending)

set_option autoImplicit false

/-- What a run depends on in a world. -/
def World.core (world : World) : FileTree × Bool × Option Nat :=
  (world.tree, world.cancelled, world.patience)

theorem Run.run_remove (path : Path) (world : World) :
    (Task.remove path).run world = world.update (world.tree.remove path) := rfl

theorem Run.run_rename (source destination : Path) (world : World) :
    (Task.rename source destination).run world =
      match world.tree.rename source destination with
      | .ok tree => (.ok (), { world with tree }.countMoved)
      | .error fault => (.error fault, world) := rfl

theorem World.tree_countMoved (world : World) : world.countMoved.tree = world.tree := by
  unfold World.countMoved
  split
  · rfl
  · split <;> rfl

namespace Site

variable {site : Site} {assignment : Assignment}

/-! ## Rows that are apart -/

/-- The temporary files of two rows are at different locations. -/
theorem spot?_ne {left right : Assignment} (enters : site.Enters left) (enters' : site.Enters right)
    (apart : left.index ≠ right.index) {location : Location}
    (spot : site.spot? left = some location) : site.spot? right ≠ some location := by
  intro same
  obtain ⟨destination, chosen, spot⟩ := exists_of_spot? spot
  obtain ⟨destination', chosen', same⟩ := exists_of_spot? same
  obtain ⟨name, plain, rfl⟩ := enters _ chosen
  obtain ⟨name', plain', rfl⟩ := enters' _ chosen'
  rw [Path.temporary_join site.directory plain] at spot
  rw [Path.temporary_join site.directory plain'] at same
  exact apart (Path.temporaryName_index (FileTree.eq_of_location?_join
    (Path.isPlain_temporaryName plain _) (Path.isPlain_temporaryName plain' _) spot same))

theorem Fits.ne_mark (fits : site.Fits assignment) (grounded : site.Grounded) :
    site.spot? assignment ≠ some site.mark :=
  fun spot => grounded.content (FileTree.content?_eq_none.2 (.inl (fits.fresh _ spot)))

/-- A row does nothing that another row relies on not being done. -/
theorem tolerates (grounded : site.Grounded) {left right : Assignment} (fitsLeft : site.Fits left)
    (fitsRight : site.Fits right) (apart : left.index ≠ right.index) :
    site.terms.Tolerates left right := by
  intro scene next step
  refine ⟨step.amid, step.base, step.directories, fun location spot => ?_, fun _ => ?_,
    fun stopping => ?_⟩
  · exact step.others location (spot?_ne fitsLeft.entry fitsRight.entry apart spot)
  · exact step.others _ (fitsRight.ne_mark grounded)
  · rw [Scene.stopping, step.cancelled, step.halted]
    exact stopping

/-- What the rows of a crew have done to a scene. -/
structure Worked (site : Site) (crew : List Assignment) (scene next : Scene) : Prop where
  amid : site.Amid next.tree
  base : next.tree.base = scene.tree.base
  directories : ∀ location, scene.tree.HasDirectory location → next.tree.HasDirectory location
  others : ∀ location, (∀ assignment ∈ crew, site.spot? assignment ≠ some location) →
    next.tree.content? location = scene.tree.content? location
  cancelled : next.world.cancelled = scene.world.cancelled
  patience : next.world.patience = scene.world.patience

theorem worked_of_moved {crew : List Assignment} {scene next : Scene} (amid : site.Amid scene.tree)
    (moved : site.terms.Moved crew scene next) : site.Worked crew scene next := by
  induction moved with
  | refl => exact ⟨amid, rfl, fun _ directory => directory, fun _ _ => rfl, rfl, rfl⟩
  | tail _ step ih =>
    obtain ⟨assignment, member, step⟩ := step
    refine ⟨step.amid, step.base.trans ih.base,
      fun location directory => step.directories location (ih.directories location directory),
      fun location elsewhere => ?_, step.cancelled.trans ih.cancelled,
      step.patience.trans ih.patience⟩
    exact (step.others location (elsewhere assignment member)).trans (ih.others location elsewhere)

/-! ## The end of a row's work -/

/-- What has happened when a row has been settled. -/
structure Resolves (site : Site) (assignment : Assignment) (scene : Scene)
    (result : Except Failure Path) (next : World) : Prop where
  amid : site.Amid next.tree
  base : next.tree.base = scene.tree.base
  directories : ∀ location, scene.tree.HasDirectory location → next.tree.HasDirectory location
  own : ∀ location, site.spot? assignment = some location → next.tree.content? location = none
  settles : ∀ files : Files, files site.mark = scene.tree.content? site.mark →
    ∃ later, site.Settles assignment files result later ∧ ∀ location,
      site.spot? assignment ≠ some location → files location = scene.tree.content? location →
        later location = next.tree.content? location
  others : ∀ location, site.spot? assignment ≠ some location →
    (∀ destination, assignment.destination = .ok destination →
      site.before.location? destination ≠ some location) →
    next.tree.content? location = scene.tree.content? location
  reached : (∃ path, result = .ok path) → site.Reached next.tree
  cancelled : scene.world.cancelled = true → next.cancelled = true
  calm : scene.world.patience = none →
    next.cancelled = scene.world.cancelled ∧ next.patience = none

/-- Only what a run depends on matters. -/
theorem Resolves.of_core {scene : Scene} {result : Except Failure Path} {next last : World}
    (resolves : site.Resolves assignment scene result next) (core : last.core = next.core) :
    site.Resolves assignment scene result last := by
  have tree : last.tree = next.tree := congrArg (·.1) core
  have cancelled : last.cancelled = next.cancelled := congrArg (·.2.1) core
  have patience : last.patience = next.patience := congrArg (·.2.2) core
  constructor
  · exact tree ▸ resolves.amid
  · exact tree ▸ resolves.base
  · exact tree ▸ resolves.directories
  · exact tree ▸ resolves.own
  · exact tree ▸ resolves.settles
  · exact tree ▸ resolves.others
  · exact tree ▸ resolves.reached
  · exact cancelled ▸ resolves.cancelled
  · exact cancelled ▸ patience ▸ resolves.calm

/-- A row that has failed before its file was complete changes nothing when it is settled. -/
theorem resolves_of_rejected {scene : Scene} {failure : Failure} (amid : site.Amid scene.tree)
    (own : ∀ location, site.spot? assignment = some location → scene.tree.content? location = none)
    (rejected : site.Rejected assignment (scene.tree.content? site.mark) failure) :
    site.Resolves assignment scene (.error failure) scene.world where
  amid := amid
  base := rfl
  directories _ directory := directory
  own := own
  settles files same := ⟨files, .failed (same ▸ rejected), fun _ _ same => same⟩
  others _ _ _ := rfl
  reached := fun ⟨_, ok⟩ => by simp at ok
  cancelled cancelled := cancelled
  calm patience := ⟨rfl, patience⟩

/-! ## A complete file -/

/-- What there is to know about a complete file that waits under its temporary name. -/
structure Waits (site : Site) (assignment : Assignment) (staged : Staged) (scene : Scene)
    (destination : Path) (location : Location) (content octets : Bytes) : Prop where
  chosen : assignment.destination = .ok destination
  staged : staged = ⟨Destination.temporary destination assignment.index, destination⟩
  reached : site.Reached scene.tree
  spot : site.spot? assignment = some location
  file : scene.tree.content? location = some octets
  found : scene.tree.find (Destination.temporary destination assignment.index) =
    .ok (location, .file octets)
  template : scene.tree.content? site.mark = some content
  drafted : site.draft assignment.row (Destination.temporary destination assignment.index) content =
    .ok octets

theorem exists_waits (fits : site.Fits assignment) {scene : Scene} (amid : site.Amid scene.tree)
    {staged : Staged} (goal : site.Goal assignment (.ok staged) scene) :
    ∃ destination name above content octets,
      site.Waits assignment staged scene destination (name :: above) content octets := by
  obtain ⟨destination, location, content, octets, chosen, rfl, reached, landed, file, template,
    drafted⟩ := goal
  have entry := fits.isEntry_temporary chosen
  obtain ⟨target, _⟩ := FileTree.target_of_landing landed
  rw [entry.noSlash, ← amid.target_eq reached entry] at target
  obtain ⟨name, above, rfl⟩ := FileTree.exists_cons_of_place target
  refine ⟨destination, name, above, content, octets, chosen, rfl, reached, ?_, file,
    FileTree.find_of_target target file, template, drafted⟩
  rw [spot?_of_chosen chosen]
  exact amid.location?_of_target target

section Waiting

variable {scene : Scene} {staged : Staged} {destination : Path} {name : Bytes} {above : Location}
  {content octets : Bytes}

theorem Waits.noDirectory
    (waits : site.Waits assignment staged scene destination (name :: above) content octets) :
    ¬ scene.tree.HasDirectory (name :: above) := by
  intro directory
  have file := waits.file
  simp [directory.content?] at file

/-- The file may be removed, and then it is not there. -/
theorem Waits.keeps (fits : site.Fits assignment) (amid : site.Amid scene.tree)
    (waits : site.Waits assignment staged scene destination (name :: above) content octets) :
    site.Keeps assignment scene.tree (scene.tree.erase (name :: above)) ∧
      ∀ location, site.spot? assignment = some location →
        (scene.tree.erase (name :: above)).content? location = none := by
  obtain ⟨keeps, gone⟩ :=
    keeps_erase fits amid waits.reached waits.spot ⟨name, above, rfl⟩ waits.noDirectory
  refine ⟨keeps, fun location spot => ?_⟩
  obtain rfl := Option.some.inj (waits.spot.symm.trans spot)
  exact gone

theorem Waits.remove
    (waits : site.Waits assignment staged scene destination (name :: above) content octets) :
    scene.tree.remove (Destination.temporary destination assignment.index) =
      .ok (scene.tree.erase (name :: above)) := by
  rw [FileTree.remove, waits.found]

/-- Removing the file does nothing else. -/
theorem Waits.run_removeTemporary
    (waits : site.Waits assignment staged scene destination (name :: above) content octets) :
    (Run.removeTemporary (Destination.temporary destination assignment.index)).run scene.world =
      ((), { scene.world with tree := scene.tree.erase (name :: above) }) := by
  rw [Run.removeTemporary, Task.run_bind, Run.run_remove, waits.remove]
  rfl

/-- When the file cannot be moved it is removed. -/
theorem Waits.resolves_blocked (fits : site.Fits assignment) (amid : site.Amid scene.tree)
    (waits : site.Waits assignment staged scene destination (name :: above) content octets)
    {fault : Fault} (landed : site.ready.landing destination = .error fault) :
    site.Resolves assignment scene (.error (.io destination fault))
      { scene.world with tree := scene.tree.erase (name :: above) } := by
  obtain ⟨keeps, gone⟩ := waits.keeps fits amid
  refine ⟨keeps.amid, keeps.base, keeps.directories, gone, fun files same => ?_,
    fun location spot _ => keeps.others location spot, fun ⟨_, ok⟩ => by simp at ok, id,
    fun patience => ⟨rfl, patience⟩⟩
  refine ⟨files, .blocked waits.chosen (amid.reached_ready waits.reached)
    (same.trans waits.template) waits.drafted landed, fun location spot here => ?_⟩
  exact here.trans (keeps.others location spot).symm

/-- The file is moved to where its destination leads. -/
theorem Waits.resolves_moved (amid : site.Amid scene.tree)
    (waits : site.Waits assignment staged scene destination (name :: above) content octets)
    {home : Location} (landed : site.ready.landing destination = .ok home)
    (located : site.before.location? destination = some home)
    (elsewhere : site.spot? assignment ≠ some home) {next : World}
    (carries : site.Carries assignment octets home scene.tree next.tree)
    (cancelled : scene.world.cancelled = true → next.cancelled = true)
    (calm : scene.world.patience = none →
      next.cancelled = scene.world.cancelled ∧ next.patience = none) :
    site.Resolves assignment scene (.ok destination) next := by
  refine ⟨carries.amid, carries.base, carries.directories, fun place spot => ?_,
    fun files same => ?_, fun place spot other => ?_,
    fun _ => waits.reached.mono carries.base carries.directories, cancelled, calm⟩
  · exact carries.own place (by rintro rfl; exact elsewhere spot) spot
  · refine ⟨_, .moved waits.chosen (amid.reached_ready waits.reached) (same.trans waits.template)
      waits.drafted landed, fun place spot here => ?_⟩
    by_cases arrived : place = home
    · rw [arrived, Function.update_self, carries.file]
    · rw [Function.update_of_ne arrived, here, carries.others place arrived spot]
  · exact carries.others place (by rintro rfl; exact other _ waits.chosen located) spot

end Waiting

/-! ## Moving, throwing away and recording -/

/-- Moving a complete file settles its row. -/
theorem resolves_commit (fits : site.Fits assignment) {scene : Scene} (amid : site.Amid scene.tree)
    (clear : ∀ destination location, assignment.destination = .ok destination →
      site.before.location? destination = some location → site.spot? assignment ≠ some location)
    {staged : Staged} (goal : site.Goal assignment (.ok staged) scene) :
    site.Resolves assignment scene (staged.commit.run scene.world).1
      (staged.commit.run scene.world).2 := by
  obtain ⟨destination, name, above, content, octets, waits⟩ := exists_waits fits amid goal
  obtain rfl := waits.staged
  have entry := fits.isEntry waits.chosen
  have renamed := FileTree.rename_eq waits.found entry.noSlash
  have same := amid.landing_eq waits.reached entry
  rw [Staged.commit, Task.run_bind, Run.run_rename]
  cases landed : scene.tree.landing destination with
  | error fault =>
    rw [landed] at renamed
    simp only [renamed, Task.run_bind, Task.run_pure]
    rw [waits.run_removeTemporary]
    exact waits.resolves_blocked fits amid (same.symm.trans landed)
  | ok location =>
    rw [landed] at renamed
    obtain ⟨home, landed', located, carries⟩ :=
      carries_rename fits waits.chosen amid waits.found renamed
    simp only [renamed, Task.run_pure]
    refine waits.resolves_moved amid (same.symm.trans landed') located
      (clear _ _ waits.chosen located) ?_ ?_ ?_
    · rw [World.tree_countMoved]
      exact carries
    · intro cancelled
      unfold World.countMoved
      split
      · exact cancelled
      · split
        · rfl
        · exact cancelled
    · intro patience
      simp only [World.countMoved, patience, and_self]

/-- After its result was thrown away nothing is left of a row. -/
theorem worked_discardResult (fits : site.Fits assignment) {scene : Scene}
    (amid : site.Amid scene.tree) {result : Except Failure Staged}
    (goal : site.Goal assignment result scene) :
    site.Worked [assignment] scene
        ⟨scene.halted, ((Run.discardResult result).run scene.world).2⟩ ∧
      ∀ location, site.spot? assignment = some location →
        ((Run.discardResult result).run scene.world).2.tree.content? location = none := by
  cases result with
  | error failure =>
    exact ⟨⟨amid, rfl, fun _ directory => directory, fun _ _ => rfl, rfl, rfl⟩, goal.1⟩
  | ok staged =>
    obtain ⟨destination, name, above, content, octets, waits⟩ := exists_waits fits amid goal
    obtain rfl := waits.staged
    rw [Run.discardResult, Staged.discard, waits.run_removeTemporary]
    obtain ⟨keeps, gone⟩ := waits.keeps fits amid
    refine ⟨⟨keeps.amid, keeps.base, keeps.directories, fun location other => ?_, rfl, rfl⟩, gone⟩
    exact keeps.others location (other assignment (by simp))

end Site

namespace Run

/-- Whether a run stops because of what has become of a row. -/
def stops (policy : ErrorPolicy) (result : Except Failure Path) : Bool :=
  match policy, result with
  | .abort, .error _ => true
  | _, _ => false

/-- The progress after one more outcome. -/
def Progress.recorded (policy : ErrorPolicy) (progress : Progress) (index : Nat)
    (result : Except Failure Path) : Progress :=
  { progress with
    outcomes := progress.outcomes ++ [⟨index, result⟩]
    halted := progress.halted || stops policy result }

theorem stops_eq_true_iff {policy : ErrorPolicy} {result : Except Failure Path} :
    stops policy result = true ↔ policy = .abort ∧ ∃ failure, result = .error failure := by
  cases policy <;> cases result <;> simp [stops]

theorem run_recordGenerated (policy : ErrorPolicy) (progress : Progress) (index : Nat) (path : Path)
    (world : World) : ((progress.recordGenerated index path).run world).1 =
        progress.recorded policy index (.ok path) ∧
      ((progress.recordGenerated index path).run world).2.core = world.core := by
  refine ⟨?_, rfl⟩
  cases policy <;> simp [Progress.recordGenerated, Progress.recorded, stops]

theorem run_recordFailed (policy : ErrorPolicy) (progress : Progress) (index : Nat)
    (failure : Failure) (world : World) :
    ((progress.recordFailed policy index failure).run world).1 =
        progress.recorded policy index (.error failure) ∧
      ((progress.recordFailed policy index failure).run world).2.core = world.core := by
  cases policy with
  | «continue» => exact ⟨by simp [Progress.recordFailed, Progress.recorded, stops], rfl⟩
  | abort => exact ⟨by simp [Progress.recordFailed, Progress.recorded, stops], rfl⟩

/-- What is recorded of a complete file is what comes of moving it. -/
theorem run_record_ok (policy : ErrorPolicy) (progress : Progress) (index : Nat) (staged : Staged)
    (world : World) : ((progress.record policy index (.ok staged)).run world).1 =
        progress.recorded policy index (staged.commit.run world).1 ∧
      ((progress.record policy index (.ok staged)).run world).2.core =
        (staged.commit.run world).2.core := by
  rw [Progress.record, Task.run_bind]
  cases (staged.commit.run world).1 with
  | ok path => exact run_recordGenerated policy progress index path _
  | error failure => exact run_recordFailed policy progress index failure _

theorem record_error (policy : ErrorPolicy) (progress : Progress) (index : Nat) {failure : Failure}
    (other : failure ≠ .cancelled) : progress.record policy index (.error failure) =
      progress.recordFailed policy index failure := by
  cases failure <;> first | rfl | exact absurd rfl other

end Run

namespace Site

variable {site : Site} {assignment : Assignment}

/-- Recording a result settles its row, unless the row has found the run cancelled. -/
theorem record_cases (policy : ErrorPolicy) (fits : site.Fits assignment) {world : World}
    (amid : site.Amid world.tree)
    (clear : ∀ destination location, assignment.destination = .ok destination →
      site.before.location? destination = some location → site.spot? assignment ≠ some location)
    (progress : Run.Progress) {result : Except Failure Staged}
    (goal : site.Goal assignment result ⟨false, world⟩) :
    (world.cancelled = true ∧
      (∀ location, site.spot? assignment = some location → world.tree.content? location = none) ∧
      (progress.record policy assignment.index result).run world =
        ({ progress with halted := true, interrupted := true }, world)) ∨
    ∃ outcome, site.Resolves assignment ⟨false, world⟩ outcome
        ((progress.record policy assignment.index result).run world).2 ∧
      ((progress.record policy assignment.index result).run world).1 =
        progress.recorded policy assignment.index outcome := by
  cases result with
  | ok staged =>
    have resolves := resolves_commit fits amid clear goal
    have recorded := Run.run_record_ok policy progress assignment.index staged world
    exact .inr ⟨_, resolves.of_core recorded.2, recorded.1⟩
  | error failure =>
    obtain ⟨own, ⟨rfl, stopping⟩ | ⟨other, rejected⟩⟩ := goal
    · refine .inl ⟨?_, own, rfl⟩
      simpa [Scene.stopping] using stopping
    · have resolves : site.Resolves assignment ⟨false, world⟩ _ _ :=
        resolves_of_rejected amid own rejected
      have recorded := Run.run_recordFailed policy progress assignment.index failure world
      rw [Run.record_error policy progress _ other]
      exact .inr ⟨.error failure, resolves.of_core recorded.2, recorded.1⟩

end Site

end MailMerge
