import MailMerge.Proofs.Run.Settling

/-!
# Drafts

A row writes its file under a temporary name first.  Whatever happens to the template in the
meantime, every operation of the row changes nothing but that file, or makes a directory that is
needed (`Site.Keeps`); and a file that is complete is the text of a template that was there when the
row read it (`Site.Drafted`).

These are weaker terms than those on which a row relies on nobody changing the template
(`Site.terms`): a row on these terms only keeps in mind what the template has held so far
(`Site.drafting`).  Therefore rows may work on them beside each other in any run, also when one of
them replaces the template while others are in the making.
-/

namespace MailMerge

open Run (Assignment Staged)

set_option autoImplicit false

namespace Site

variable {site : Site} {assignment : Assignment} {destination : Path} {seen : Bytes → Prop}

/-! ## Terms -/

/-- Whatever the template holds is something that has been seen. -/
def Told (site : Site) (seen : Bytes → Prop) (tree : FileTree) : Prop :=
  ∀ content, tree.content? site.mark = some content → seen content

/-- What a row relies on the others to keep to, as long as it is told what the template holds. -/
structure Minds (site : Site) (seen : Bytes → Prop) (assignment : Assignment)
    (scene next : Scene) : Prop where
  amid : site.Amid next.tree
  base : next.tree.base = scene.tree.base
  directories : ∀ location, scene.tree.HasDirectory location → next.tree.HasDirectory location
  own : ∀ location, site.spot? assignment = some location →
    next.tree.content? location = scene.tree.content? location
  told : site.Told seen scene.tree → site.Told seen next.tree

/-- What a row knows at any time. -/
structure Aware (site : Site) (seen : Bytes → Prop) (scene : Scene) : Prop where
  amid : site.Amid scene.tree
  told : site.Told seen scene.tree

/-- What a row knows that has written some octets. -/
structure Drafts (site : Site) (seen : Bytes → Prop) (assignment : Assignment) (octets : Bytes)
    (scene : Scene) : Prop where
  aware : site.Aware seen scene
  reached : site.Reached scene.tree
  file : ∃ location, site.spot? assignment = some location ∧
    scene.tree.content? location = some octets

/-- What is true of a complete file that waits: it is the text of a template that has been seen. -/
def Drafted (site : Site) (seen : Bytes → Prop) (assignment : Assignment) :
    Except Failure Staged → Assertion
  | .ok staged => fun scene => ∃ destination content octets,
    assignment.destination = .ok destination ∧
      staged = ⟨Destination.temporary destination assignment.index, destination⟩ ∧
      seen content ∧ Template.render assignment.row content = .ok octets ∧
      site.Drafts seen assignment octets scene
  | .error _ => fun _ => True

/-- The terms of rows that are told what the template holds. -/
def drafting (site : Site) (seen : Bytes → Prop) : Run.Terms where
  rely := site.Minds seen
  step := site.Step
  goal := site.Drafted seen

theorem steady_aware (assignment : Assignment) :
    Assertion.Steady (site.Minds seen assignment) (site.Aware seen) :=
  fun _ _ minds aware => ⟨minds.amid, minds.told aware.told⟩

theorem steady_drafts (assignment : Assignment) (octets : Bytes) :
    Assertion.Steady (site.Minds seen assignment) (site.Drafts seen assignment octets) := by
  intro scene next minds drafts
  obtain ⟨location, spot, file⟩ := drafts.file
  exact ⟨steady_aware assignment scene next minds drafts.aware,
    drafts.reached.mono minds.base minds.directories,
    location, spot, (minds.own location spot).trans file⟩

/-- Rows tolerate each other on these terms. -/
theorem tolerates_drafting (grounded : site.Grounded) {left right : Assignment}
    (fitsLeft : site.Fits left) (fitsRight : site.Fits right) (apart : left.index ≠ right.index) :
    (site.drafting seen).Tolerates left right := by
  intro scene next step
  refine ⟨step.amid, step.base, step.directories, fun location spot => ?_, fun told content => ?_⟩
  · exact step.others location (spot?_ne fitsLeft.entry fitsRight.entry apart spot)
  · rw [step.others _ (fitsRight.ne_mark grounded)]
    exact told content

/-! ## Single operations -/

section Operations

variable {now : Assertion}

/-- A row is still told what the template holds after a step of its own. -/
theorem aware_of_step (grounded : site.Grounded) (fits : site.Fits assignment) {scene next : Scene}
    (aware : site.Aware seen scene) (step : site.Step assignment scene next) :
    site.Aware seen next := by
  refine ⟨step.amid, fun content => ?_⟩
  rw [step.others _ (fits.ne_mark grounded)]
  exact aware.told content

/-- An operation that changes nothing may be done at any time, and what it tells is true. -/
theorem secure_looking {operation : Operation} {goal : operation.Reply → Assertion}
    (idle : ∀ world : World, (world.perform operation).2.core = world.core)
    (steady : ∀ reply, (goal reply).Steady (site.Minds seen assignment))
    (holds : ∀ scene, now scene → site.Amid scene.tree ∧
      ∀ next : Scene, next.tree = scene.tree → goal (scene.reply operation) next) :
    (Task.perform operation).Secure (site.Minds seen assignment) (site.Step assignment) goal
      now := by
  refine .perform steady fun scene start => ?_
  have core := idle scene.world
  obtain ⟨amid, told⟩ := holds scene start
  exact ⟨step_of_tree amid (congrArg (·.1) core) rfl (congrArg (·.2.1) core)
    (congrArg (·.2.2) core), told _ (congrArg (·.1) core)⟩

theorem Drafts.of_tree {octets : Bytes} {scene next : Scene}
    (drafts : site.Drafts seen assignment octets scene) (tree : next.tree = scene.tree) :
    site.Drafts seen assignment octets next where
  aware := ⟨tree ▸ drafts.aware.amid, tree ▸ drafts.aware.told⟩
  reached := tree ▸ drafts.reached
  file := tree ▸ drafts.file

theorem Aware.of_tree {scene next : Scene} (aware : site.Aware seen scene)
    (tree : next.tree = scene.tree) : site.Aware seen next :=
  ⟨tree ▸ aware.amid, tree ▸ aware.told⟩

/-- Looking does not change what a row knows. -/
theorem secure_looking_aware {operation : Operation}
    (idle : ∀ world : World, (world.perform operation).2.core = world.core) :
    (Task.perform operation).Secure (site.Minds seen assignment) (site.Step assignment)
      (fun _ => site.Aware seen) (site.Aware seen) :=
  secure_looking idle (fun _ => steady_aware assignment)
    fun _ aware => ⟨aware.amid, fun _ => aware.of_tree⟩

theorem secure_looking_drafts {operation : Operation} {octets : Bytes}
    (idle : ∀ world : World, (world.perform operation).2.core = world.core) :
    (Task.perform operation).Secure (site.Minds seen assignment) (site.Step assignment)
      (fun _ => site.Drafts seen assignment octets) (site.Drafts seen assignment octets) :=
  secure_looking idle (fun _ => steady_drafts assignment octets)
    fun _ drafts => ⟨drafts.aware.amid, fun _ => drafts.of_tree⟩

theorem aware_createDirectory (grounded : site.Grounded) (fits : site.Fits assignment) {path : Path}
    (blocked : ∀ other, site.ready.createDirectory path ≠ .ok other) :
    (Task.createDirectory path).Secure (site.Minds seen assignment) (site.Step assignment)
      (fun _ => site.Aware seen) (site.Aware seen) := by
  refine .perform (fun _ => steady_aware assignment) fun scene aware => ?_
  rw [Scene.after_createDirectory]
  have step := @step_of_keeps _ assignment _ _ aware.amid
    fun next created => (keeps_createDirectory aware.amid blocked created).1
  exact ⟨step, aware_of_step grounded fits aware step⟩

theorem aware_unlessDirectory (path : Path) (fault : Fault) :
    (Task.unlessDirectory path fault).Secure (site.Minds seen assignment) (site.Step assignment)
      (fun _ => site.Aware seen) (site.Aware seen) := by
  have looked : (Task.kind path).Secure (site.Minds seen assignment) (site.Step assignment)
      (fun _ => site.Aware seen) (site.Aware seen) := secure_looking_aware fun _ => rfl
  exact .unlessDirectory looked (fun _ aware => aware) fun _ _ _ aware => aware

theorem aware_createAlong (grounded : site.Grounded) (fits : site.Fits assignment)
    {paths : List Path} (saturated : site.ready.Saturated paths) :
    (Task.createAlong paths).Secure (site.Minds seen assignment) (site.Step assignment)
      (fun _ => site.Aware seen) (site.Aware seen) := by
  induction paths with
  | nil => exact .pure fun _ aware => aware
  | cons path above ih =>
    have tried : (Task.createDirectory path).Secure (site.Minds seen assignment)
        (site.Step assignment) (fun _ => site.Aware seen) (site.Aware seen) :=
      aware_createDirectory grounded fits (saturated path List.mem_cons_self)
    have looked := fun fault => @aware_unlessDirectory site assignment seen path fault
    exact .createAlong_cons (fun _ _ aware => aware) tried (fun _ aware => aware)
      (ih fun other member => saturated other (List.mem_cons_of_mem _ member))
      (.ensureDirectory tried (fun _ aware => aware) looked) (fun _ _ aware => aware)
      fun fault _ => looked fault

/-- A directory that is needed is made, or what can be made of it. -/
theorem aware_createDirectories (grounded : site.Grounded) (fits : site.Fits assignment)
    {path : Path} (needed : site.needed? = some path) :
    (Task.createDirectories path).Secure (site.Minds seen assignment) (site.Step assignment)
      (fun _ => site.Aware seen) (site.Aware seen) := by
  obtain ⟨above, same, lineage⟩ := exists_lineage needed
  rw [Task.createDirectories, same]
  cases refused : path.refusal? with
  | none => exact aware_createAlong grounded fits (made_ready needed same lineage refused).saturated
  | some fault =>
    -- A path that is refused is refused at once, and nothing above it is tried.
    have named := (needed?_eq_some needed).2
    have tried : (Task.createDirectory path).Secure (site.Minds seen assignment)
        (site.Step assignment) (fun reply scene => site.Aware seen scene ∧ reply = .error fault)
        (site.Aware seen) := by
      refine .perform (fun _ => (steady_aware assignment).and fun _ _ _ same => same)
        fun scene aware => ?_
      have failed : scene.tree.createDirectory path = .error fault := by
        rw [FileTree.createDirectory, FileTree.target_of_refused scene.tree refused]
      rw [Scene.reply_createDirectory, Scene.after_createDirectory, failed]
      exact ⟨step_of_error aware.amid fault, aware, rfl⟩
    exact .createAlong_cons_of_failed named tried (Path.ne_notFound_of_refused named refused)
      (aware_unlessDirectory path fault)

theorem aware_ensureDirectory (grounded : site.Grounded) (fits : site.Fits assignment)
    (chosen : assignment.destination = .ok destination) :
    (Run.ensureDirectory destination).Secure (site.Minds seen assignment) (site.Step assignment)
      (fun _ => site.Aware seen) (site.Aware seen) := by
  refine .ensureDirectory_of_destination (fun _ _ aware => aware) fun path needed => ?_
  rw [fits.neededDirectory? chosen] at needed
  exact aware_createDirectories grounded fits needed

theorem aware_removeTemporary (grounded : site.Grounded) (fits : site.Fits assignment)
    (chosen : assignment.destination = .ok destination) :
    (Run.removeTemporary (Destination.temporary destination assignment.index)).Secure
      (site.Minds seen assignment) (site.Step assignment) (fun _ => site.Aware seen)
      (site.Aware seen) := by
  have removed : (Task.remove (Destination.temporary destination assignment.index)).Secure
      (site.Minds seen assignment) (site.Step assignment) (fun _ => site.Aware seen)
      (site.Aware seen) := by
    refine .perform (fun _ => steady_aware assignment) fun scene aware => ?_
    rw [Scene.after_remove]
    have step := step_of_keeps aware.amid fun next removed =>
      (keeps_remove fits chosen aware.amid removed).1
    exact ⟨step, aware_of_step grounded fits aware step⟩
  exact .removeTemporary removed fun _ => secure_looking_aware fun _ => rfl

end Operations

/-! ## The lines -/

/-- A new temporary file is empty. -/
theorem drafts_create (grounded : site.Grounded) (fits : site.Fits assignment)
    (chosen : assignment.destination = .ok destination) :
    (Task.create (Destination.temporary destination assignment.index)).Secure
      (site.Minds seen assignment) (site.Step assignment)
      (.either (fun _ => site.Drafts seen assignment []) fun _ => site.Aware seen)
      (site.Aware seen) := by
  refine .perform (Assertion.steady_either (fun _ => steady_drafts assignment [])
    fun _ => steady_aware assignment) fun scene aware => ?_
  rw [Scene.reply_create, Scene.after_create]
  cases created : scene.tree.create (Destination.temporary destination assignment.index) with
  | error fault => exact ⟨step_of_error aware.amid fault, aware⟩
  | ok next =>
    obtain ⟨keeps, reached, location, spot, file⟩ := keeps_create fits chosen aware.amid created
    exact ⟨keeps.step, aware_of_step grounded fits aware keeps.step,
      keeps.reached reached, location, spot, file⟩

/-- Octets are added behind those that are there. -/
theorem drafts_append (grounded : site.Grounded) (fits : site.Fits assignment)
    (chosen : assignment.destination = .ok destination) (written octets : Bytes) :
    (Task.append (Destination.temporary destination assignment.index) octets).Secure
      (site.Minds seen assignment) (site.Step assignment)
      (.either (fun _ => site.Drafts seen assignment (written ++ octets)) fun _ => site.Aware seen)
      (site.Drafts seen assignment written) := by
  refine .perform (Assertion.steady_either (fun _ => steady_drafts assignment _)
    fun _ => steady_aware assignment) fun scene drafts => ?_
  obtain ⟨aware, reached, location, spot, file⟩ := drafts
  rw [Scene.reply_append, Scene.after_append]
  cases appended :
    scene.tree.append (Destination.temporary destination assignment.index) octets with
  | error fault => exact ⟨step_of_error aware.amid fault, aware⟩
  | ok next =>
    obtain ⟨keeps, files⟩ := keeps_append fits chosen aware.amid appended
    exact ⟨keeps.step, aware_of_step grounded fits aware keeps.step,
      keeps.reached reached, location, spot, files location written spot file⟩

theorem drafts_writeLines (grounded : site.Grounded) (fits : site.Fits assignment)
    (chosen : assignment.destination = .ok destination)
    (items : List (Except Utf8.DecodeError Template.Line)) :
    (Run.writeLines site.template assignment.row
        (Destination.temporary destination assignment.index) items).Secure
      (site.Minds seen assignment) (site.Step assignment)
      (.either (fun _ scene => ∃ octets, Template.renderLines assignment.row items = .ok octets ∧
        site.Drafts seen assignment octets scene) fun _ => site.Aware seen)
      (site.Drafts seen assignment []) := by
  have asked : ∀ written, Task.isCancelled.Secure (site.Minds seen assignment)
      (site.Step assignment) (fun _ => site.Drafts seen assignment written)
      (site.Drafts seen assignment written) := fun _ => secure_looking_drafts fun _ => rfl
  refine (Task.Secure.writeLines (site.Drafts seen assignment) (fun _ => site.Aware seen)
    (fun written => (asked written).weaken fun _ _ drafts => ⟨drafts, fun _ => drafts.aware⟩)
    (fun written _ => drafts_append grounded fits chosen written _) items []).either
    (fun _ _ told => told) fun _ _ told => ?_
  obtain aware | ⟨_, _, _, _, drafts⟩ := told
  · exact aware
  · exact drafts.aware

/-! ## The work of a row -/

/-- What the template is found to hold has been seen. -/
theorem seen_of_read (grounded : site.Grounded) {scene : Scene} (aware : site.Aware seen scene)
    {content : Bytes} (reading : scene.tree.read site.template = .ok content) : seen content := by
  have target := FileTree.target_mono aware.amid.base aware.amid.kept grounded.target
  unfold FileTree.read at reading
  split at reading
  case h_2 => simp at reading
  case h_3 => simp at reading
  case h_1 location found there =>
    obtain rfl := Except.ok.inj reading
    obtain ⟨found, file⟩ := FileTree.target_of_find there
    obtain ⟨rfl, _⟩ := FileTree.Target.place.inj (Except.ok.inj (target.symm.trans found))
    exact aware.told _ file

/-- What is known when a row's file has been written. -/
def Penned (site : Site) (seen : Bytes → Prop) (assignment : Assignment) :
    Except Failure Unit → Assertion
  | .ok () => fun scene => ∃ content octets, seen content ∧
      Template.render assignment.row content = .ok octets ∧
      site.Drafts seen assignment octets scene
  | .error _ => site.Aware seen

theorem drafts_writeTemporary (grounded : site.Grounded) (fits : site.Fits assignment)
    (chosen : assignment.destination = .ok destination) :
    (Run.writeTemporary site.template assignment.row
        (Destination.temporary destination assignment.index)).Secure
      (site.Minds seen assignment) (site.Step assignment) (site.Penned seen assignment)
      (site.Aware seen) := by
  have looked : (Task.kind site.template).Secure (site.Minds seen assignment)
      (site.Step assignment) (fun _ => site.Aware seen) (site.Aware seen) :=
    secure_looking_aware fun _ => rfl
  have opened : (Task.read site.template).Secure (site.Minds seen assignment)
      (site.Step assignment) (fun reply scene => site.Drafts seen assignment [] scene ∧
        ∀ content, reply = .ok content → seen content) (site.Drafts seen assignment []) :=
    secure_looking (fun _ => rfl)
      (fun _ => (steady_drafts assignment []).and fun _ _ _ same => same)
      fun scene drafts => ⟨drafts.aware.amid, fun next tree =>
        ⟨drafts.of_tree tree, fun content => seen_of_read grounded drafts.aware⟩⟩
  refine .writeTemporary (site.Aware seen) (site.Drafts seen assignment [])
    (fun content scene => site.Drafts seen assignment [] scene ∧ seen content)
    (looked.either (fun _ _ aware => aware) fun _ _ aware => aware)
    (drafts_create grounded fits chosen)
    (opened.either (fun content _ told => ⟨told.1, told.2 content rfl⟩)
      fun _ _ told => told.1.aware) fun content => .assuming fun known => ?_
  refine (drafts_writeLines grounded fits chosen (Template.lines content)).weaken
    fun result scene told => ?_
  cases result with
  | error _ => exact told
  | ok _ =>
    obtain ⟨octets, rendered, drafts⟩ := told
    exact ⟨content, octets, known, rendered, drafts⟩

theorem drafted_stage (grounded : site.Grounded) (fits : site.Fits assignment)
    (chosen : assignment.destination = .ok destination) :
    (Run.stage site.template assignment.row destination assignment.index).Secure
      (site.Minds seen assignment) (site.Step assignment) (site.Drafted seen assignment)
      (site.Aware seen) := by
  refine .stage ((aware_ensureDirectory grounded fits chosen).either (fun _ _ aware => aware)
    fun _ _ _ => trivial) (drafts_writeTemporary grounded fits chosen) ?_ fun _ => ?_
  · rintro scene ⟨content, octets, known, rendered, drafts⟩
    exact ⟨destination, content, octets, chosen, rfl, known, rendered, drafts⟩
  · exact (aware_removeTemporary grounded fits chosen).weaken fun _ _ _ => trivial

/-- A row that has not begun works on these terms, whatever happens to the template. -/
theorem held_drafting (grounded : site.Grounded) (fits : site.Fits assignment) {scene : Scene}
    (aware : site.Aware seen scene) :
    (site.drafting seen).Held assignment (assignment.pending site.template).work scene := by
  refine ⟨site.Aware seen, steady_aware assignment, aware, ?_⟩
  change (Run.stagePlanned ..).Secure (site.Minds seen assignment) (site.Step assignment)
    (site.Drafted seen assignment) (site.Aware seen)
  have asked : Task.isCancelled.Secure (site.Minds seen assignment) (site.Step assignment)
      (fun _ => site.Aware seen) (site.Aware seen) := secure_looking_aware fun _ => rfl
  exact .stagePlanned (asked.weaken fun _ _ aware => ⟨aware, fun _ => trivial⟩)
    (fun _ _ _ _ => trivial) fun _ chosen => drafted_stage grounded fits chosen

end Site

end MailMerge
