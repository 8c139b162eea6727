import MailMerge.Proofs.Run.Solo

/-!
# One row after another

When rows are run one at a time and all of them are generated, the regular files after the run can
be told from those before it whatever the temporary files are in the way of: each row in turn loses
the file at the location of its temporary file and leaves its text where its destination leads
(`Site.Passes`, `Site.Passage`).

A run that may still generate all its rows has had such a passage so far, and the next row works by
itself (`Site.Lone`).  This lasts, or not all rows will be generated (`Site.lasting_lone`).
-/

namespace MailMerge

open Run (Assignment Staged Pending Progress Move Schedule)

set_option autoImplicit false

namespace Site

/-! ## Passages -/

/-- What a row by itself does to the regular files when it is generated. -/
structure Passes (site : Site) (assignment : Assignment) (name : Bytes) (spot home : Location)
    (octets : Bytes) (files : Files) : Prop where
  chosen : site.Chosen assignment name
  temporary : site.before.location?
    (Destination.temporary (site.directory.join ⟨name⟩) assignment.index) = some spot
  destination : site.before.location? (site.directory.join ⟨name⟩) = some home
  filled : site.Filled files assignment.row spot octets

/-- Rows that were generated one after another, with the files before them and after them. -/
inductive Passage (site : Site) : Files → List Assignment → Files → Prop where
  | nil {files : Files} : Passage site files [] files
  | cons {files last : Files} {assignment : Assignment} {rest : List Assignment} {name : Bytes}
      {spot home : Location} {octets : Bytes} :
      site.Passes assignment name spot home octets files →
      Passage site (Function.update (Function.update files spot none) home (some octets)) rest
        last →
      Passage site files (assignment :: rest) last

variable {site : Site} {assignment : Assignment} {files : Files}

theorem Passage.snoc {first second : Files} {done : List Assignment} {name : Bytes}
    {spot home : Location} {octets : Bytes} (passage : site.Passage first done second)
    (passes : site.Passes assignment name spot home octets second) :
    site.Passage first (done ++ [assignment])
      (Function.update (Function.update second spot none) home (some octets)) := by
  induction passage with
  | nil => exact .cons passes .nil
  | cons early _ ih => exact .cons early (ih passes)

/-! ## Rows that are still to be generated -/

/-- The first of some rows is in the making, and of the others nothing has been done. -/
def Awaits (site : Site) (files : Files) : List Assignment → List Pending → World → Prop
  | [], pending, world => pending = [] ∧ site.Sole files world.tree
  | assignment :: rest, pending, world =>
    ∃ work, pending = ⟨assignment.index, work⟩ :: rest.map (Assignment.pending site.template) ∧
      (site.alone files).Held assignment work ⟨false, world⟩

/-- How a run stands that may still generate all its rows, one at a time. -/
structure Lone (site : Site) (items rest : List Assignment) (files : Files) (progress : Progress)
    (world : World) : Prop where
  running : progress.halted = false
  passage : ∃ done, items = done ++ rest ∧ site.Passage site.before.content? done files ∧
    progress.outcomes = done.map fun assignment => ⟨assignment.index, assignment.destination⟩
  awaits : site.Awaits files rest progress.pending world
  reached : items ≠ [] → rest = [] → site.Reached world.tree

/-- The template has a location and the rows have their files in the directory. -/
structure Laid (site : Site) (items : List Assignment) : Prop where
  located : site.before.location? site.template = some site.mark
  enters : ∀ assignment ∈ items, site.Enters assignment

variable {policy : ErrorPolicy} {items rest : List Assignment} {progress : Progress} {world : World}

theorem awaits_of_sole (laid : site.Laid items) (part : ∀ assignment ∈ rest, assignment ∈ items)
    (sole : site.Sole files world.tree) :
    site.Awaits files rest (rest.map (Assignment.pending site.template)) world := by
  cases rest with
  | nil => exact ⟨rfl, sole⟩
  | cons assignment rest =>
    refine ⟨(assignment.pending site.template).work, rfl, ?_⟩
    exact held_alone laid.located (laid.enters _ (part _ List.mem_cons_self)) sole

theorem Lone.length_pending (lone : site.Lone items rest files progress world) :
    progress.pending.length = rest.length := by
  have awaits := lone.awaits
  cases rest with
  | nil => exact congrArg List.length awaits.1
  | cons assignment rest =>
    obtain ⟨work, pending, _⟩ := awaits
    rw [pending, List.length_cons, List.length_map, List.length_cons]

theorem Lone.count_le (lone : site.Lone items rest files progress world) :
    progress.report.generatedCount + progress.pending.length ≤ items.length := by
  obtain ⟨done, rfl, _, outcomes⟩ := lone.passage
  have generated : progress.report.generatedCount ≤ done.length := by
    rw [← List.length_map (fun assignment : Assignment =>
      (⟨assignment.index, assignment.destination⟩ : Outcome)), ← outcomes]
    exact List.countP_le_length
  rw [lone.length_pending, List.length_append]
  omega

/-! ## Moves -/

/-- A staged file is moved into place, or it is not generated. -/
theorem commit_alone {staged : Staged} {scene : Scene}
    (finished : site.Finished files assignment (.ok staged) scene) :
    (∃ failure, (staged.commit.run scene.world).1 = .error failure) ∨
      ∃ name spot home octets, site.Passes assignment name spot home octets files ∧
        (staged.commit.run scene.world).1 = .ok (site.directory.join ⟨name⟩) ∧
        site.Begun (Function.update (Function.update files spot none) home (some octets))
          (staged.commit.run scene.world).2.tree := by
  obtain ⟨name, spot, octets, chosen, rfl, filled, drafting⟩ := finished
  have noSlash := FileTree.endsInSlash_join site.directory chosen.plain
  have renamed := FileTree.rename_eq drafting.find noSlash
  rw [Staged.commit, Task.run_bind, Run.run_rename]
  cases landed : scene.tree.landing (site.directory.join ⟨name⟩) with
  | error fault =>
    rw [landed] at renamed
    simp only [renamed, Task.run_bind, Task.run_pure]
    exact .inl ⟨_, rfl⟩
  | ok home =>
    rw [landed] at renamed
    obtain ⟨begun, located⟩ := drafting.moved landed
    simp only [renamed, Task.run_pure]
    refine .inr ⟨name, spot, home, octets, ⟨chosen, ?_, located, filled⟩, rfl, ?_⟩
    · exact drafting.1.1.location?_of_target drafting.2
    · unfold World.countMoved
      split
      · exact begun
      · split <;> exact begun

/-- Behind a row that is generated the next one works by itself. -/
theorem Lone.recorded (laid : site.Laid items)
    (lone : site.Lone items (assignment :: rest) files progress world) {name : Bytes}
    {spot home : Location} {octets : Bytes}
    (passes : site.Passes assignment name spot home octets files) {later : World}
    (begun : site.Begun (Function.update (Function.update files spot none) home (some octets))
      later.tree)
    {early : Progress} (pending : early.pending = rest.map (Assignment.pending site.template))
    (outcomes : early.outcomes = progress.outcomes) (running : early.halted = false) :
    site.Lone items rest (Function.update (Function.update files spot none) home (some octets))
      (early.recorded policy assignment.index (.ok (site.directory.join ⟨name⟩))) later := by
  obtain ⟨done, rfl, passage, same⟩ := lone.passage
  refine ⟨?_, ⟨done ++ [assignment], by simp, passage.snoc passes, ?_⟩, ?_, fun _ _ => begun.2⟩
  · simp only [Progress.recorded, running, Bool.false_or]
    cases policy <;> rfl
  · simp only [Progress.recorded, outcomes, same, List.map_append, List.map_cons, List.map_nil,
      passes.chosen.destination]
  · rw [Run.pending_recorded, pending]
    exact awaits_of_sole laid (fun other member => List.mem_append_right done
      (List.mem_cons_of_mem assignment member)) begun.1

/-- A row that works by itself is generated, or not all rows will be. -/
theorem Lone.settle (laid : site.Laid items) (lone : site.Lone items rest files progress world) :
    (∃ files', site.Lone items rest.tail files' ((progress.settle policy 0).run world).1
        ((progress.settle policy 0).run world).2) ∨
      ((progress.settle policy 0).run world).1.Spoilt items.length := by
  cases rest with
  | nil =>
    refine .inl ⟨files, ?_⟩
    rw [Run.run_settle_nil lone.awaits.1]
    exact lone
  | cons assignment rest =>
    obtain ⟨work, pending, held⟩ := lone.awaits
    have alone : (site.alone files).Apart [assignment] := List.pairwise_singleton ..
    have completed := Run.Terms.crew_completeBeside alone held .nil
    simp only [Progress.settle, pending, lone.running, Task.run_bind, List.take_zero,
      List.drop_zero]
    generalize (Run.completeBeside false work []).run world = ran at completed
    obtain ⟨⟨result, making⟩, later⟩ := ran
    obtain ⟨finished, crew, _⟩ := completed
    obtain rfl : making = [] := List.forall₂_nil_left_iff.1 crew
    simp only [Bool.false_eq_true, if_false, List.nil_append, List.tail_cons]
    have spoilt : Progress.Spoilt items.length { progress with
        pending := rest.map (Assignment.pending site.template), halted := false } := by
      have whole := lone.count_le
      rw [pending, List.length_cons] at whole
      exact whole
    cases result with
    | error failure =>
      refine .inr ?_
      rcases Run.run_record_error policy _ assignment.index failure later with recorded | recorded
      · rw [recorded]
        exact spoilt.recorded_error ..
      · rw [recorded]
        exact spoilt
    | ok staged =>
      obtain ⟨recorded, core⟩ := Run.run_record_ok policy { progress with
        pending := rest.map (Assignment.pending site.template), halted := false } assignment.index
        staged later
      rw [recorded]
      rcases commit_alone finished with
        ⟨failure, failed⟩ | ⟨name, spot, home, octets, passes, ok, begun⟩
      · rw [failed]
        exact .inr (spoilt.recorded_error ..)
      · rw [ok]
        have tree : World.tree _ = (staged.commit.run later).2.tree := congrArg (·.1) core
        exact .inl ⟨_, lone.recorded laid passes (tree ▸ begun) rfl rfl rfl⟩

theorem Lone.advance (lone : site.Lone items rest files progress world) :
    site.Lone items rest files
      { progress with
        pending := ((Run.advanceAt progress.halted 0 progress.pending).run world).1 }
      ((Run.advanceAt progress.halted 0 progress.pending).run world).2 := by
  have awaits := lone.awaits
  cases rest with
  | nil =>
    rw [awaits.1]
    exact ⟨lone.running, lone.passage, ⟨rfl, awaits.2⟩, lone.reached⟩
  | cons assignment rest =>
    obtain ⟨work, pending, held⟩ := awaits
    obtain ⟨later, _⟩ := held.advance
    rw [pending, lone.running]
    simp only [Run.advanceAt, Task.run_bind, Task.run_pure]
    exact ⟨rfl, lone.passage, ⟨_, rfl, later⟩, fun _ none => absurd none (by simp)⟩

/-- An interruption changes nothing for the row that is in the making. -/
theorem Lone.cancel (lone : site.Lone items rest files progress world) :
    site.Lone items rest files progress { world with cancelled := true } where
  running := lone.running
  passage := lone.passage
  awaits := by
    have awaits := lone.awaits
    cases rest with
    | nil => exact awaits
    | cons assignment rest =>
      obtain ⟨work, pending, held⟩ := awaits
      have still : Undisturbed ⟨false, world⟩ ⟨false, { world with cancelled := true }⟩ := rfl
      exact ⟨work, pending, held.relied still⟩
  reached := lone.reached

/-- A run of one row after another stands so to the end, or not all of its rows will be generated. -/
theorem lasting_lone (laid : site.Laid items) (schedule : Schedule) :
    Run.Lasting schedule policy 1 fun progress world =>
      (∃ rest files, site.Lone items rest files progress world) ∨ progress.Spoilt items.length where
  settle few := by
    obtain rfl := Nat.lt_one_iff.1 few
    rintro (⟨rest, files, lone⟩ | spoilt)
    · exact (lone.settle laid).imp_left fun settled => ⟨_, settled⟩
    · exact .inr (spoilt.onward (Progress.onward_settle ..))
  advance inside := by
    obtain rfl := Nat.lt_one_iff.1 inside
    rintro (⟨rest, files, lone⟩ | spoilt)
    · exact .inl ⟨rest, files, lone.advance⟩
    · exact .inr (spoilt.onward (Progress.onward_advance ..))
  interrupt _ := by
    rintro (⟨rest, files, lone⟩ | spoilt)
    · exact .inl ⟨rest, files, lone.cancel⟩
    · exact .inr spoilt

/-! ## Runs that generate all their rows -/

/-- A run in which nothing has been done. -/
theorem lone_start {request : Request} (laid : site.Laid request.assigned)
    (template : request.template = site.template) (before : world.tree = site.before) :
    site.Lone request.assigned request.assigned site.before.content? (Progress.start request)
      world where
  running := rfl
  passage := ⟨[], rfl, .nil, rfl⟩
  awaits := by
    rw [Run.pending_start, template]
    refine awaits_of_sole laid (fun _ member => member) ?_
    rw [before]
    exact sole_before
  reached some_ none := absurd none some_

/-- What is there when a run has generated all its rows, one at a time. -/
structure Complete (site : Site) (items : List Assignment) (files : Files) (report : Report)
    (world : World) : Prop where
  passage : site.Passage site.before.content? items files
  outcomes : report.outcomes =
    items.map fun assignment => ⟨assignment.index, assignment.destination⟩
  sole : site.Sole files world.tree
  reached : items ≠ [] → site.Reached world.tree

theorem Complete.of_tree {report : Report} {later : World}
    (complete : site.Complete items files report world) (tree : later.tree = world.tree) :
    site.Complete items files report later where
  passage := complete.passage
  outcomes := complete.outcomes
  sole := tree ▸ complete.sole
  reached some_ := tree ▸ complete.reached some_

theorem Lone.complete (lone : site.Lone items [] files progress world) :
    site.Complete items files progress.report world := by
  obtain ⟨done, split, passage, outcomes⟩ := lone.passage
  rw [List.append_nil] at split
  subst split
  exact ⟨passage, outcomes, lone.awaits.2, fun some_ => lone.reached some_ rfl⟩

theorem complete_generate {request : Request} (laid : site.Laid request.assigned)
    (template : request.template = site.template) (before : world.tree = site.before)
    (one : request.width = 1) (schedule : Schedule)
    (generated : request.assigned.length ≤
      ((Run.generate schedule request).run world).1.generatedCount) :
    ∃ files, site.Complete request.assigned files ((Run.generate schedule request).run world).1
      ((Run.generate schedule request).run world).2 := by
  have start := lone_start laid template before
  have lasting : Run.Lasting schedule request.errorPolicy request.width _ :=
    one ▸ lasting_lone laid schedule
  obtain ⟨progress, ⟨rest, files, lone⟩ | spoilt, none, same⟩ :=
    lasting.generate (.inl ⟨_, _, start⟩)
  · obtain rfl : rest = [] := by
      rw [← List.length_eq_zero_iff, ← lone.length_pending, none, List.length_nil]
    exact ⟨files, same ▸ lone.complete⟩
  · rw [same] at generated
    unfold Progress.Spoilt at spoilt
    omega

end Site

end MailMerge
