import MailMerge.Proofs.Run.Generation
import MailMerge.Run.Process

/-!
# Runs of a request

Before any row is attended to a request may be refused as a whole, and whether it is depends on the
tree alone (`Request.refusal?`, `Run.run_process`).  If it is not, its rows are generated
(`Run.exists_begins`), its template is a file, and the run takes place on the site of the request
(`Request.site`, `exists_grounded_of_accepted`).

What the rows have to be like so that none disturbs another can be told from the request and the
tree before the run: temporary files are apart from whatever is there and from all destinations
(`Request.FreshTemporaries`), and no row moves its file to the template while a later row is in the
making (`Request.KeepsTemplate`).  This is what a run needs to take its course (`cast_of_fresh`).
-/

namespace MailMerge

open Run (Assignment Schedule)

set_option autoImplicit false

namespace Request

/-! ## Requests that are refused as a whole -/

/-- Why the template is not text, if it is not. -/
def unreadable? (path : Path) (reading : Except Fault Bytes) : Option Failure :=
  match reading with
  | .error fault => some (.io path fault)
  | .ok content =>
    match Utf8.decode content with
    | .error _ => some (.io path .notText)
    | .ok _ => none

/-- Why a request fails as a whole, if it does. -/
def refusal? (request : Request) (tree : FileTree) : Option Failure :=
  match tree.kind request.template with
  | .ok .directory => some (.templateNotFound request.template)
  | .error fault =>
    if fault.isNotFound then some (.templateNotFound request.template)
    else some (.io request.template fault)
  | .ok .file =>
    if request.rows.isEmpty then none
    else unreadable? request.template (tree.read request.template)

end Request

namespace Run

/-- Nothing but notices are given. -/
theorem core_noteAll (level : Journal.Level) (messages : List String) (world : World) :
    ((noteAll level messages).run world).2.core = world.core := by
  induction messages generalizing world with
  | nil => rfl
  | cons message rest ih =>
    rw [noteAll, Task.run_bind]
    exact ih _

theorem core_noteRepetitions (request : Request) (world : World) :
    ((noteRepetitions request).run world).2.core = world.core := by
  unfold noteRepetitions
  cases request.duplicatePolicy with
  | overwrite => exact core_noteAll ..
  | error => rfl

theorem core_noteReport (request : Request) (report : Report) (world : World) :
    ((noteReport request report).run world).2.core = world.core := by
  unfold noteReport
  cases report.cancelled <;> rfl

theorem run_openTemplate (path : Path) (world : World) :
    (openTemplate path).run world =
      (match world.tree.kind path with
        | .ok .file => .ok ()
        | .ok .directory => .error (.templateNotFound path)
        | .error fault =>
          if fault.isNotFound then .error (.templateNotFound path) else .error (.io path fault),
        world) := by
  have asked : (Task.kind path).run world = (world.tree.kind path, world) := rfl
  rw [openTemplate, Task.run_bind, asked]
  cases world.tree.kind path with
  | ok kind => cases kind <;> rfl
  | error fault => by_cases missing : fault.isNotFound = true <;> simp [missing]

theorem run_templatePlaceholders (path : Path) (world : World) :
    ∃ names, (templatePlaceholders path).run world =
      (match Request.unreadable? path (world.tree.read path) with
        | some failure => .error failure
        | none => .ok names, world) := by
  have asked : (Task.read path).run world = (world.tree.read path, world) := rfl
  rw [templatePlaceholders, Task.run_bind, asked]
  cases world.tree.read path with
  | error fault => exact ⟨[], rfl⟩
  | ok content =>
    simp only [Request.unreadable?]
    cases Utf8.decode content with
    | error e => exact ⟨[], rfl⟩
    | ok text => exact ⟨Template.placeholders (.ofList text), rfl⟩

theorem run_noteUnprovided (request : Request) (world : World) :
    ∃ next : World, next.core = world.core ∧ (noteUnprovided request).run world =
      (match if request.rows.isEmpty then none
          else Request.unreadable? request.template (world.tree.read request.template) with
        | some failure => .error failure
        | none => .ok (), next) := by
  rw [noteUnprovided]
  cases request.rows.isEmpty with
  | true => exact ⟨world, rfl, rfl⟩
  | false =>
    obtain ⟨names, ran⟩ := run_templatePlaceholders request.template world
    simp only [Bool.false_eq_true, if_false, Task.run_bind, ran]
    cases Request.unreadable? request.template (world.tree.read request.template) with
    | some failure => exact ⟨world, rfl, rfl⟩
    | none =>
      simp only [Task.run_bind, Task.run_pure]
      exact ⟨_, core_noteAll .warn _ world, rfl⟩

/-- A request is refused as a whole, or its rows are generated; around that there are notices. -/
theorem run_process (schedule : Schedule) (request : Request) (world : World) :
    match request.refusal? world.tree with
    | some failure => ((process schedule request).run world).1 = .error failure ∧
        ((process schedule request).run world).2.core = world.core
    | none => ∃ early : World, early.core = world.core ∧
        ((process schedule request).run world).1 =
          .ok ((generate schedule request).run early).1 ∧
        ((process schedule request).run world).2.core =
          ((generate schedule request).run early).2.core := by
  rw [process, Task.run_bind, run_openTemplate]
  unfold Request.refusal?
  cases world.tree.kind request.template with
  | error fault => by_cases missing : fault.isNotFound = true <;> simp [missing]
  | ok kind =>
    cases kind with
    | directory => simp
    | file =>
      simp only [Task.run_bind]
      generalize noted : ((Task.note .info _ none).run world).2 = next
      have core : next.core = world.core := noted ▸ rfl
      have tree : next.tree = world.tree := congrArg (·.1) core
      obtain ⟨last, core', ran⟩ := run_noteUnprovided request next
      rw [ran, tree]
      generalize (if request.rows.isEmpty then none
        else Request.unreadable? request.template (world.tree.read request.template)) = refusal
      cases refusal with
      | some failure => exact ⟨rfl, core'.trans core⟩
      | none =>
        simp only [Task.run_bind, Task.run_pure]
        refine ⟨_, ?_, rfl, core_noteReport ..⟩
        exact (core_noteRepetitions request last).trans (core'.trans core)

/-- The rows of a request are generated from a world on that differs by notices from the one in which
its run begins. -/
structure Begins (schedule : Schedule) (request : Request) (world early : World) : Prop where
  tree : early.tree = world.tree
  cancelled : early.cancelled = world.cancelled
  patience : early.patience = world.patience
  report : ((process schedule request).run world).1 = .ok ((generate schedule request).run early).1
  files : ((process schedule request).run world).2.tree =
    ((generate schedule request).run early).2.tree

theorem exists_begins (schedule : Schedule) {request : Request} {world : World}
    (accepted : request.refusal? world.tree = none) :
    ∃ early, Begins schedule request world early := by
  have ran := run_process schedule request world
  rw [accepted] at ran
  obtain ⟨early, core, report, core'⟩ := ran
  exact ⟨early, congrArg (·.1) core, congrArg (·.2.1) core, congrArg (·.2.2) core, report,
    congrArg (·.1) core'⟩

/-- A request with a report was not refused as a whole. -/
theorem accepted_of_process {request : Request} {world : World} {schedule : Schedule}
    {report : Report} (ok : ((process schedule request).run world).1 = .ok report) :
    request.refusal? world.tree = none := by
  have ran := run_process schedule request world
  cases refusal : request.refusal? world.tree with
  | none => rfl
  | some failure =>
    rw [refusal] at ran
    exact absurd (ok.symm.trans ran.1) (by simp)

/-- A request that is refused as a whole leaves everything as it was. -/
theorem process_of_refused {request : Request} {world : World} {schedule : Schedule}
    {failure : Failure} (refused : request.refusal? world.tree = some failure) :
    ((process schedule request).run world).1 = .error failure ∧
      ((process schedule request).run world).2.tree = world.tree := by
  have ran := run_process schedule request world
  rw [refused] at ran
  exact ⟨ran.1, congrArg (·.1) ran.2⟩

/-- The report of a request is that of the rows it generates. -/
theorem exists_begins_of_process {request : Request} {world : World} {schedule : Schedule}
    {report : Report} (ok : ((process schedule request).run world).1 = .ok report) :
    ∃ early, Begins schedule request world early ∧
      ((generate schedule request).run early).1 = report := by
  obtain ⟨early, begins⟩ := exists_begins schedule (accepted_of_process ok)
  exact ⟨early, begins, Except.ok.inj (begins.report.symm.trans ok)⟩

end Run

/-! ## The site of a request -/

namespace Request

/-- Where the run of a request takes place. -/
def site (request : Request) (tree : FileTree) (mark : Location) : Site :=
  ⟨tree, request.template, mark, request.directory⟩

/-- At the location of a temporary file there is nothing before the run, and none of the
destinations has that location. -/
def FreshTemporaries (request : Request) (tree : FileTree) : Prop :=
  ∀ assignment ∈ request.planned, ∀ destination, assignment.destination = .ok destination →
    ∀ location,
      tree.location? (Destination.temporary destination assignment.index) = some location →
      tree.entry? location = none ∧ ∀ other ∈ request.planned, ∀ path,
        other.destination = .ok path → tree.location? path ≠ some location

/-- At the location of a temporary file there is nothing before the run. -/
def VacantTemporaries (request : Request) (tree : FileTree) : Prop :=
  ∀ assignment ∈ request.planned, ∀ destination, assignment.destination = .ok destination →
    ∀ location,
      tree.location? (Destination.temporary destination assignment.index) = some location →
      tree.entry? location = none

/-- No destination has the location of the template. -/
def SparesTemplate (request : Request) (tree : FileTree) : Prop :=
  ∀ mark, tree.location? request.template = some mark → ∀ assignment ∈ request.planned,
    ∀ destination, assignment.destination = .ok destination → tree.location? destination ≠ some mark

/-- No destination has the location of the template while a later row that has a destination may be
in the making. -/
def KeepsTemplate (request : Request) (tree : FileTree) : Prop :=
  ∀ mark, tree.location? request.template = some mark →
    ∀ position later assignment other, position < later → later < position + request.width →
      request.planned[position]? = some assignment → request.planned[later]? = some other →
        ∀ destination path, assignment.destination = .ok destination →
          other.destination = .ok path → tree.location? destination ≠ some mark

instance decidableForallOk {ε α : Type} {property : α → Prop} [DecidablePred property] :
    (result : Except ε α) → Decidable (∀ value, result = .ok value → property value)
  | .ok value => decidable_of_iff (property value)
    ⟨fun holds _ same => Except.ok.inj same ▸ holds, fun all => all value rfl⟩
  | .error _ => .isTrue nofun

instance (request : Request) (tree : FileTree) : Decidable (request.FreshTemporaries tree) :=
  inferInstanceAs (Decidable (∀ assignment ∈ request.planned,
    ∀ destination, assignment.destination = .ok destination →
      ∀ location ∈ tree.location? (Destination.temporary destination assignment.index),
        tree.entry? location = none ∧ ∀ other ∈ request.planned, ∀ path,
          other.destination = .ok path → tree.location? path ≠ some location))

instance (request : Request) (tree : FileTree) : Decidable (request.VacantTemporaries tree) :=
  inferInstanceAs (Decidable (∀ assignment ∈ request.planned,
    ∀ destination, assignment.destination = .ok destination →
      ∀ location ∈ tree.location? (Destination.temporary destination assignment.index),
        tree.entry? location = none))

instance (request : Request) (tree : FileTree) : Decidable (request.SparesTemplate tree) :=
  inferInstanceAs (Decidable (∀ mark ∈ tree.location? request.template,
    ∀ assignment ∈ request.planned, ∀ destination, assignment.destination = .ok destination →
      tree.location? destination ≠ some mark))

/-- Only rows that are there need be looked at. -/
theorem keepsTemplate_iff {request : Request} {tree : FileTree} :
    request.KeepsTemplate tree ↔ ∀ mark ∈ tree.location? request.template,
      ∀ position < request.planned.length, ∀ between < request.width - 1,
        ∀ assignment ∈ request.planned[position]?,
          ∀ other ∈ request.planned[position + 1 + between]?,
            ∀ destination, assignment.destination = .ok destination →
              ∀ path, other.destination = .ok path → tree.location? destination ≠ some mark := by
  constructor
  · intro keeps mark located position _ between near assignment here other there destination chosen
      path chosen'
    exact keeps mark located position _ assignment other (by omega) (by omega) here there
      destination path chosen chosen'
  · intro bounded mark located position later assignment other before soon here there destination
      path chosen chosen'
    obtain ⟨between, rfl⟩ := Nat.exists_eq_add_of_lt before
    rw [Nat.add_right_comm] at there
    exact bounded mark located position (List.getElem?_eq_some_iff.1 here).1 between (by omega)
      assignment here other there destination chosen path chosen'

instance (request : Request) (tree : FileTree) : Decidable (request.KeepsTemplate tree) :=
  have (mark : Location) (assignment : Assignment) (later : Nat) :
      Decidable (∀ other ∈ request.planned[later]?, ∀ destination,
        assignment.destination = .ok destination → ∀ path, other.destination = .ok path →
          tree.location? destination ≠ some mark) := inferInstance
  decidable_of_iff' _ keepsTemplate_iff

theorem SparesTemplate.keepsTemplate {request : Request} {tree : FileTree}
    (spares : request.SparesTemplate tree) : request.KeepsTemplate tree :=
  fun mark located _ _ assignment _ _ _ here _ destination _ chosen _ =>
    spares mark located assignment (List.mem_of_getElem? here) destination chosen

/-- Rows that run one at a time keep the template for each other. -/
theorem keepsTemplate_of_width_one {request : Request} (one : request.width = 1) (tree : FileTree) :
    request.KeepsTemplate tree := by
  intro mark _ position later assignment other before soon
  omega

variable {request : Request} {tree : FileTree} {mark : Location}

theorem exists_grounded_of_accepted (accepted : request.refusal? tree = none) :
    ∃ mark, (request.site tree mark).Grounded := by
  unfold refusal? at accepted
  split at accepted
  case h_1 => simp at accepted
  case h_2 => split_ifs at accepted
  case h_3 kind =>
    unfold FileTree.kind at kind
    split at kind
    case h_2 => simp at kind
    case h_1 location entry found =>
      cases entry with
      | directory => simp [Entry.kind] at kind
      | file content =>
        obtain ⟨target, there⟩ := FileTree.target_of_find found
        exact ⟨location, target, by simp [site, there]⟩

theorem location?_of_grounded (grounded : (request.site tree mark).Grounded) :
    tree.location? request.template = some mark :=
  FileTree.location?_of_target rfl (fun _ directory => directory.content?) grounded.target

/-! ## The rows of a request -/

theorem getElem?_planned {position : Nat} {assignment : Assignment}
    (found : request.planned[position]? = some assignment) : assignment.index = position ∧
      request.rows[position]? = some assignment.row ∧
        request.plan.destinations[position]? = some assignment.destination := by
  obtain ⟨index, row, destination⟩ := (Run.getElem?_assignments ..).1 found
  exact ⟨index.trans (Nat.zero_add _), row, destination⟩

theorem indices_planned (request : Request) :
    request.planned.map (·.index) = List.range request.rows.length := by
  refine List.ext_getElem (by simp [length_planned]) fun position inside _ => ?_
  rw [List.length_map] at inside
  rw [List.getElem_map, List.getElem_range]
  exact (getElem?_planned (List.getElem?_eq_getElem inside)).1

theorem mem_plan_of_mem_planned {assignment : Assignment} (member : assignment ∈ request.planned) :
    assignment.destination ∈ request.plan.destinations := by
  obtain ⟨position, found⟩ := List.getElem?_of_mem member
  exact List.mem_of_getElem? (getElem?_planned found).2.2

theorem pairwise_planned : request.planned.Pairwise fun left right => left.index ≠ right.index := by
  rw [List.pairwise_iff_getElem]
  intro first second inFirst inSecond before
  rw [(getElem?_planned (List.getElem?_eq_getElem inFirst)).1,
    (getElem?_planned (List.getElem?_eq_getElem inSecond)).1]
  exact Nat.ne_of_lt before

theorem FreshTemporaries.vacant (fresh : request.FreshTemporaries tree) :
    request.VacantTemporaries tree :=
  fun assignment member destination chosen location spot =>
    (fresh assignment member destination chosen location spot).1

theorem fits_of_vacant (vacant : request.VacantTemporaries tree) {assignment : Assignment}
    (member : assignment ∈ request.planned) : (request.site tree mark).Fits assignment where
  entry destination chosen :=
    exists_plain_of_mem_plan (chosen ▸ mem_plan_of_mem_planned member)
  failure failure failed := ne_cancelled_of_mem_plan (failed ▸ mem_plan_of_mem_planned member)
  fresh location spot := by
    obtain ⟨destination, chosen, spot⟩ := Site.exists_of_spot? spot
    exact vacant assignment member destination chosen location spot

theorem fits_of_fresh (fresh : request.FreshTemporaries tree) {assignment : Assignment}
    (member : assignment ∈ request.planned) : (request.site tree mark).Fits assignment :=
  fits_of_vacant fresh.vacant member

/-- The rows of a request do not disturb each other. -/
theorem cast_of_fresh (grounded : (request.site tree mark).Grounded)
    (fresh : request.FreshTemporaries tree) (keeps : request.KeepsTemplate tree) :
    (request.site tree mark).Cast (request.width - 1) request.assigned := by
  obtain ⟨count, assigned⟩ := request.assigned_eq_take
  have inside : ∀ assignment ∈ request.assigned, assignment ∈ request.planned :=
    fun assignment member => List.mem_of_mem_take (assigned ▸ member)
  refine ⟨grounded, fun assignment member => fits_of_fresh fresh (inside assignment member),
    ?_, ?_, ?_⟩
  · rw [assigned]
    exact pairwise_planned.sublist (List.take_sublist _ _)
  · intro left member location spot right member' destination chosen
    obtain ⟨path, chosen', spot⟩ := Site.exists_of_spot? spot
    exact (fresh left (inside left member) path chosen' location spot).2 right
      (inside right member') destination chosen
  · intro done assignment rest split destination chosen located other soon path chosen'
    have whole : request.planned = done ++ assignment :: (rest ++ request.planned.drop count) := by
      rw [← List.cons_append, ← List.append_assoc, ← split, assigned, List.take_append_drop]
    obtain ⟨ahead, found⟩ := List.getElem?_of_mem soon
    rw [List.getElem?_take] at found
    split_ifs at found with near
    have here : request.planned[done.length]? = some assignment := by
      rw [whole, List.getElem?_append_right (Nat.le_refl _), Nat.sub_self, List.getElem?_cons_zero]
    have there : request.planned[done.length + (ahead + 1)]? = some other := by
      rw [whole, List.getElem?_append_right (Nat.le_add_right ..), Nat.add_sub_cancel_left,
        List.getElem?_cons_succ, List.getElem?_append_left (List.getElem?_eq_some_iff.1 found).1,
        found]
    exact keeps mark (location?_of_grounded grounded) _ _ assignment other (by omega) (by omega)
      here there destination path chosen chosen' located

end Request

/-! ## Runs of requests -/

/-- A run depends on the tree and on nothing else that it leaves. -/
theorem Site.Ended.of_tree {site : Site} {policy : ErrorPolicy} {quiet : Prop}
    {items : List Assignment} {report : Report} {world later : World}
    (ended : site.Ended policy quiet items report world) (tree : later.tree = world.tree) :
    site.Ended policy quiet items report later where
  amid := tree ▸ ended.amid
  reached := tree ▸ ended.reached
  course := tree ▸ ended.course
  calm := ended.calm

/-- A request that is not refused as a whole has a report, and its run has ended with it. -/
theorem Run.ended_process {request : Request} {world : World} {mark : Location} {quiet : Prop}
    {schedule : Schedule} (accepted : request.refusal? world.tree = none)
    (grounded : (request.site world.tree mark).Grounded)
    (fresh : request.FreshTemporaries world.tree) (keeps : request.KeepsTemplate world.tree)
    (silent : quiet → .interrupt ∉ schedule)
    (calm : quiet → world.cancelled = false ∧ world.patience = none) :
    ∃ report, ((process schedule request).run world).1 = .ok report ∧
      (request.site world.tree mark).Ended request.errorPolicy quiet request.assigned report
        ((process schedule request).run world).2 := by
  obtain ⟨early, begins⟩ := exists_begins schedule accepted
  have ended := @Site.ended_generate (request.site world.tree mark) quiet early request
    (Request.cast_of_fresh grounded fresh keeps) rfl begins.tree schedule silent fun given => by
      rw [begins.cancelled, begins.patience]
      exact calm given
  exact ⟨_, begins.report, ended.of_tree begins.files⟩

end MailMerge
