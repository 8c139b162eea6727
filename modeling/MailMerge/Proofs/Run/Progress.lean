import Mathlib.Data.List.Forall2
import MailMerge.Proofs.Run.Settling

/-!
# Every run has a course

A run that has come some way stands as follows (`Site.Stands`).  The rows that are settled have had
a course; the rows in the making are on their way to their goals; the rows behind them have not
begun; and apart from the temporary files of the rows in the making, the regular files are those of
the course.  This is kept whoever moves and whatever fails: when a row in the making performs an
operation (`Stands.advance`) and when the first row is settled (`Stands.settle`).
-/

namespace MailMerge

open Run (Assignment Staged Pending Progress Move Schedule)

set_option autoImplicit false

namespace Site

/-- The rows of a run, at most one more than a number of them in the making at the same time, of
which none disturbs another: temporary files are apart from each other, from all destinations and
from everything that was there before, and no row moves its file to the template while another one
that has a destination is in the making. -/
structure Cast (site : Site) (beside : Nat) (items : List Assignment) : Prop where
  grounded : site.Grounded
  fits : ∀ assignment ∈ items, site.Fits assignment
  distinct : items.Pairwise fun left right => left.index ≠ right.index
  clear : ∀ left ∈ items, ∀ location, site.spot? left = some location → ∀ right ∈ items,
    ∀ destination, right.destination = .ok destination →
      site.before.location? destination ≠ some location
  undisturbed : ∀ done assignment rest, items = done ++ assignment :: rest → ∀ destination,
    assignment.destination = .ok destination →
      site.before.location? destination = some site.mark →
        ∀ other ∈ rest.take beside, ∀ later, other.destination ≠ .ok later

/-- How a run stands that has come some way from the files at its start, with some rows left.  There
was nothing at the start where temporary files belong. -/
structure Stands (site : Site) (start : Files) (policy : ErrorPolicy) (beside : Nat) (quiet : Prop)
    (items rest : List Assignment) (files : Files) (progress : Progress) (world : World) :
    Prop where
  amid : site.Amid world.tree
  vacant : ∀ assignment ∈ items, ∀ location, site.spot? assignment = some location →
    start location = none
  reached : (∃ outcome ∈ progress.outcomes, ∃ path, outcome.result = .ok path) →
    site.Reached world.tree
  course : ∃ done skipped, items = done ++ skipped ++ rest ∧
    (progress.halted = false → skipped = []) ∧
    site.Course start done progress.outcomes files
  crew : site.terms.Crew ⟨progress.halted, world⟩ (rest.take (beside + 1))
    (progress.pending.take (beside + 1))
  waiting : progress.pending.drop (beside + 1) =
    (rest.drop (beside + 1)).map (Assignment.pending site.template)
  files : ∀ location, (∀ assignment ∈ rest.take (beside + 1),
    site.spot? assignment ≠ some location) → world.tree.content? location = files location
  interrupted : progress.interrupted = true → progress.halted = true ∧ world.cancelled = true
  successes : progress.halted = false → policy = .abort →
    ∀ outcome ∈ progress.outcomes, ∃ path, outcome.result = .ok path
  stopped : progress.halted = true → progress.interrupted = true ∨ policy = .abort ∧
    ∃ earlier last failure, progress.outcomes = earlier ++ [last] ∧ last.result = .error failure ∧
      ∀ outcome ∈ earlier, ∃ path, outcome.result = .ok path
  calm : quiet → world.cancelled = false ∧ world.patience = none

variable {site : Site} {start : Files} {policy : ErrorPolicy} {beside : Nat} {quiet : Prop}
  {items rest : List Assignment} {files : Files} {progress : Progress} {world : World}

/-! ## The rows of a run -/

theorem Cast.apart (cast : site.Cast beside items) {some_ : List Assignment}
    (part : some_.Sublist items) : site.terms.Apart some_ := by
  have distinct := cast.distinct.sublist part
  refine distinct.imp_of_mem fun left right apart => ?_
  have fitsLeft := cast.fits _ (part.subset left)
  have fitsRight := cast.fits _ (part.subset right)
  exact ⟨tolerates cast.grounded fitsLeft fitsRight apart,
    tolerates cast.grounded fitsRight fitsLeft apart.symm⟩

theorem Stands.sublist
    (stands : site.Stands start policy beside quiet items rest files progress world) :
    rest.Sublist items := by
  obtain ⟨done, skipped, split, _⟩ := stands.course
  exact split ▸ List.sublist_append_right _ _

theorem Stands.length_pending
    (stands : site.Stands start policy beside quiet items rest files progress world) :
    progress.pending.length = rest.length := by
  have first := stands.crew.length_eq
  have second := congrArg List.length stands.waiting
  rw [List.length_take, List.length_take] at first
  rw [List.length_map, List.length_drop, List.length_drop] at second
  omega

/-- The rows of a crew have moved, and nothing else has happened. -/
theorem Stands.worked
    (stands : site.Stands start policy beside quiet items rest files progress world)
    {later : World} {pending : List Pending}
    (crew : site.terms.Crew ⟨progress.halted, later⟩ (rest.take (beside + 1))
      (pending.take (beside + 1)))
    (waiting : pending.drop (beside + 1) = progress.pending.drop (beside + 1))
    (worked : site.Worked (rest.take (beside + 1)) ⟨progress.halted, world⟩
      ⟨progress.halted, later⟩) :
    site.Stands start policy beside quiet items rest files { progress with pending } later where
  amid := worked.amid
  vacant := stands.vacant
  reached generated := (stands.reached generated).mono worked.base worked.directories
  course := stands.course
  crew := crew
  waiting := waiting.trans stands.waiting
  files location elsewhere :=
    (worked.others location elsewhere).trans (stands.files location elsewhere)
  interrupted given := ⟨(stands.interrupted given).1,
    worked.cancelled.trans (stands.interrupted given).2⟩
  successes := stands.successes
  stopped := stands.stopped
  calm given := ⟨worked.cancelled.trans (stands.calm given).1,
    worked.patience.trans (stands.calm given).2⟩

/-! ## One row moves -/

/-- The first elements of a list are replaced by as many others. -/
theorem take_drop_replaced {α : Type} {made list : List α} {few many : Nat}
    (length : made.length = (list.take few).length) (le : few ≤ many) :
    (made ++ list.drop few).take many = made ++ (list.take many).drop few ∧
      (made ++ list.drop few).drop many = list.drop many := by
  rw [List.length_take] at length
  have shorter : made.length ≤ many := by omega
  rw [List.take_append, List.drop_append, List.take_of_length_le shorter,
    List.drop_eq_nil_of_le shorter, List.nil_append, List.drop_drop, List.drop_take]
  by_cases short : few ≤ list.length
  · rw [length, Nat.min_eq_left short, Nat.add_sub_cancel' le]
    exact ⟨rfl, rfl⟩
  · have nothing : ∀ count, list.length ≤ count → list.drop count = [] :=
      fun count beyond => List.drop_eq_nil_of_le beyond
    rw [nothing few (by omega), nothing many (by omega), nothing _ (by omega), List.take_nil,
      List.take_nil]
    exact ⟨rfl, rfl⟩

/-- A row in the making is one of the first. -/
theorem run_advanceAt {halted : Bool} {position width : Nat} (inside : position < width)
    (pending : List Pending) (world : World) :
    (Run.advanceAt halted position pending).run world =
      (((Run.advanceAt halted position (pending.take width)).run world).1 ++ pending.drop width,
        ((Run.advanceAt halted position (pending.take width)).run world).2) := by
  induction pending generalizing position width world with
  | nil => cases position <;> simp [Run.advanceAt]
  | cons first rest ih =>
    obtain ⟨width, rfl⟩ := Nat.exists_eq_add_of_lt inside
    cases position with
    | zero => simp [Run.advanceAt]
    | succ position =>
      rw [show position + 1 + width + 1 = (position + width + 1) + 1 by omega, List.take_succ_cons,
        List.drop_succ_cons]
      simp only [Run.advanceAt, Task.run_bind, Task.run_pure]
      rw [ih (show position < position + width + 1 by omega)]
      rfl

theorem Stands.advance (cast : site.Cast beside items)
    (stands : site.Stands start policy beside quiet items rest files progress world)
    {position : Nat}
    (inside : position < beside + 1) :
    site.Stands start policy beside quiet items rest files
      { progress with
        pending := ((Run.advanceAt progress.halted position progress.pending).run world).1 }
      ((Run.advanceAt progress.halted position progress.pending).run world).2 := by
  have apart := cast.apart ((List.take_sublist (beside + 1) rest).trans stands.sublist)
  obtain ⟨crew, moved⟩ := @Run.Terms.crew_advanceAt _ _ position _ _ _ apart stands.crew
  have length : ((Run.advanceAt progress.halted position (progress.pending.take (beside + 1))).run
      world).1.length = (progress.pending.take (beside + 1)).length :=
    crew.length_eq.symm.trans stands.crew.length_eq
  obtain ⟨first, others⟩ := take_drop_replaced length (Nat.le_refl _)
  have none : (progress.pending.take (beside + 1)).drop (beside + 1) = [] := by simp
  rw [none, List.append_nil] at first
  rw [run_advanceAt inside]
  refine stands.worked ?_ others (worked_of_moved stands.amid moved)
  rw [first]
  exact crew

/-! ## The first row completes its work -/

/-- What is left when the work of the first row is done. -/
structure Through (site : Site) (beside : Nat) (assignment : Assignment) (rest : List Assignment)
    (pending : List Pending) (halted : Bool) (world later : World) : Prop where
  crew : site.terms.Crew ⟨halted, later⟩ (rest.take beside) (pending.take beside)
  waiting : pending.drop beside = (rest.drop beside).map (Assignment.pending site.template)
  worked : site.Worked (assignment :: rest.take beside) ⟨halted, world⟩ ⟨halted, later⟩

/-- A row and some of the others that are in the making with it complete the row's work. -/
theorem Stands.completeBeside (cast : site.Cast beside items) {assignment : Assignment}
    {first : Pending} {tail : List Pending}
    (stands : site.Stands start policy beside quiet items (assignment :: rest) files progress world)
    (same : progress.pending = first :: tail) {others : Nat} (le : others ≤ beside)
    {result : Except Failure Staged} {making : List Pending} {later : World}
    (ran : (Run.completeBeside progress.halted first.work (tail.take others)).run world =
      ((result, making), later)) :
    first.index = assignment.index ∧ site.Goal assignment result ⟨progress.halted, later⟩ ∧
      site.Through beside assignment rest (making ++ tail.drop others) progress.halted world
        later := by
  have crew := stands.crew
  rw [same, List.take_succ_cons, List.take_succ_cons] at crew
  cases crew with
  | cons here crew =>
    have part : (assignment :: rest.take beside).Sublist items :=
      ((List.take_sublist beside rest).cons_cons assignment).trans stands.sublist
    have completed := Run.Terms.crew_completeFirst others (cast.apart part) here.2 crew
    rw [List.take_take, Nat.min_eq_left le, ran] at completed
    obtain ⟨goal, whole, moved⟩ := completed
    have lengths : making.length = (tail.take others).length := by
      have length := stands.length_pending
      have kept := whole.length_eq
      simp only [same, List.length_cons, List.length_append, List.length_take,
        List.length_drop] at length kept ⊢
      omega
    obtain ⟨front, back⟩ := take_drop_replaced lengths le
    refine ⟨here.1, goal, front ▸ whole, ?_, worked_of_moved stands.amid moved⟩
    rw [back]
    have waiting := stands.waiting
    rwa [same, List.drop_succ_cons, List.drop_succ_cons] at waiting

/-- A row that has not begun enters the crew. -/
theorem crew_enter {scene : Scene} {pending : List Pending} {template : Path}
    (crew : site.terms.Crew scene (rest.take beside) (pending.take beside))
    (waiting : pending.drop beside = (rest.drop beside).map (Assignment.pending template))
    (held : ∀ assignment ∈ rest.drop beside,
      site.terms.Held assignment (assignment.pending template).work scene) :
    site.terms.Crew scene (rest.take (beside + 1)) (pending.take (beside + 1)) ∧
      pending.drop (beside + 1) = (rest.drop (beside + 1)).map (Assignment.pending template) := by
  rw [List.take_add, List.take_add, ← List.drop_drop, ← List.drop_drop, waiting]
  cases behind : rest.drop beside with
  | nil => exact ⟨by simpa using crew, rfl⟩
  | cons next more =>
    rw [behind] at held
    refine ⟨crew.append ?_, rfl⟩
    exact .cons ⟨rfl, held next List.mem_cons_self⟩ .nil

/-! ## The first row is settled -/

theorem location?_of_landing {path : Path} {location : Location}
    (landed : site.ready.landing path = .ok location) :
    site.before.location? path = some location :=
  FileTree.location?_of_target base_ready (fun _ directory => free_of_ready directory)
    (FileTree.target_of_landing landed).1

/-- The course of a run has no file where a temporary file belongs. -/
theorem Cast.none_of_spot (cast : site.Cast beside items) {done : List Assignment}
    {outcomes : List Outcome} (part : ∀ assignment ∈ done, assignment ∈ items)
    (course : site.Course start done outcomes files) {assignment : Assignment}
    (member : assignment ∈ items) {location : Location}
    (spot : site.spot? assignment = some location) (vacant : start location = none) :
    files location = none := by
  rw [← vacant]
  refine course.eq_of_ne fun outcome recorded path ok landed => ?_
  obtain ⟨other, inside, chosen⟩ := course.exists_chosen recorded ok
  exact cast.clear assignment member location spot other (part other inside) path chosen
    (location?_of_landing landed)

theorem Stands.none_of_spot
    (stands : site.Stands start policy beside quiet items rest files progress world)
    (cast : site.Cast beside items) {assignment : Assignment} (member : assignment ∈ items)
    {location : Location} (spot : site.spot? assignment = some location) :
    files location = none := by
  obtain ⟨done, skipped, split, _, course⟩ := stands.course
  refine cast.none_of_spot (fun _ early => ?_) course member spot
    (stands.vacant assignment member location spot)
  exact split ▸ List.mem_append_left _ (List.mem_append_left _ early)

theorem relied_of_worked (cast : site.Cast beside items) {assignment other : Assignment}
    (member : assignment ∈ items) (member' : other ∈ items)
    (apart : other.index ≠ assignment.index) {scene next : Scene}
    (worked : site.Worked [assignment] scene next) (halted : next.halted = scene.halted) :
    site.Relied other scene next := by
  refine ⟨worked.amid, worked.base, worked.directories, fun location spot => ?_, fun _ => ?_, ?_⟩
  · refine worked.others location fun single inside => ?_
    obtain rfl := List.mem_singleton.1 inside
    exact spot?_ne (cast.fits _ member').entry (cast.fits _ member).entry apart spot
  · refine worked.others _ fun single inside => ?_
    obtain rfl := List.mem_singleton.1 inside
    exact (cast.fits _ member).ne_mark cast.grounded
  · rw [Scene.stopping, Scene.stopping, worked.cancelled, halted]
    exact id

/-- The crew after its first row was settled: the others are not disturbed, and the next row that
has not begun joins them. -/
theorem crew_after (cast : site.Cast beside items) (part : rest.Sublist items)
    {scene next : Scene} {pending : List Pending}
    (crew : site.terms.Crew scene (rest.take beside) (pending.take beside))
    (waiting : pending.drop beside = (rest.drop beside).map (Assignment.pending site.template))
    (relied : ∀ assignment ∈ rest.take beside, site.Relied assignment scene next)
    (amid : site.Amid next.tree)
    (same : ∀ location, (∀ assignment ∈ rest.take beside, site.spot? assignment ≠ some location) →
      next.tree.content? location = files location)
    (none : ∀ assignment ∈ items, ∀ location, site.spot? assignment = some location →
      files location = none) :
    site.terms.Crew next (rest.take (beside + 1)) (pending.take (beside + 1)) ∧
      pending.drop (beside + 1) =
        (rest.drop (beside + 1)).map (Assignment.pending site.template) := by
  refine crew_enter (crew.relied relied) waiting fun assignment late => ?_
  have member := part.subset (List.mem_of_mem_drop late)
  refine held_pending cast.grounded (cast.fits _ member) amid fun location spot => ?_
  rw [same, none assignment member location spot]
  intro other early
  have distinct := cast.distinct.sublist part
  rw [← List.take_append_drop beside rest, List.pairwise_append] at distinct
  exact spot?_ne (cast.fits _ member).entry
    (cast.fits _ (part.subset (List.mem_of_mem_take early))).entry
    (distinct.2.2 other early assignment late).symm spot

section Settling

variable {assignment : Assignment} {pending : List Pending} {later last : World}

/-- The rows that are left when the first one has been settled. -/
theorem Stands.mem_items
    (stands : site.Stands start policy beside quiet items rest files progress world)
    {other : Assignment} (member : other ∈ rest) : other ∈ items :=
  stands.sublist.subset member

/-- What the first row has to do with the others. -/
theorem Cast.index_ne (cast : site.Cast beside items) (part : (assignment :: rest).Sublist items)
    {other : Assignment} (member : other ∈ rest) : other.index ≠ assignment.index :=
  ((List.pairwise_cons.1 (cast.distinct.sublist part)).1 other member).symm

/-- After the work of the first row the files elsewhere are those of the course. -/
theorem Stands.files_of_worked
    (stands : site.Stands start policy beside quiet items (assignment :: rest) files progress world)
    (worked : site.Worked (assignment :: rest.take beside) ⟨progress.halted, world⟩
      ⟨progress.halted, later⟩) {location : Location} (spot : site.spot? assignment ≠ some location)
    (elsewhere : ∀ other ∈ rest.take beside, site.spot? other ≠ some location) :
    later.tree.content? location = files location := by
  have others : ∀ other ∈ assignment :: rest.take beside, site.spot? other ≠ some location :=
    List.forall_mem_cons.2 ⟨spot, elsewhere⟩
  rw [← stands.files location (by rwa [List.take_succ_cons])]
  exact worked.others location others

/-- The rows that are in the making when the first one has been settled.  It must not have disturbed
them, there must be nothing left under its temporary name, and elsewhere the files must have come to
those of the course. -/
theorem Stands.crew_onward (cast : site.Cast beside items)
    (stands : site.Stands start policy beside quiet items (assignment :: rest) files progress world)
    (through : site.Through beside assignment rest pending progress.halted world later)
    {files' : Files} {next : Scene}
    (relied : ∀ other ∈ rest.take beside, site.Relied other ⟨progress.halted, later⟩ next)
    (amid : site.Amid next.tree)
    (vacant : ∀ other ∈ items, ∀ location, site.spot? other = some location →
      files' location = none)
    (own : ∀ location, site.spot? assignment = some location → next.tree.content? location = none)
    (others : ∀ location, site.spot? assignment ≠ some location →
      later.tree.content? location = files location →
        next.tree.content? location = files' location) :
    site.terms.Crew next (rest.take (beside + 1)) (pending.take (beside + 1)) ∧
      pending.drop (beside + 1) =
        (rest.drop (beside + 1)).map (Assignment.pending site.template) ∧
      ∀ location, (∀ other ∈ rest.take (beside + 1), site.spot? other ≠ some location) →
        next.tree.content? location = files' location := by
  have member : assignment ∈ items := stands.mem_items List.mem_cons_self
  have part : rest.Sublist items := (List.sublist_cons_self _ _).trans stands.sublist
  have same : ∀ location, (∀ other ∈ rest.take beside, site.spot? other ≠ some location) →
      next.tree.content? location = files' location := by
    intro location elsewhere
    by_cases spot : site.spot? assignment = some location
    · rw [own location spot, vacant assignment member location spot]
    · exact others location spot (stands.files_of_worked through.worked spot elsewhere)
  obtain ⟨crew, waiting⟩ :=
    crew_after cast part through.crew through.waiting relied amid same vacant
  refine ⟨crew, waiting, fun location elsewhere => same location fun other inside => ?_⟩
  exact elsewhere other (List.take_subset_take_left rest (Nat.le_succ beside) inside)

/-- In a run that has been halted the result of the first row is thrown away. -/
theorem Stands.discarded (cast : site.Cast beside items)
    (stands : site.Stands start policy beside quiet items (assignment :: rest) files progress world)
    (halted : progress.halted = true)
    (through : site.Through beside assignment rest pending progress.halted world later)
    (worked' : site.Worked [assignment] ⟨progress.halted, later⟩ ⟨progress.halted, last⟩)
    (own : ∀ location, site.spot? assignment = some location →
      last.tree.content? location = none) :
    site.Stands start policy beside quiet items rest files { progress with pending } last := by
  obtain ⟨done, skipped, split, _, course⟩ := stands.course
  have member : assignment ∈ items := stands.mem_items List.mem_cons_self
  have relied : ∀ other ∈ rest.take beside, site.Relied other ⟨progress.halted, later⟩
      ⟨progress.halted, last⟩ := fun other inside =>
    relied_of_worked cast member
      (stands.mem_items (List.mem_cons_of_mem _ (List.mem_of_mem_take inside)))
      (cast.index_ne stands.sublist (List.mem_of_mem_take inside)) worked' rfl
  obtain ⟨crew, waiting, same⟩ := stands.crew_onward cast through relied worked'.amid
    (fun _ inside _ => stands.none_of_spot cast inside) own
    fun location spot held => (worked'.others location (by simpa using spot)).trans held
  have cancelled : last.cancelled = world.cancelled :=
    worked'.cancelled.trans through.worked.cancelled
  have patience : last.patience = world.patience := worked'.patience.trans through.worked.patience
  have never : progress.halted ≠ false := by simp [halted]
  exact
    { amid := worked'.amid
      vacant := stands.vacant
      reached := fun generated => ((stands.reached generated).mono through.worked.base
        through.worked.directories).mono worked'.base worked'.directories
      course := ⟨done, skipped ++ [assignment], by simp [split],
        fun running => absurd running never, course⟩
      crew := crew
      waiting := waiting
      files := same
      interrupted := fun given => ⟨halted, cancelled.trans (stands.interrupted given).2⟩
      successes := fun running => absurd running never
      stopped := stands.stopped
      calm := fun given =>
        ⟨cancelled.trans (stands.calm given).1, patience.trans (stands.calm given).2⟩ }

/-- A row has found the run cancelled, and the run is halted. -/
theorem Stands.interrupt (cast : site.Cast beside items)
    (stands : site.Stands start policy beside quiet items (assignment :: rest) files progress world)
    (running : progress.halted = false)
    (through : site.Through beside assignment rest pending progress.halted world later)
    (own : ∀ location, site.spot? assignment = some location →
      later.tree.content? location = none) (cancelled : later.cancelled = true) :
    site.Stands start policy beside quiet items rest files
      { progress with pending, halted := true, interrupted := true } later := by
  obtain ⟨done, skipped, split, complete, course⟩ := stands.course
  -- From now on every inquiry for cancellation is answered with yes.
  have relied : ∀ other ∈ rest.take beside,
      site.Relied other ⟨progress.halted, later⟩ ⟨true, later⟩ :=
    fun other _ => ⟨through.worked.amid, rfl, fun _ directory => directory, fun _ _ => rfl,
      fun _ => rfl, fun _ => Bool.or_true _⟩
  obtain ⟨crew, waiting, same⟩ := stands.crew_onward cast through relied through.worked.amid
    (fun _ inside _ => stands.none_of_spot cast inside) own fun _ _ held => held
  exact
    { amid := through.worked.amid
      vacant := stands.vacant
      reached := fun generated =>
        (stands.reached generated).mono through.worked.base through.worked.directories
      course := ⟨done, [assignment], by simp [split, complete running], nofun, course⟩
      crew := crew
      waiting := waiting
      files := same
      interrupted := fun _ => ⟨rfl, cancelled⟩
      successes := nofun
      stopped := fun _ => .inl rfl
      calm := fun given => ⟨through.worked.cancelled.trans (stands.calm given).1,
        through.worked.patience.trans (stands.calm given).2⟩ }

/-- The others of a crew may rely on a row that is settled. -/
theorem Stands.relied_of_resolves (cast : site.Cast beside items)
    (stands : site.Stands start policy beside quiet items (assignment :: rest) files progress world)
    (running : progress.halted = false) {result : Except Failure Path}
    (resolves : site.Resolves assignment ⟨progress.halted, later⟩ result last) {halted : Bool}
    {other : Assignment}
    (inside : other ∈ rest.take beside) :
    site.Relied other ⟨progress.halted, later⟩ ⟨halted, last⟩ := by
  obtain ⟨done, skipped, split, complete, _⟩ := stands.course
  rw [complete running, List.append_nil] at split
  have member : assignment ∈ items := stands.mem_items List.mem_cons_self
  have member' : other ∈ items :=
    stands.mem_items (List.mem_cons_of_mem _ (List.mem_of_mem_take inside))
  have apart := cast.index_ne stands.sublist (List.mem_of_mem_take inside)
  have fits := cast.fits _ member
  have fits' := cast.fits _ member'
  refine ⟨resolves.amid, resolves.base, resolves.directories, fun location spot => ?_,
    fun ⟨_, chosen'⟩ => ?_, fun stopping => ?_⟩
  · exact resolves.others location (spot?_ne fits'.entry fits.entry apart spot)
      (cast.clear other member' location spot assignment member)
  · refine resolves.others site.mark (fits.ne_mark cast.grounded)
      fun destination chosen located => ?_
    exact cast.undisturbed done assignment rest split destination chosen located other inside _
      chosen'
  · rw [Scene.stopping, running, Bool.or_false] at stopping
    rw [Scene.stopping, resolves.cancelled stopping, Bool.true_or]

/-- A run that has passed an outcome under the policy to abort has seen no failure. -/
theorem successes_snoc {outcomes : List Outcome} {result : Except Failure Path}
    (successes : ∀ outcome ∈ outcomes, ∃ path, outcome.result = .ok path)
    (goes : Run.stops .abort result = false) (index : Nat) :
    ∀ outcome ∈ outcomes ++ [⟨index, result⟩], ∃ path, outcome.result = .ok path := by
  refine List.forall_mem_append.2 ⟨successes, fun outcome late => ?_⟩
  obtain rfl := List.mem_singleton.1 late
  cases result with
  | ok path => exact ⟨path, rfl⟩
  | error failure => exact absurd goes (by simp [Run.stops_eq_true_iff.2 ⟨rfl, failure, rfl⟩])

/-- In a run that goes on the first row is settled, and its outcome is recorded. -/
theorem Stands.recorded (cast : site.Cast beside items)
    (stands : site.Stands start policy beside quiet items (assignment :: rest) files progress world)
    (running : progress.halted = false)
    (through : site.Through beside assignment rest pending progress.halted world later)
    {result : Except Failure Path}
    (resolves : site.Resolves assignment ⟨progress.halted, later⟩ result last) :
    ∃ files', site.Stands start policy beside quiet items rest files'
      (Progress.recorded policy { progress with pending } assignment.index result) last := by
  have member : assignment ∈ items := stands.mem_items List.mem_cons_self
  have mark : later.tree.content? site.mark = files site.mark := by
    refine stands.files_of_worked through.worked ((cast.fits _ member).ne_mark cast.grounded)
      fun other inside => ?_
    exact (cast.fits _ (stands.mem_items (List.mem_cons_of_mem _
      (List.mem_of_mem_take inside)))).ne_mark cast.grounded
  obtain ⟨files', settles, agree⟩ := resolves.settles files mark.symm
  obtain ⟨done, skipped, split, complete, course⟩ := stands.course
  have split : items = done ++ [assignment] ++ rest := by
    rw [split, complete running]
    simp
  have course := course.snoc settles
  have none : ∀ other ∈ items, ∀ location, site.spot? other = some location →
      files' location = none :=
    fun other member location spot => cast.none_of_spot
      (fun _ settled => split ▸ List.mem_append_left rest settled) course member spot
      (stands.vacant other member location spot)
  have relied : ∀ other ∈ rest.take beside, site.Relied other ⟨progress.halted, later⟩
      ⟨(progress.halted || Run.stops policy result), last⟩ :=
    fun other => stands.relied_of_resolves cast running resolves
  obtain ⟨crew, waiting, same⟩ := stands.crew_onward cast through relied resolves.amid none
    resolves.own fun location spot held => (agree location spot held.symm).symm
  have halts : (progress.halted || Run.stops policy result) = Run.stops policy result := by
    rw [running, Bool.false_or]
  refine ⟨files', ?_⟩
  exact
    { amid := resolves.amid
      vacant := stands.vacant
      reached := by
        rintro ⟨outcome, recorded, path, ok⟩
        rcases List.mem_append.1 recorded with early | late
        · exact ((stands.reached ⟨outcome, early, path, ok⟩).mono through.worked.base
            through.worked.directories).mono resolves.base resolves.directories
        · obtain rfl := List.mem_singleton.1 late
          exact resolves.reached ⟨path, ok⟩
      course := ⟨done ++ [assignment], [], by rw [split, List.append_nil], fun _ => rfl, course⟩
      crew := crew
      waiting := waiting
      files := same
      interrupted := fun given =>
        absurd (running.symm.trans (stands.interrupted given).1) (by simp)
      successes := by
        rintro goes rfl
        exact successes_snoc (stands.successes running rfl) (halts.symm.trans goes) _
      stopped := by
        intro stops
        obtain ⟨abort, failure, rfl⟩ := Run.stops_eq_true_iff.1 (halts.symm.trans stops)
        exact .inr
          ⟨abort, progress.outcomes, _, failure, rfl, rfl, stands.successes running abort⟩
      calm := by
        intro given
        obtain ⟨quiet, patient⟩ := stands.calm given
        have calm := resolves.calm (through.worked.patience.trans patient)
        exact ⟨calm.1.trans (through.worked.cancelled.trans quiet), calm.2⟩ }

/-- Settling the first row keeps to the course of the run. -/
theorem Stands.settle (cast : site.Cast beside items)
    (stands : site.Stands start policy beside quiet items rest files progress world) {others : Nat}
    (le : others ≤ beside) :
    ∃ files', site.Stands start policy beside quiet items rest.tail files'
      ((progress.settle policy others).run world).1
      ((progress.settle policy others).run world).2 := by
  cases rest with
  | nil =>
    have same : progress.pending = [] := List.length_eq_zero_iff.1 stands.length_pending
    refine ⟨files, ?_⟩
    rw [Progress.settle, same]
    exact stands
  | cons assignment rest =>
    obtain ⟨first, tail, same⟩ := List.exists_cons_of_length_eq_add_one stands.length_pending
    have member := stands.mem_items List.mem_cons_self
    have fits := cast.fits _ member
    rcases ran : (Run.completeBeside progress.halted first.work (tail.take others)).run world with
      ⟨⟨result, making⟩, later⟩
    obtain ⟨index, goal, through⟩ := stands.completeBeside cast same le ran
    simp only [Progress.settle, same, Task.run_bind, ran, List.tail_cons]
    by_cases halted : progress.halted = true
    · rw [if_pos halted, Task.run_bind, Task.run_pure]
      obtain ⟨worked, own⟩ := worked_discardResult fits through.worked.amid goal
      have settled := stands.discarded cast halted through worked own
      exact ⟨files, settled⟩
    · have running := Bool.eq_false_iff.2 halted
      rw [if_neg halted, index]
      have clear : ∀ destination location, assignment.destination = .ok destination →
          site.before.location? destination = some location →
            site.spot? assignment ≠ some location := fun destination location chosen located spot =>
        cast.clear assignment member location spot assignment member destination chosen located
      rw [running] at goal
      rcases record_cases policy fits through.worked.amid clear
        { progress with pending := making ++ tail.drop others } goal with
        ⟨cancelled, own, recorded⟩ | ⟨outcome, resolves, recorded⟩
      · rw [recorded]
        have settled := stands.interrupt cast running through own cancelled
        exact ⟨files, settled⟩
      · rw [recorded]
        rw [← running] at resolves
        exact stands.recorded cast running through resolves

end Settling

end Site

end MailMerge
