import MailMerge.Proofs.Run.Moves
import MailMerge.Proofs.Run.Progress

/-!
# How a run ends

Whatever the schedule of a run is, the way it stands lasts to the end (`Site.lasting_stands`), and
when no row is left it has ended (`Site.Ended`): with a course of the rows it has settled, with
exactly the files of that course, and with all rows settled unless it was cancelled or stopped at a
failure (`Site.ended_generate`).
-/

namespace MailMerge

open Run (Assignment Pending Progress Schedule)

set_option autoImplicit false

namespace Site

variable {site : Site} {start : Files} {policy : ErrorPolicy} {beside : Nat} {quiet : Prop}
  {items rest : List Assignment} {files : Files} {progress : Progress} {world : World}

/-! ## Moves -/

/-- An interruption does not disturb the rows in the making. -/
theorem Stands.cancel
    (stands : site.Stands start policy beside quiet items rest files progress world)
    (loud : ¬ quiet) :
    site.Stands start policy beside quiet items rest files progress
      { world with cancelled := true } where
  amid := stands.amid
  vacant := stands.vacant
  reached := stands.reached
  course := stands.course
  crew := stands.crew.relied fun _ _ => ⟨stands.amid, rfl, fun _ directory => directory,
    fun _ _ => rfl, fun _ => rfl, fun _ => Bool.true_or _⟩
  waiting := stands.waiting
  files := stands.files
  interrupted given := ⟨(stands.interrupted given).1, rfl⟩
  successes := stands.successes
  stopped := stands.stopped
  calm given := absurd given loud

/-- The way a run stands lasts, with as many rows in the making as do not disturb each other. -/
theorem lasting_stands (cast : site.Cast beside items) {schedule : Schedule}
    (silent : quiet → .interrupt ∉ schedule) :
    Run.Lasting schedule policy (beside + 1) fun progress world =>
      ∃ rest files, site.Stands start policy beside quiet items rest files progress world where
  settle few := by
    rintro ⟨rest, files, stands⟩
    exact ⟨rest.tail, stands.settle cast (Nat.le_of_lt_succ few)⟩
  advance inside := by
    rintro ⟨rest, files, stands⟩
    exact ⟨rest, files, stands.advance cast inside⟩
  interrupt member := by
    rintro ⟨rest, files, stands⟩
    exact ⟨rest, files, stands.cancel fun given => silent given member⟩

/-! ## From the beginning to the end -/

/-- A run in which nothing has been done.  It may begin in any tree amid that has nothing where its
temporary files belong. -/
theorem stands_start (cast : site.Cast beside items) {request : Request}
    (template : request.template = site.template) (assigned : request.assigned = items)
    (amid : site.Amid world.tree)
    (vacant : ∀ assignment ∈ items, ∀ location, site.spot? assignment = some location →
      world.tree.content? location = none)
    (calm : quiet → world.cancelled = false ∧ world.patience = none) :
    site.Stands world.tree.content? policy beside quiet items items world.tree.content?
      (Progress.start request) world := by
  have pending := Run.pending_start request
  rw [assigned, template] at pending
  refine ⟨amid, vacant, fun ⟨_, member, _⟩ => absurd member List.not_mem_nil,
    ⟨[], [], rfl, fun _ => rfl, .nil⟩, ?_, ?_, fun _ _ => rfl, fun given => ?_,
    fun _ _ _ member => ?_, fun given => ?_, calm⟩
  · rw [pending, ← List.map_take]
    refine List.forall₂_map_right_iff.2 (List.forall₂_same.2 fun assignment early => ⟨rfl, ?_⟩)
    have member := List.mem_of_mem_take early
    exact held_pending cast.grounded (cast.fits assignment member) amid (vacant assignment member)
  · rw [pending, List.map_drop]
  · exact absurd given (by simp [Progress.start])
  · exact absurd member List.not_mem_nil
  · exact absurd given (by simp [Progress.start])

/-- A run that has stopped at its first failure. -/
def StopsAtFailure (outcomes : List Outcome) : Prop :=
  ∃ earlier last failure, outcomes = earlier ++ [last] ∧ last.result = .error failure ∧
    ∀ outcome ∈ earlier, ∃ path, outcome.result = .ok path

/-- What a run that is not cancelled has left undone: nothing, or what comes after the failure at
which it has stopped. -/
def EndsOrStops (policy : ErrorPolicy) (skipped : List Assignment) (outcomes : List Outcome) :
    Prop :=
  skipped = [] ∧ (policy = .abort → ∀ outcome ∈ outcomes, ∃ path, outcome.result = .ok path) ∨
    policy = .abort ∧ StopsAtFailure outcomes

/-- How a run has ended. -/
structure Ended (site : Site) (policy : ErrorPolicy) (quiet : Prop) (items : List Assignment)
    (report : Report) (world : World) : Prop where
  amid : site.Amid world.tree
  reached : (∃ outcome ∈ report.outcomes, ∃ path, outcome.result = .ok path) →
    site.Reached world.tree
  course : ∃ done skipped, items = done ++ skipped ∧
    site.Course site.before.content? done report.outcomes world.tree.content? ∧
    (report.cancelled = true ∨ EndsOrStops policy skipped report.outcomes)
  calm : quiet → report.cancelled = false

/-- When no row is left, the files are those of the course. -/
theorem Stands.content?_eq
    (stands : site.Stands start policy beside quiet items [] files progress world) :
    world.tree.content? = files :=
  funext fun location => stands.files location fun _ member => absurd member (by simp)

/-- A run in a calm world is not interrupted. -/
theorem Stands.uninterrupted
    (stands : site.Stands start policy beside quiet items rest files progress world)
    (given : quiet) : progress.interrupted = false := by
  cases interrupted : progress.interrupted with
  | false => rfl
  | true =>
    have cancelled := (stands.interrupted interrupted).2
    rw [(stands.calm given).1] at cancelled
    exact absurd cancelled (by simp)

theorem Stands.ended
    (stands : site.Stands site.before.content? policy beside quiet items [] files progress world) :
    site.Ended policy quiet items progress.report world where
  amid := stands.amid
  reached := stands.reached
  course := by
    obtain ⟨done, skipped, split, complete, course⟩ := stands.course
    rw [List.append_nil] at split
    refine ⟨done, skipped, split, stands.content?_eq ▸ course, ?_⟩
    cases halted : progress.halted with
    | true => exact (stands.stopped halted).imp_right .inr
    | false => exact .inr (.inl ⟨complete halted, stands.successes halted⟩)
  calm given := stands.uninterrupted given

/-- A run that was not cancelled has settled all rows, or it has stopped at a failure. -/
theorem Ended.course_of_calm {report : Report} (ended : site.Ended policy True items report world) :
    ∃ done skipped, items = done ++ skipped ∧
      site.Course site.before.content? done report.outcomes world.tree.content? ∧
      EndsOrStops policy skipped report.outcomes := by
  obtain ⟨done, skipped, split, course, cancelled | complete⟩ := ended.course
  · exact absurd (cancelled.symm.trans (ended.calm trivial)) (by simp)
  · exact ⟨done, skipped, split, course, complete⟩

theorem Ended.course_of_continue {report : Report}
    (ended : site.Ended .continue True items report world) :
    site.Course site.before.content? items report.outcomes world.tree.content? := by
  obtain ⟨done, skipped, split, course, ⟨rfl, _⟩ | ⟨never, _⟩⟩ := ended.course_of_calm
  · rwa [split, List.append_nil]
  · exact absurd never (by simp)

/-- When all moves are made and all rows settled, no row is left. -/
theorem Stands.generate {request : Request}
    (cast : site.Cast (request.width - 1) request.assigned)
    (stands : site.Stands start request.errorPolicy (request.width - 1) quiet request.assigned
      request.assigned files (Progress.start request) world) {schedule : Schedule}
    (silent : quiet → .interrupt ∉ schedule) :
    ∃ files' progress, site.Stands start request.errorPolicy (request.width - 1) quiet
        request.assigned [] files' progress ((Run.generate schedule request).run world).2 ∧
      ((Run.generate schedule request).run world).1 = progress.report := by
  have width : request.width - 1 + 1 = request.width := Nat.sub_add_cancel request.width_pos
  have lasting : Run.Lasting schedule request.errorPolicy request.width fun progress world =>
      ∃ rest files, site.Stands start request.errorPolicy (request.width - 1) quiet request.assigned
        rest files progress world := by
    rw [← width]
    exact lasting_stands cast silent
  obtain ⟨progress, ⟨rest, files, stands⟩, none, same⟩ := lasting.generate ⟨_, _, stands⟩
  obtain rfl : rest = [] := by
    rw [← List.length_eq_zero_iff, ← stands.length_pending, none, List.length_nil]
  exact ⟨files, progress, stands, same⟩

/-- Every run ends. -/
theorem ended_generate {request : Request} (cast : site.Cast (request.width - 1) request.assigned)
    (template : request.template = site.template) (before : world.tree = site.before)
    {schedule : Schedule} (silent : quiet → .interrupt ∉ schedule)
    (calm : quiet → world.cancelled = false ∧ world.patience = none) :
    site.Ended request.errorPolicy quiet request.assigned
      ((Run.generate schedule request).run world).1
      ((Run.generate schedule request).run world).2 := by
  have stands : site.Stands _ request.errorPolicy _ quiet _ _ _ (Progress.start request) world :=
    stands_start cast template rfl (before ▸ amid_before)
      (fun assignment member location spot => by
        rw [before]
        exact FileTree.content?_eq_none.2 (.inl ((cast.fits assignment member).fresh location spot)))
      calm
  rw [before] at stands
  obtain ⟨files, progress, stands, same⟩ := stands.generate cast silent
  rw [same]
  exact stands.ended

end Site

end MailMerge
