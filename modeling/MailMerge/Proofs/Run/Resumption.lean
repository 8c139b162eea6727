import MailMerge.Proofs.Run.Concurrency

/-!
# Resuming a run

A run under the policy to continue may be cancelled at any point, and the same request run again to
the end.  Then the files are those that a single run to the end leaves, and so is the second report
(`Run.process_resumed`), as long as no row replaces the template.

The reason is that a row's outcome depends on the template alone.  The second run settles the rows of
the first one again, from the files that the first one has left, and that changes nothing
(`Site.Course.repeated`): whatever a row puts somewhere, it or a later one of these rows has put
there already.

What the first run may leave behind besides files is a part of the directory that it could not make.
The second run then comes further than the first in its attempt, and the system gives its rows another
reason (`Run.process_resumed_halfMade`).
-/

namespace MailMerge

open Run (Assignment Progress Schedule)

set_option autoImplicit false

namespace Site

variable {site : Site}

/-! ## The same rows from other files -/

/-- After something has been done from two different beginnings, each place is the same in both or
untouched in both. -/
def Follows (first first' last last' : Files) : Prop :=
  ∀ location, last location = last' location ∨
    last location = first location ∧ last' location = first' location

theorem Follows.refl (first first' : Files) : Follows first first' first first' :=
  fun _ => .inr ⟨rfl, rfl⟩

theorem Follows.trans {first first' middle middle' last last' : Files}
    (start : Follows first first' middle middle') (next : Follows middle middle' last last') :
    Follows first first' last last' := by
  intro location
  rcases next location with same | ⟨here, there⟩
  · exact .inl same
  · rw [here, there]
    exact start location

/-- A place that is the same at both beginnings stays the same. -/
theorem Follows.eq {first first' last last' : Files} (follows : Follows first first' last last')
    {location : Location} (same : first location = first' location) :
    last location = last' location := by
  rcases follows location with same | ⟨here, there⟩
  · exact same
  · rw [here, there, same]

/-- A row is settled in the same way from all files for which the template holds the same. -/
theorem Settles.transfer {assignment : Assignment} {first first' last : Files}
    {result : Except Failure Path} (settles : site.Settles assignment first result last)
    (same : first site.mark = first' site.mark) :
    ∃ last', site.Settles assignment first' result last' ∧ Follows first first' last last' := by
  cases settles with
  | failed rejected => exact ⟨first', .failed (same ▸ rejected), .refl _ _⟩
  | blocked chosen reached template drafted landed =>
    exact ⟨first', .blocked chosen reached (same.symm.trans template) drafted landed, .refl _ _⟩
  | @moved destination location content octets chosen reached template drafted landed =>
    refine ⟨_, .moved chosen reached (same.symm.trans template) drafted landed, fun place => ?_⟩
    simp only [Function.update_apply]
    split
    · exact .inl rfl
    · exact .inr ⟨rfl, rfl⟩

/-- Rows take the same course from other files, as long as the template holds the same. -/
theorem Course.transfer {first first' last : Files} {items : List Assignment}
    {outcomes : List Outcome} (course : site.Course first items outcomes last)
    (same : first site.mark = first' site.mark) :
    ∃ last', site.Course first' items outcomes last' ∧ Follows first first' last last' := by
  induction course generalizing first' with
  | nil => exact ⟨first', .nil, .refl _ _⟩
  | cons settles _ ih =>
    obtain ⟨second', settles', here⟩ := settles.transfer same
    obtain ⟨last', course', there⟩ := ih (here.eq same)
    exact ⟨last', .cons settles' course', here.trans there⟩

/-! ## The same rows again -/

variable {first middle last last' : Files} {done rest : List Assignment}
  {early whole again : List Outcome}

/-- Rows that are not moved to the template leave it as it is. -/
theorem Course.content?_mark (course : site.Course first done early middle)
    (spares : ∀ assignment ∈ done, ∀ destination, assignment.destination = .ok destination →
      site.before.location? destination ≠ some site.mark) :
    middle site.mark = first site.mark := by
  refine course.eq_of_ne fun outcome recorded path ok landed => ?_
  obtain ⟨assignment, member, chosen⟩ := course.exists_chosen recorded ok
  exact spares assignment member path chosen (location?_of_landing landed)

/-- Rows that are settled again, from the files that they have left, change nothing. -/
theorem Course.repeated (course : site.Course first done early middle)
    (same : middle site.mark = first site.mark) (course' : site.Course middle done again last) :
    List.Forall₂ site.AlikeOutcomes again early ∧ last = middle := by
  obtain ⟨after, transferred, follows⟩ := course.transfer same.symm
  obtain ⟨alike, rfl⟩ := course'.unique transferred
  refine ⟨alike, funext fun location => ?_⟩
  rcases follows location with same | ⟨_, same⟩
  · exact same.symm
  · exact same

/-- Rows that are settled after some of them have been settled before end like rows that are settled
only once. -/
theorem Course.resumed (start : site.Course first done early middle)
    (same : middle site.mark = first site.mark)
    (once : site.Course first (done ++ rest) whole last)
    (more : site.Course middle (done ++ rest) again last') :
    List.Forall₂ site.AlikeOutcomes again whole ∧ last' = last := by
  obtain ⟨one, two, between, rfl, begun, ended⟩ := once.split
  obtain ⟨-, rfl⟩ := begun.unique start
  obtain ⟨one', two', between', rfl, begun', ended'⟩ := more.split
  obtain ⟨alike, rfl⟩ := begun.repeated same begun'
  obtain ⟨alike', files⟩ := ended'.unique ended
  exact ⟨List.rel_append alike alike', files⟩

/-! ## Runs that begin in a tree amid -/

variable {policy : ErrorPolicy} {beside : Nat} {items : List Assignment} {files : Files}
  {progress : Progress} {world : World}

/-- A run under the policy to continue settles all rows, if nobody cancels it. -/
theorem Stands.course_of_continue
    (stands : site.Stands first .continue beside True items [] files progress world) :
    site.Course first items progress.outcomes world.tree.content? := by
  obtain ⟨done, skipped, split, complete, course⟩ := stands.course
  have running : progress.halted = false := by
    cases halted : progress.halted with
    | false => rfl
    | true =>
      rcases stands.stopped halted with interrupted | ⟨abort, _⟩
      · exact absurd (interrupted.symm.trans (stands.uninterrupted trivial)) (by simp)
      · exact nomatch abort
  rw [complete running, List.append_nil, List.append_nil] at split
  rw [split, stands.content?_eq]
  exact course

end Site

namespace Request

variable {request : Request} {tree later : FileTree} {mark : Location}

/-- As long as the template holds the same, a request is refused for the same reason. -/
theorem refusal?_of_amid (grounded : (request.site tree mark).Grounded)
    (amid : (request.site tree mark).Amid later) (same : later.content? mark = tree.content? mark) :
    request.refusal? later = request.refusal? tree := by
  obtain ⟨content, there⟩ := Option.ne_none_iff_exists'.1 grounded.content
  have target := grounded.target
  change tree.content? mark = some content at there
  change tree.target request.template = .ok (.place mark false) at target
  have target' := FileTree.target_mono amid.base amid.kept target
  have found := FileTree.find_of_target target there
  have found' := FileTree.find_of_target target' (same.trans there)
  simp only [refusal?, FileTree.kind, FileTree.read, found, found']

end Request

/-- In any tree amid that has nothing where temporary files belong, a run under the policy to continue
has a report, and it settles all rows if nobody cancels it. -/
theorem Run.exists_course_of_amid {request : Request} {tree : FileTree} {mark : Location}
    {world : World} {schedule : Schedule} (continues : request.errorPolicy = .continue)
    (accepted : request.refusal? world.tree = none)
    (cast : (request.site tree mark).Cast (request.width - 1) request.assigned)
    (amid : (request.site tree mark).Amid world.tree)
    (vacant : ∀ assignment ∈ request.assigned, ∀ location,
      (request.site tree mark).spot? assignment = some location →
        world.tree.content? location = none)
    (silent : .interrupt ∉ schedule) (uncancelled : world.cancelled = false)
    (patient : world.patience = none) :
    ∃ report : Report, ((process schedule request).run world).1 = .ok report ∧
      report.cancelled = false ∧
      (request.site tree mark).Course world.tree.content? request.assigned report.outcomes
        ((process schedule request).run world).2.tree.content? := by
  obtain ⟨starting, begins⟩ := exists_begins schedule accepted
  rw [← begins.tree] at amid vacant ⊢
  have stands := @Site.stands_start _ request.errorPolicy _ True _ starting cast request rfl rfl amid
    vacant fun _ => ⟨begins.cancelled.trans uncancelled, begins.patience.trans patient⟩
  obtain ⟨files, progress, stands, report⟩ := stands.generate cast fun _ => silent
  rw [continues] at stands
  refine ⟨_, begins.report, ?_, ?_⟩
  · rw [report]
    exact stands.uninterrupted trivial
  · rw [report, begins.files]
    exact stands.course_of_continue

/-! ## Resumed runs -/

/-- A run under the policy to continue is cancelled at any point, or not at all, and the same request
is run again to the end.  Then there are the files that a single run to the end leaves, and the second
run has the result of the single one, up to the reasons for which a directory cannot be made that is
made in part. -/
theorem Run.process_resumed {request : Request} {world later calm : World}
    {schedule again quiet : Schedule} (continues : request.errorPolicy = .continue)
    (fresh : request.FreshTemporaries world.tree) (spares : request.SparesTemplate world.tree)
    (resumed : later.tree = ((process schedule request).run world).2.tree)
    (silent : .interrupt ∉ again) (uncancelled : later.cancelled = false)
    (patient : later.patience = none) (same : calm.tree = world.tree) (silent' : .interrupt ∉ quiet)
    (uncancelled' : calm.cancelled = false) (patient' : calm.patience = none) :
    (∀ location, ((process again request).run later).2.tree.content? location =
      ((process quiet request).run calm).2.tree.content? location) ∧
    ((∃ failure, ((process again request).run later).1 = .error failure ∧
        ((process quiet request).run calm).1 = .error failure) ∨
      ∃ report whole : Report, ((process again request).run later).1 = .ok report ∧
        ((process quiet request).run calm).1 = .ok whole ∧ report.cancelled = whole.cancelled ∧
        List.Forall₂ (request.Agree world.tree) report.outcomes whole.outcomes) ∧
    ((∀ path, ¬ request.HalfMade world.tree path) →
      ((process again request).run later).1 = ((process quiet request).run calm).1) := by
  cases refusal : request.refusal? world.tree with
  | some failure =>
    have unchanged : later.tree = world.tree := resumed.trans (process_of_refused refusal).2
    obtain ⟨failed, tree⟩ := @process_of_refused request later again failure (unchanged ▸ refusal)
    obtain ⟨failed', tree'⟩ := @process_of_refused request calm quiet failure (same ▸ refusal)
    refine ⟨fun location => ?_, .inl ⟨failure, failed, failed'⟩, fun _ => failed.trans failed'.symm⟩
    rw [tree, tree', unchanged, same]
  | none =>
    obtain ⟨mark, grounded⟩ := Request.exists_grounded_of_accepted refusal
    have cast := Request.cast_of_fresh grounded fresh spares.keepsTemplate
    obtain ⟨_, _, ended⟩ := @ended_process request world mark False schedule refusal grounded fresh
      spares.keepsTemplate (fun never => never.elim) fun never => never.elim
    have ended := ended.of_tree resumed
    obtain ⟨done, skipped, split, course, _⟩ := ended.course
    have inside : ∀ assignment ∈ done, assignment ∈ request.assigned :=
      fun assignment member => split ▸ List.mem_append_left skipped member
    have vacant : ∀ assignment ∈ request.assigned, ∀ location,
        (request.site world.tree mark).spot? assignment = some location →
          world.tree.content? location = none := fun assignment member location spot =>
      FileTree.content?_eq_none.2 (.inl ((cast.fits assignment member).fresh location spot))
    have untouched : later.tree.content? mark = world.tree.content? mark :=
      course.content?_mark fun assignment member =>
        spares mark (Request.location?_of_grounded grounded) assignment
          (Request.assigned_of_continue continues ▸ inside assignment member)
    obtain ⟨report, ok, running, more⟩ := @exists_course_of_amid request world.tree mark later again
      continues ((Request.refusal?_of_amid grounded ended.amid untouched).trans refusal) cast
      ended.amid
      (fun assignment member location spot => cast.none_of_spot inside course member spot
        (vacant assignment member location spot)) silent uncancelled patient
    obtain ⟨whole, ok', running', once⟩ := @exists_course_of_amid request world.tree mark calm quiet
      continues (same ▸ refusal) cast (same ▸ Site.amid_before) (same ▸ vacant) silent' uncancelled'
      patient'
    rw [split] at more once
    rw [same] at once
    obtain ⟨alike, files⟩ := course.resumed untouched once more
    have agree := alike.imp fun _ _ => Request.agree_of_alikeOutcomes
    have cancelled := running.trans running'.symm
    refine ⟨fun location => congrFun files location,
      .inr ⟨report, whole, ok, ok', cancelled, agree⟩, fun complete => ?_⟩
    have outcomes := Request.eq_of_agree complete agree
    obtain ⟨_, _⟩ := report
    obtain ⟨_, _⟩ := whole
    simp only at outcomes cancelled
    rw [ok, ok', outcomes, cancelled]

/-- A world left behind by a run, in which nobody cancels anything. -/
def World.after (world : World) : World := { tree := world.tree }

theorem Run.process_resumed_couple :
    ((process [.advance 1] (.couple (.named "a" "x") (.named "a" "y"))).run
        ((process [.settle, .interrupt] (.couple (.named "a" "x") (.named "a" "y"))).run
          .pattern).2.after).1 =
      ((process [] (.couple (.named "a" "x") (.named "a" "y"))).run .pattern).1 := by
  have done := @process_resumed (.couple (.named "a" "x") (.named "a" "y")) .pattern
    ((process [.settle, .interrupt] (.couple (.named "a" "x") (.named "a" "y"))).run
      .pattern).2.after .pattern [.settle, .interrupt] [.advance 1] [] rfl (by decide +kernel)
    (by decide +kernel) rfl (by simp) rfl rfl rfl (by simp) rfl rfl
  refine done.2.2 fun path half => ?_
  obtain ⟨rfl, _, location, changed⟩ := half
  exact changed rfl

/-- The second report need not be the same, even if the run is cancelled between two rows and no two
rows are ever in the making together: the run that was cancelled has made a directory on the way to
the one that cannot be made, and the first row comes further when it is tried again. -/
theorem Run.process_resumed_halfMade :
    ¬ ∀ (request : Request) (world later : World) (count : Nat),
      request.errorPolicy = .continue → request.FreshTemporaries world.tree →
      request.SparesTemplate world.tree → world.cancelled = false → world.patience = none →
      later.tree = ((process (List.replicate count .settle ++ [.interrupt]) request).run
        world).2.tree → later.cancelled = false → later.patience = none →
      ((process [] request).run later).1 = ((process [] request).run world).1 := by
  intro always
  have same := always Request.obstructed.oneByOne .obstructed
    ((process [.settle, .interrupt] Request.obstructed.oneByOne).run .obstructed).2.after 1 rfl
    (by decide +kernel) (by decide +kernel) rfl rfl rfl rfl rfl
  revert same
  decide +kernel

end MailMerge
