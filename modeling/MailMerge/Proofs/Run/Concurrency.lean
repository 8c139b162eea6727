import MailMerge.Proofs.Run.Prefixes

/-!
# Rows that run at the same time

How many rows are in the making at the same time, and in which order they take turns, makes no
difference to a run that nobody interrupts, as long as no row moves its file to the template while a
later one is in the making (`Run.process_oneByOne`): two runs that have ended on the same site have
settled the same rows, since under the policy to abort both stop at the first failure
(`Site.Ended.unique`).

A request whose destinations repeat is run one row at a time for exactly this reason.  But a row may
replace the template without any destination being repeated, and then the rows beside it have read
what they should not have (`Run.process_pattern`).
-/

namespace MailMerge

open Run (Assignment Schedule)

set_option autoImplicit false

namespace Site

variable {site : Site}

/-! ## Runs that have ended on the same site -/

/-- A course of some rows and more begins with a course of those rows. -/
theorem Course.split {first last : Files} {done more : List Assignment} {outcomes : List Outcome}
    (course : site.Course first (done ++ more) outcomes last) :
    ∃ early late middle, outcomes = early ++ late ∧ site.Course first done early middle ∧
      site.Course middle more late last := by
  induction done generalizing first outcomes with
  | nil => exact ⟨[], outcomes, first, rfl, .nil, course⟩
  | cons assignment done ih =>
    cases course with
    | cons settles course =>
      obtain ⟨early, late, middle, rfl, start, rest⟩ := ih course
      exact ⟨_ :: early, late, middle, rfl, .cons settles start, rest⟩

theorem Alike.exists_error {left right : Except Failure Path} (alike : site.Alike left right)
    {failure : Failure} (failed : left = .error failure) : ∃ failure, right = .error failure := by
  obtain same | ⟨path, one, two, _, _, second, _⟩ := alike
  · exact ⟨failure, same.symm.trans failed⟩
  · exact ⟨_, second⟩

theorem exists_right_of_mem {α β : Type} {relation : α → β → Prop} {left : List α} {right : List β}
    (related : List.Forall₂ relation left right) {a : α} (member : a ∈ left) :
    ∃ b ∈ right, relation a b := by
  induction related with
  | nil => exact absurd member List.not_mem_nil
  | cons here _ ih =>
    rcases List.mem_cons.1 member with rfl | later
    · exact ⟨_, List.mem_cons_self, here⟩
    · obtain ⟨b, inside, there⟩ := ih later
      exact ⟨b, List.mem_cons_of_mem _ inside, there⟩

/-- A run does not go on behind a failure at which another one stops. -/
theorem eq_nil_of_stops {first last last' : Files} {done more : List Assignment}
    {one two : List Outcome} (start : site.Course first done one last)
    (whole : site.Course first (done ++ more) two last') (stops : StopsAtFailure one)
    (goes : (∀ outcome ∈ two, ∃ path, outcome.result = .ok path) ∨ StopsAtFailure two) :
    more = [] := by
  obtain ⟨early, late, middle, rfl, start', rest⟩ := whole.split
  obtain ⟨before, stop, failure, rfl, failed, _⟩ := stops
  obtain ⟨outcome, member, _, alike⟩ := exists_right_of_mem (start.unique start').1
    (List.mem_append_right before List.mem_cons_self)
  obtain ⟨failure', failed'⟩ := alike.exists_error failed
  have never : ∀ outcomes : List Outcome, outcome ∈ outcomes →
      ¬ ∀ outcome ∈ outcomes, ∃ path, outcome.result = .ok path := by
    intro outcomes inside all
    obtain ⟨path, ok⟩ := all outcome inside
    simp [failed'] at ok
  rcases goes with all | ⟨earlier, last, _, split, _, all⟩
  · exact absurd all (never _ (List.mem_append_left late member))
  · rcases List.eq_nil_or_concat late with rfl | ⟨late, final, rfl⟩
    · exact List.length_eq_zero_iff.1 rest.length_eq.symm
    · rw [List.concat_eq_append, ← List.append_assoc] at split
      obtain ⟨same, _⟩ := List.append_inj' split rfl
      exact absurd all (never _ (same ▸ List.mem_append_left late member))

variable {policy : ErrorPolicy} {items : List Assignment} {one two : Report} {here there : World}

theorem eq_nil_of_shorter {first last last' : Files} {done more skipped : List Assignment}
    {early late : List Outcome} (start : site.Course first done early last)
    (whole : site.Course first (done ++ more) late last')
    (ends : EndsOrStops policy (more ++ skipped) early) (goes : EndsOrStops policy skipped late) :
    more = [] := by
  rcases ends with ⟨nothing, _⟩ | ⟨abort, stops⟩
  · exact (List.append_eq_nil_iff.1 nothing).1
  · exact eq_nil_of_stops start whole stops
      (goes.imp (fun complete => complete.2 abort) fun stopped => stopped.2)

/-- Two runs that were not cancelled have settled the same rows in the same way. -/
theorem Ended.unique (first : site.Ended policy True items one here)
    (second : site.Ended policy True items two there) :
    List.Forall₂ site.AlikeOutcomes one.outcomes two.outcomes ∧
      here.tree.content? = there.tree.content? := by
  obtain ⟨done, skipped, split, course, ends⟩ := first.course_of_calm
  obtain ⟨done', skipped', split', course', ends'⟩ := second.course_of_calm
  obtain rfl : done = done' := by
    rcases List.append_eq_append_iff.1 (split.symm.trans split') with
      ⟨more, rfl, rfl⟩ | ⟨more, rfl, rfl⟩
    · rw [eq_nil_of_shorter course course' ends ends', List.append_nil]
    · rw [eq_nil_of_shorter course' course ends' ends, List.append_nil]
  exact course.unique course'

end Site

/-! ## Runs in any order and one after another -/

theorem Request.freshTemporaries_oneByOne {request : Request} {tree : FileTree}
    (fresh : request.FreshTemporaries tree) : request.oneByOne.FreshTemporaries tree := by
  have same : request.oneByOne.planned = request.planned := by
    rw [planned, destinations_oneByOne]
    rfl
  unfold FreshTemporaries
  rw [same]
  exact fresh

/-- A run that nobody interrupts does the same in every order of its operations as it does one row
after another, if no row replaces the template while a later one is in the making: it leaves the
same files and has the same result, up to the reasons for which a directory cannot be made that is
made in part. -/
theorem Run.process_oneByOne {request : Request} {world calm : World} {schedule quiet : Schedule}
    (fresh : request.FreshTemporaries world.tree) (keeps : request.KeepsTemplate world.tree)
    (silent : .interrupt ∉ schedule) (uncancelled : world.cancelled = false)
    (patient : world.patience = none) (same : calm.tree = world.tree)
    (silent' : .interrupt ∉ quiet) (uncancelled' : calm.cancelled = false)
    (patient' : calm.patience = none) :
    (∀ location, ((process schedule request).run world).2.tree.content? location =
      ((process quiet request.oneByOne).run calm).2.tree.content? location) ∧
    ((∃ failure, ((process schedule request).run world).1 = .error failure ∧
        ((process quiet request.oneByOne).run calm).1 = .error failure) ∨
      ∃ report single : Report, ((process schedule request).run world).1 = .ok report ∧
        ((process quiet request.oneByOne).run calm).1 = .ok single ∧
        report.cancelled = single.cancelled ∧
        List.Forall₂ (request.Agree world.tree) report.outcomes single.outcomes) ∧
    ((∀ path, ¬ request.HalfMade world.tree path) →
      ((process schedule request).run world).1 =
        ((process quiet request.oneByOne).run calm).1) := by
  cases refusal : request.refusal? world.tree with
  | some failure =>
    have refusal' : request.oneByOne.refusal? calm.tree = some failure := same ▸ refusal
    have first := @process_of_refused request world schedule failure refusal
    have second := @process_of_refused request.oneByOne calm quiet failure refusal'
    have tree := first.2.trans (same.symm.trans second.2.symm)
    refine ⟨fun location => ?_, .inl ⟨failure, first.1, second.1⟩,
      fun _ => first.1.trans second.1.symm⟩
    exact congrArg (·.content? location) tree
  | none =>
    obtain ⟨mark, grounded⟩ := Request.exists_grounded_of_accepted refusal
    obtain ⟨report, ok, ended⟩ := @ended_process request world mark True schedule refusal grounded
      fresh keeps (fun _ => silent) fun _ => ⟨uncancelled, patient⟩
    obtain ⟨single, ok', ended'⟩ := @ended_process request.oneByOne calm mark True quiet
      (same ▸ refusal) (same ▸ grounded) (same ▸ Request.freshTemporaries_oneByOne fresh)
      (Request.keepsTemplate_of_width_one (Request.width_of_concurrency_one rfl) _)
      (fun _ => silent') fun _ => ⟨uncancelled', patient'⟩
    rw [Request.assigned_oneByOne, same] at ended'
    obtain ⟨alike, files⟩ := ended.unique ended'
    have agree := alike.imp fun _ _ => Request.agree_of_alikeOutcomes
    have cancelled := (ended.calm trivial).trans (ended'.calm trivial).symm
    refine ⟨fun location => congrFun files location,
      .inr ⟨report, single, ok, ok', cancelled, agree⟩, fun whole => ?_⟩
    have outcomes := Request.eq_of_agree whole agree
    obtain ⟨_, _⟩ := report
    obtain ⟨_, _⟩ := single
    simp only at outcomes cancelled
    rw [ok, ok', outcomes, cancelled]

theorem Run.process_oneByOne_couple :
    ((process [.advance 1, .advance 1] (.couple (.named "a" "x") (.named "pattern" "y"))).run
        .pattern).1 =
      ((process [] (Request.couple (.named "a" "x") (.named "pattern" "y")).oneByOne).run
        .pattern).1 := by
  have done := @process_oneByOne (.couple (.named "a" "x") (.named "pattern" "y")) .pattern .pattern
    [.advance 1, .advance 1] [] (by decide +kernel) (by decide +kernel) (by simp) rfl rfl rfl
    (by simp) rfl rfl
  refine done.2.2 fun path half => ?_
  obtain ⟨rfl, _, location, changed⟩ := half
  exact changed rfl

/-- When the first of two rows replaces the template, it depends on the number of rows in the making
what the second row makes of it. -/
theorem Run.process_pattern :
    (Request.couple (.named "pattern" "x") (.named "b" "y")).FreshTemporaries World.pattern.tree ∧
      ((process [] (.couple (.named "pattern" "x") (.named "b" "y"))).run
        .pattern).2.tree.content? [utf8 "b"] = some (utf8 "y") ∧
      ((process [] (Request.couple (.named "pattern" "x") (.named "b" "y")).oneByOne).run
        .pattern).2.tree.content? [utf8 "b"] = some (utf8 "x") := by
  decide +kernel

end MailMerge
