import MailMerge.Proofs.Report
import MailMerge.Proofs.Run.Accounts
import MailMerge.Proofs.Run.Concurrency
import MailMerge.Proofs.Run.Moments

/-!
# The shape of reports

Every report has the outcomes of the first rows of its request, in order.  It has all of them unless
the run was cancelled, or stopped at a failing row, and a cancelled run has always left some row out
(`Report.Shape`, `Run.shape_process`).  So a run that is all or nothing succeeds only when every row
was generated, and then its paths are the destinations of the rows one by one.

Planning a request tells what a run of it will do, as far as that can be told without writing: a row
that is refused by the plan fails in the run for the same reason, and a row that has a path in the
plan is generated there unless the file system prevents it (`Run.process_planOnly`).  Neither the
files nor the schedule have any influence on that.
-/

namespace MailMerge

open Run (Assignment Schedule Fulfils Leaves Tells)

set_option autoImplicit false

/-! ## Plans row by row -/

namespace Request

theorem resolve_of_planned {request : Request} {position : Nat} {assignment : Assignment}
    {path : Path} (found : request.planned[position]? = some assignment)
    (chosen : assignment.destination = .ok path) :
    request.resolve assignment.row position = .ok path := by
  obtain ⟨_, here, planned⟩ := getElem?_planned found
  exact (planned_of_getElem? (chosen ▸ planned)).goes.resolve here

end Request

/-- Where no destination is missing, a run attends to all rows even under the policy to abort. -/
theorem Run.assignments_upToFirstFailure {index : Nat} {rows : List Row}
    {destinations : List (Except Failure Path)}
    (all : ∀ assignment ∈ assignments index rows (upToFirstFailure destinations),
      ∃ path, assignment.destination = .ok path) :
    assignments index rows (upToFirstFailure destinations) =
      assignments index rows destinations := by
  induction rows generalizing index destinations with
  | nil => simp [assignments]
  | cons row rows ih =>
    cases destinations with
    | nil => rfl
    | cons destination destinations =>
      cases destination with
      | error failure =>
        obtain ⟨path, never⟩ := all ⟨index, row, .error failure⟩ List.mem_cons_self
        simp at never
      | ok path =>
        simp only [upToFirstFailure, assignments] at all ⊢
        rw [ih fun assignment member => all assignment (List.mem_cons_of_mem _ member)]

theorem Request.assigned_eq_planned {request : Request} (all : request.errorPolicy = .abort →
      ∀ assignment ∈ request.assigned, ∃ path, assignment.destination = .ok path) :
    request.assigned = request.planned := by
  cases policy : request.errorPolicy with
  | «continue» => exact assigned_of_continue policy
  | abort =>
    have all := all policy
    rw [assigned, attended, policy] at all ⊢
    exact Run.assignments_upToFirstFailure all

/-! ## Rows that are told about -/

namespace Run

theorem Fulfils.plan_of_ok {plan : Except Failure Path} {path : Path}
    (fulfils : Fulfils plan (.ok path)) : plan = .ok path := by
  cases fulfils
  rfl

variable {request : Request} {done skipped : List Assignment} {outcomes : List Outcome}

/-- The rows of a run that are settled are the first rows of its request. -/
theorem prefix_planned (split : request.assigned = done ++ skipped) : done <+: request.planned := by
  obtain ⟨count, assigned⟩ := request.assigned_eq_take
  exact (List.prefix_append done skipped).trans (split ▸ assigned ▸ List.take_prefix count _)

/-- The outcome at a position is that of the row there. -/
theorem exists_planned (split : request.assigned = done ++ skipped)
    (told : List.Forall₂ Tells done outcomes) {position : Nat} {outcome : Outcome}
    (found : outcomes[position]? = some outcome) :
    ∃ assignment, request.planned[position]? = some assignment ∧ Tells assignment outcome := by
  obtain ⟨inside, rfl⟩ := List.getElem?_eq_some_iff.1 found
  have inside' : position < done.length := told.length_eq ▸ inside
  refine ⟨done[position], ?_, told.get inside' inside⟩
  exact List.prefix_iff_getElem?.1 (prefix_planned split) position inside'

theorem length_le_planned (split : request.assigned = done ++ skipped) :
    done.length + skipped.length ≤ request.rows.length := by
  obtain ⟨count, assigned⟩ := request.assigned_eq_take
  rw [← List.length_append, ← split, assigned, ← request.length_planned]
  exact List.length_take_le' ..

/-- When nothing was left out, all rows of the request are settled. -/
theorem length_of_nothing (split : request.assigned = done)
    (told : List.Forall₂ Tells done outcomes) (successes : request.errorPolicy = .abort →
      ∀ outcome ∈ outcomes, ∃ path, outcome.result = .ok path) :
    outcomes.length = request.rows.length := by
  have whole : request.assigned = request.planned := by
    refine Request.assigned_eq_planned fun policy assignment member => ?_
    obtain ⟨outcome, recorded, tells⟩ := Site.exists_right_of_mem told (split ▸ member)
    obtain ⟨path, ok⟩ := successes policy outcome recorded
    exact ⟨path, (ok ▸ tells.2).plan_of_ok⟩
  rw [← told.length_eq, ← split, whole, request.length_planned]

end Run

/-! ## The shape of a report -/

/-- The shape that the reports of a request have. -/
structure Report.Shape (request : Request) (report : Report) : Prop where
  indices : ∀ (position : Nat) (outcome : Outcome), report.outcomes[position]? = some outcome →
    outcome.index = position
  few : report.outcomes.length ≤ request.rows.length
  whole : report.outcomes.length = request.rows.length ∨ report.cancelled = true ∨
    request.errorPolicy = .abort ∧ ∃ last failure, report.outcomes.getLast? = some last ∧
      last.result = .error failure
  cut : report.cancelled = true → report.outcomes.length < request.rows.length
  successes : request.errorPolicy = .abort → ∀ outcome ∈ report.outcomes.dropLast,
    ∃ path, outcome.result = .ok path
  uncancelled : ∀ outcome ∈ report.outcomes, outcome.result ≠ .error .cancelled

namespace Run

theorem Tells.ne_cancelled {request : Request} {assignment : Assignment} {outcome : Outcome}
    (member : assignment ∈ request.planned) (tells : Tells assignment outcome) :
    outcome.result ≠ .error .cancelled := by
  intro cancelled
  obtain ⟨_, fulfils⟩ := tells
  have planned := Request.mem_plan_of_mem_planned member
  rw [cancelled] at fulfils
  generalize assignment.destination = destination at fulfils planned
  cases fulfils with
  | refused => exact Request.ne_cancelled_of_mem_plan planned rfl

theorem shape_of_process {schedule : Schedule} {request : Request} {world : World} {report : Report}
    (ok : ((process schedule request).run world).1 = .ok report) : report.Shape request := by
  obtain ⟨done, skipped, halted, split, told, leaves⟩ := accounts_process ok
  have length := told.length_eq
  have few := length_le_planned split
  refine ⟨fun position outcome found => ?_, by omega, ?_, fun cancelled => ?_, fun abort => ?_,
    fun outcome member => ?_⟩
  · obtain ⟨assignment, found', tells⟩ := exists_planned split told found
    exact tells.1.trans (Request.getElem?_planned found').1
  · generalize report.cancelled = interrupted at leaves
    cases leaves with
    | nothing successes =>
      exact .inl (length_of_nothing (split.trans (List.append_nil _)) told successes)
    | interrupted => exact .inr (.inl rfl)
    | stopped abort stops =>
      obtain ⟨earlier, last, failure, same, failed, _⟩ := stops
      exact .inr (.inr ⟨abort, last, failure, by rw [same, List.getLast?_concat], failed⟩)
  · rw [cancelled] at leaves
    cases leaves with
    | interrupted =>
      rw [List.length_cons] at few
      omega
  · generalize report.cancelled = interrupted at leaves
    cases leaves with
    | nothing successes =>
      exact fun outcome member => successes abort outcome (List.dropLast_subset _ member)
    | interrupted successes =>
      exact fun outcome member => successes abort outcome (List.dropLast_subset _ member)
    | stopped _ stops =>
      obtain ⟨earlier, last, failure, same, _, all⟩ := stops
      rw [same, List.dropLast_concat]
      exact all
  · obtain ⟨position, found⟩ := List.getElem?_of_mem member
    obtain ⟨assignment, found', tells⟩ := exists_planned split told found
    exact tells.ne_cancelled (List.mem_of_getElem? found')

/-- A generated path is the one that was planned. -/
theorem plan_of_outcome {request : Request} {schedule : Schedule} {world : World} {report : Report}
    (ok : ((process schedule request).run world).1 = .ok report) {position : Nat} {path : Path}
    (found : report.outcomes[position]? = some ⟨position, .ok path⟩) :
    request.plan.destinations[position]? = some (.ok path) := by
  obtain ⟨done, skipped, _, split, told, _⟩ := accounts_process ok
  obtain ⟨assignment, planned, _, fulfils⟩ := exists_planned split told found
  rw [(Request.getElem?_planned planned).2.2, fulfils.plan_of_ok]

/-- A run that is all or nothing succeeds only if no row has failed and it was not cancelled. -/
theorem exists_report_of_processAll {schedule : Schedule} {request : Request} {world : World}
    {paths : List Path} (ok : ((processAll schedule request).run world).1 = .ok paths) :
    ∃ report, ((process schedule { request with errorPolicy := .abort }).run world).1 =
        .ok report ∧ report.cancelled = false ∧
      report.outcomes.map Outcome.result = paths.map .ok := by
  rw [processAll, Task.run_bind] at ok
  cases ran : ((process schedule { request with errorPolicy := .abort }).run world).1 with
  | error failure => simp [ran] at ok
  | ok report =>
    simp only [ran, Task.run_pure, Report.result] at ok
    split at ok
    case h_1 => simp at ok
    case h_2 all =>
      split_ifs at ok with cancelled
      obtain rfl := Except.ok.inj ok
      exact ⟨report, rfl, Bool.eq_false_iff.2 cancelled, Report.allPaths_eq_ok all⟩

theorem getElem?_of_results {outcomes : List Outcome} {paths : List Path}
    (same : outcomes.map Outcome.result = paths.map .ok) (position : Nat) (path : Path) :
    paths[position]? = some path ↔
      ∃ outcome, outcomes[position]? = some outcome ∧ outcome.result = .ok path := by
  have here := congrArg (·[position]?) same
  simp only [List.getElem?_map] at here
  rw [← Option.map_eq_some_iff, here, Option.map_eq_some_iff]
  simp

/-- Whatever the files are, however the rows take turns and whenever the run is cancelled: reports
have the shape of reports, and a run that is all or nothing succeeds only when every row was
generated, each at the destination that it resolves to. -/
theorem shape_process (schedule : Schedule) (request : Request) (world : World) :
    (∀ report, ((process schedule request).run world).1 = .ok report → report.Shape request) ∧
    ∀ paths, ((processAll schedule request).run world).1 = .ok paths →
      paths.length = request.rows.length ∧
      (∀ (position : Nat) (row : Row), request.rows[position]? = some row →
        ∃ path, paths[position]? = some path ∧ request.resolve row position = .ok path) ∧
      ∃ report, ((process schedule { request with errorPolicy := .abort }).run world).1 =
          .ok report ∧ report.cancelled = false ∧
        ∀ (position : Nat) (path : Path), paths[position]? = some path ↔
          report.outcomes[position]? = some ⟨position, .ok path⟩ := by
  refine ⟨fun report ok => shape_of_process ok, fun paths all => ?_⟩
  obtain ⟨report, ok, running, results⟩ := exists_report_of_processAll all
  have shape := shape_of_process ok
  have listed : ∀ (position : Nat) (path : Path), paths[position]? = some path ↔
      report.outcomes[position]? = some ⟨position, .ok path⟩ := by
    intro position path
    rw [getElem?_of_results results]
    refine ⟨fun ⟨outcome, found, generated⟩ => ?_, fun found => ⟨_, found, rfl⟩⟩
    rw [found, ← shape.indices position outcome found, ← generated]
  have length : paths.length = report.outcomes.length := by
    rw [← List.length_map Outcome.result, results, List.length_map]
  have whole : report.outcomes.length = request.rows.length := by
    rcases shape.whole with whole | cancelled | ⟨_, last, failure, found, failed⟩
    · exact whole
    · exact absurd (running.symm.trans cancelled) (by simp)
    · have inside : last.result ∈ paths.map .ok :=
        results ▸ List.mem_map_of_mem (List.mem_of_getLast? found)
      simp [failed] at inside
  refine ⟨length.trans whole, fun position row here => ?_, report, ok, running, listed⟩
  have inside : position < paths.length := by
    rw [length, whole]
    exact (List.getElem?_eq_some_iff.1 here).1
  obtain ⟨path, found⟩ : ∃ path, paths[position]? = some path :=
    ⟨_, List.getElem?_eq_getElem inside⟩
  obtain ⟨done, skipped, _, split, told, _⟩ := accounts_process ok
  obtain ⟨assignment, planned, tells⟩ := exists_planned split told ((listed position path).1 found)
  have resolved := Request.resolve_of_planned planned (Fulfils.plan_of_ok tells.2)
  obtain rfl := Option.some.inj (here.symm.trans (Request.getElem?_planned planned).2.1)
  exact ⟨path, found, resolved⟩

theorem shape_process_couple :
    Report.Shape (.couple (.named "a" "x") (.named "b" "y")) ⟨[⟨0, .ok ⟨utf8 "a"⟩⟩], true⟩ ∧
      (Request.couple (.named "a" "x") (.named "b" "y")).resolve (.named "b" "y") 1 =
        .ok ⟨utf8 "b"⟩ := by
  refine ⟨(shape_process [.advance 1, .settle, .interrupt] _ .pattern).1 _ (by decide +kernel), ?_⟩
  obtain ⟨_, resolved, _⟩ := (shape_process [.advance 1] (.couple (.named "a" "x") (.named "b" "y"))
    .pattern).2 [⟨utf8 "a"⟩, ⟨utf8 "b"⟩] (by decide +kernel)
  obtain ⟨path, found, same⟩ := resolved 1 _ rfl
  obtain rfl : ⟨utf8 "b"⟩ = path := by simpa using found
  exact same

/-! ## Plans and runs -/

/-- A request that is planned has the destinations of its plan. -/
theorem eq_of_planOnly {request : Request} {world : World} {plan : List (Except Failure Path)}
    (ok : ((planOnly request).run world).1 = .ok plan) : plan = request.plan.destinations := by
  rw [planOnly, Task.run_bind] at ok
  cases opened : ((openTemplate request.template).run world).1 with
  | error failure => simp [opened] at ok
  | ok _ =>
    simp only [opened, Task.run_bind, Task.run_pure] at ok
    exact (Except.ok.inj ok).symm

/-- Planning a request changes nothing at any moment, and the plan tells of every row that a run of
the request reports, wherever and however it runs: a row that is refused by the plan fails for the
same reason, and a row with a path is generated there or the file system has prevented it. -/
theorem process_planOnly (schedule : Schedule) (request : Request) (world later : World) :
    (∀ count, (Task.after count (planOnly request) world).tree = world.tree) ∧
    ((planOnly request).run world).2.tree = world.tree ∧
    ∀ plan report, ((planOnly request).run world).1 = .ok plan →
      ((process schedule request).run later).1 = .ok report →
      plan.length = request.rows.length ∧
      ∀ (position : Nat) (outcome : Outcome), report.outcomes[position]? = some outcome →
        outcome.index = position ∧
        ((∃ failure, plan[position]? = some (.error failure) ∧ outcome.result = .error failure) ∨
          ∃ path, plan[position]? = some (.ok path) ∧
            (outcome.result = .ok path ∨
              ∃ other fault, outcome.result = .error (.io other fault))) := by
  refine ⟨fun count => (idle_planOnly request).after count world,
    (idle_planOnly request).run world, fun plan report planned ok => ?_⟩
  obtain rfl := eq_of_planOnly planned
  refine ⟨Request.length_planFrom .., fun position outcome found => ?_⟩
  obtain ⟨done, skipped, _, split, told, _⟩ := accounts_process ok
  obtain ⟨assignment, found', index, fulfils⟩ := exists_planned split told found
  obtain ⟨same, _, destination⟩ := Request.getElem?_planned found'
  refine ⟨index.trans same, ?_⟩
  rw [destination]
  generalize assignment.destination = plan, outcome.result = result at fulfils
  cases fulfils with
  | refused => exact .inl ⟨_, rfl, rfl⟩
  | generated => exact .inr ⟨_, rfl, .inl rfl⟩
  | broken => exact .inr ⟨_, rfl, .inr ⟨_, _, rfl⟩⟩

theorem process_planOnly_couple : ∃ plan,
    ((planOnly (.couple (.named "a" "x") (.named "" "y"))).run .pattern).1 = .ok plan ∧
      plan[1]? = some (.error (.invalidName "" .empty)) := by
  have planned : ((planOnly (.couple (.named "a" "x") (.named "" "y"))).run .pattern).1 =
      .ok [.ok ⟨utf8 "a"⟩, .error (.invalidName "" .empty)] := by decide +kernel
  have ok : ((process [.advance 1] (.couple (.named "a" "x") (.named "" "y"))).run .pattern).1 =
      .ok ⟨[⟨0, .ok ⟨utf8 "a"⟩⟩, ⟨1, .error (.invalidName "" .empty)⟩], false⟩ := by decide +kernel
  obtain ⟨_, _, agree⟩ := process_planOnly [.advance 1]
    (.couple (.named "a" "x") (.named "" "y")) .pattern .pattern
  obtain ⟨_, ⟨failure, found, same⟩ | ⟨path, _, same | ⟨other, fault, same⟩⟩⟩ :=
    (agree _ _ planned ok).2 1 _ rfl
  · obtain rfl := Except.error.inj same
    exact ⟨_, planned, found⟩
  · exact absurd same (by simp)
  · exact absurd same (by simp)

end Run

end MailMerge
