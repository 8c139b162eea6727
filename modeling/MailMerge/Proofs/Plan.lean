import MailMerge.Proofs.Repetitions
import MailMerge.Proofs.Run.Crew

/-!
# Plans and assignments

All files of a request go into one directory, each under a plain name (`exists_plain_of_mem_plan`),
and the plan of the first rows is the first part of the plan (`destinations_take`), so a row has the
same destination whatever rows come after it.

A run attends to a first part of the plan: to all of it or, under the policy to abort, to the rows
up to the first one without a destination.  The rows attended to are its assignments, the first of
those that are planned (`assigned_eq_take`).
-/

namespace MailMerge

open MailMerge.Path (IsPlain)

set_option autoImplicit false

namespace Request

/-- The directory that the files of a request go to. -/
def directory (request : Request) : Path :=
  Destination.directory request.template request.outputDir

/-! ## Destinations -/

/-- Every file of a request is an entry of its directory. -/
theorem exists_plain_of_mem_plan {request : Request} {path : Path}
    (member : .ok path ∈ request.plan.destinations) :
    ∃ name, IsPlain name ∧ path = request.directory.join ⟨name⟩ := by
  obtain ⟨index, found⟩ := List.getElem?_of_mem member
  obtain ⟨row, _, resolved⟩ := (planned_of_getElem? found).goes
  exact Destination.exists_plain_of_resolve resolved

theorem category_of_mem_plan {request : Request} {failure : Failure}
    (member : .error failure ∈ request.plan.destinations) : failure.category = .record := by
  obtain ⟨index, found⟩ := List.getElem?_of_mem member
  cases planned_of_getElem? found with
  | failed _ failed => exact Destination.category_of_resolve failed
  | refused => rfl

theorem ne_cancelled_of_mem_plan {request : Request} {failure : Failure}
    (member : .error failure ∈ request.plan.destinations) : failure ≠ .cancelled := by
  rintro rfl
  exact absurd (category_of_mem_plan member) (by simp [Failure.category])

/-- The plan of the first rows is the first part of the plan. -/
theorem planFrom_take (request other : Request)
    (resolve : ∀ row index, other.resolve row index = request.resolve row index)
    (policy : other.duplicatePolicy = request.duplicatePolicy) (seen : List (Path × Nat))
    (index : Nat) (rows : List Row) (count : Nat) :
    (other.planFrom seen index (rows.take count)).destinations =
      (request.planFrom seen index rows).destinations.take count := by
  induction rows generalizing seen index count with
  | nil => simp [planFrom]
  | cons row rest ih =>
    cases count with
    | zero => simp [planFrom]
    | succ count =>
      rw [List.take_succ_cons, planFrom, planFrom, resolve]
      cases request.resolve row index with
      | error failure => simp [ih]
      | ok path =>
        simp only [policy]
        cases firstUse? seen path <;> simp [ih]

/-- The request for the first rows alone, to be run one row after another to the end. -/
def firstRows (request : Request) (count : Nat) : Request :=
  { request with rows := request.rows.take count, errorPolicy := .continue, concurrency := 1 }

theorem destinations_take (request : Request) (count : Nat) :
    (request.firstRows count).plan.destinations = request.plan.destinations.take count :=
  planFrom_take request (request.firstRows count) (fun _ _ => rfl) rfl [] 0 request.rows count

/-- The request to be run one row after another. -/
def oneByOne (request : Request) : Request := { request with concurrency := 1 }

theorem destinations_oneByOne (request : Request) :
    request.oneByOne.plan.destinations = request.plan.destinations := by
  have whole := planFrom_take request request.oneByOne (fun _ _ => rfl) rfl [] 0 request.rows
    request.rows.length
  have length := length_planFrom request [] 0 request.rows
  rw [List.take_length, ← length, List.take_length] at whole
  exact whole

theorem width_of_concurrency_one {request : Request} (one : request.concurrency = 1) :
    request.width = 1 := by
  simp [width, one]

theorem width_pos (request : Request) : 0 < request.width := by
  unfold width
  split <;> omega

end Request

/-! ## Rows attended to -/

theorem upToFirstFailure_eq_take (destinations : List (Except Failure Path)) :
    ∃ count, upToFirstFailure destinations = destinations.take count := by
  induction destinations with
  | nil => exact ⟨0, rfl⟩
  | cons first rest ih =>
    cases first with
    | error failure => exact ⟨1, by simp [upToFirstFailure]⟩
    | ok path =>
      obtain ⟨count, same⟩ := ih
      exact ⟨count + 1, by simp [upToFirstFailure, same]⟩

namespace Run

theorem length_assignments (index : Nat) (rows : List Row)
    (destinations : List (Except Failure Path)) :
    (assignments index rows destinations).length = min rows.length destinations.length := by
  induction rows generalizing index destinations with
  | nil => simp [assignments]
  | cons row rows ih =>
    cases destinations with
    | nil => simp [assignments]
    | cons destination destinations => simp [assignments, ih, Nat.add_min_add_right]

theorem getElem?_assignments (index position : Nat) (rows : List Row)
    (destinations : List (Except Failure Path)) (assignment : Assignment) :
    (assignments index rows destinations)[position]? = some assignment ↔
      assignment.index = index + position ∧ rows[position]? = some assignment.row ∧
        destinations[position]? = some assignment.destination := by
  induction rows generalizing index position destinations with
  | nil => simp [assignments]
  | cons row rows ih =>
    cases destinations with
    | nil => simp [assignments]
    | cons destination destinations =>
      cases position with
      | zero =>
        obtain ⟨at_, row', destination'⟩ := assignment
        simp only [assignments, List.getElem?_cons_zero, Option.some.injEq, Assignment.mk.injEq,
          Nat.add_zero]
        rw [eq_comm]
      | succ position =>
        simp only [assignments, List.getElem?_cons_succ, ih]
        rw [Nat.add_assoc, Nat.add_comm 1]

theorem assignments_take (index count : Nat) (rows : List Row)
    (destinations : List (Except Failure Path)) :
    assignments index (rows.take count) (destinations.take count) =
      (assignments index rows destinations).take count := by
  induction rows generalizing index count destinations with
  | nil => simp [assignments]
  | cons row rows ih =>
    cases destinations with
    | nil => cases count <;> simp [assignments]
    | cons destination destinations =>
      cases count with
      | zero => simp [assignments]
      | succ count => simp [assignments, ih]

theorem assignments_take_destinations (index count : Nat) (rows : List Row)
    (destinations : List (Except Failure Path)) :
    assignments index rows (destinations.take count) =
      (assignments index rows destinations).take count := by
  induction rows generalizing index count destinations with
  | nil => simp [assignments]
  | cons row rows ih =>
    cases destinations with
    | nil => simp [assignments]
    | cons destination destinations =>
      cases count with
      | zero => simp [assignments]
      | succ count => simp [assignments, ih]

end Run

/-- The rows of a request with their destinations. -/
def Request.planned (request : Request) : List Run.Assignment :=
  Run.assignments 0 request.rows request.plan.destinations

/-- The rows that a run of a request attends to. -/
def Request.assigned (request : Request) : List Run.Assignment :=
  Run.assignments 0 request.rows request.attended

namespace Request

theorem length_planned (request : Request) : request.planned.length = request.rows.length := by
  rw [planned, Run.length_assignments, plan, length_planFrom, Nat.min_self]

/-- A run attends to a first part of the rows. -/
theorem assigned_eq_take (request : Request) :
    ∃ count, request.assigned = request.planned.take count := by
  unfold assigned attended planned
  cases request.errorPolicy with
  | «continue» =>
    refine ⟨request.planned.length, ?_⟩
    exact (List.take_length ..).symm
  | abort =>
    obtain ⟨count, same⟩ := upToFirstFailure_eq_take request.plan.destinations
    exact ⟨count, by rw [same, Run.assignments_take_destinations]⟩

theorem assigned_of_continue {request : Request} (policy : request.errorPolicy = .continue) :
    request.assigned = request.planned := by
  rw [assigned, attended, policy]
  rfl

theorem assigned_oneByOne (request : Request) : request.oneByOne.assigned = request.assigned := by
  unfold assigned attended
  rw [destinations_oneByOne]
  rfl

theorem planned_firstRows (request : Request) (count : Nat) :
    (request.firstRows count).planned = request.planned.take count := by
  rw [planned, destinations_take]
  exact Run.assignments_take 0 count request.rows request.plan.destinations

end Request

end MailMerge
