import Mathlib.Order.Bounds.Basic
import Mathlib.Order.Nat
import MailMerge.Proofs.Destination
import MailMerge.Request

/-!
# Destinations that repeat

A plan is made in one pass over the rows, which keeps the destinations that it has met, each with the
row where it met it first.  What it says about a row can be told without the pass
(`Request.Planned`): the row fails by itself, it is the first one to go where it goes, or it repeats
a destination, and then the row told along with it is the least of all that share this destination,
not the last one before it (`Request.Repeats`).

What carries this from row to row is that the destinations kept are those of the rows before, and the
rows kept with them the least ones (`Request.Met`).  A row that fails shares no destination, and a row
that repeats one is not the least, so that neither of them has to be kept.
-/

namespace MailMerge

set_option autoImplicit false

namespace Request

variable {request : Request} {index first : Nat} {path other : Path} {seen : List (Path × Nat)}

/-! ## Rows that share a destination -/

/-- The row at an index has a path as its destination. -/
def Goes (request : Request) (index : Nat) (path : Path) : Prop :=
  ∃ row, request.rows[index]? = some row ∧ request.resolve row index = .ok path

/-- The rows whose destinations have the components of a path. -/
def sharers (request : Request) (path : Path) : Set Nat :=
  {index | ∃ other, request.Goes index other ∧ other.components = path.components}

/-- A row goes where an earlier one went, and the first of all that went there is the one given. -/
structure Repeats (request : Request) (index : Nat) (path : Path) (first : Nat) : Prop where
  goes : request.Goes index path
  least : IsLeast (request.sharers path) first
  before : first < index

/-- What a plan says about a row. -/
inductive Planned (request : Request) (index : Nat) : Except Failure Path → Prop
  /-- The row has no destination by itself. -/
  | failed {row : Row} {failure : Failure} (here : request.rows[index]? = some row)
      (failed : request.resolve row index = .error failure) : request.Planned index (.error failure)
  /-- No row before it goes there. -/
  | fresh {path : Path} (goes : request.Goes index path)
      (unshared : ∀ earlier < index, earlier ∉ request.sharers path) :
      request.Planned index (.ok path)
  /-- It replaces the file of an earlier row. -/
  | replacing {path : Path} {first : Nat} (repeats : request.Repeats index path first)
      (policy : request.duplicatePolicy = .overwrite) : request.Planned index (.ok path)
  /-- It is refused because of an earlier row. -/
  | refused {path : Path} {first : Nat} (repeats : request.Repeats index path first)
      (policy : request.duplicatePolicy = .error) :
      request.Planned index (.error (.duplicateDestination path first index))

theorem Goes.resolve {row : Row} (goes : request.Goes index path)
    (here : request.rows[index]? = some row) : request.resolve row index = .ok path := by
  obtain ⟨row', here', resolved⟩ := goes
  obtain rfl := Option.some.inj (here.symm.trans here')
  exact resolved

theorem Goes.unique (goes : request.Goes index path) (goes' : request.Goes index other) :
    path = other := by
  obtain ⟨row, here, resolved⟩ := goes
  exact Except.ok.inj (resolved.symm.trans (goes'.resolve here))

theorem Goes.mem_sharers (goes : request.Goes index path) : index ∈ request.sharers path :=
  ⟨path, goes, rfl⟩

theorem sharers_congr (same : path.components = other.components) :
    request.sharers path = request.sharers other := by
  simp only [sharers, same]

theorem Goes.mem_sharers_iff (goes : request.Goes index path) :
    index ∈ request.sharers other ↔ path.components = other.components := by
  constructor
  · rintro ⟨path', goes', same⟩
    rwa [goes.unique goes']
  · intro same
    exact ⟨path, goes, same⟩

/-! ## The destinations kept -/

theorem firstUse?_congr (same : path.components = other.components) :
    firstUse? seen path = firstUse? seen other := by
  simp only [firstUse?, Path.same, same]

theorem firstUse?_snoc (seen : List (Path × Nat)) (path other : Path) (index : Nat) :
    firstUse? (seen ++ [(path, index)]) other =
      (firstUse? seen other).or
        (if path.components = other.components then some index else none) := by
  rw [firstUse?, List.find?_append, Option.map_or, List.find?_singleton, firstUse?]
  simp only [Path.same, beq_iff_eq]
  split <;> rfl

/-- What is kept when a row comes up are the destinations of the rows before it. -/
structure Met (request : Request) (index : Nat) (seen : List (Path × Nat)) : Prop where
  /-- A row that is kept is the first with its destination. -/
  least : ∀ path first, firstUse? seen path = some first →
    first < index ∧ IsLeast (request.sharers path) first
  /-- What is not kept is the destination of no row before. -/
  unshared : ∀ path, firstUse? seen path = none →
    ∀ earlier < index, earlier ∉ request.sharers path

theorem met_nil (request : Request) : request.Met 0 [] where
  least _ _ found := by simp [firstUse?] at found
  unshared _ _ earlier before := absurd before (Nat.not_lt_zero earlier)

/-- Nothing has to be kept of a row that has only destinations that are kept. -/
theorem Met.skip (met : request.Met index seen)
    (kept : ∀ path, index ∈ request.sharers path → firstUse? seen path ≠ none) :
    request.Met (index + 1) seen where
  least path first found := by
    obtain ⟨before, least⟩ := met.least path first found
    exact ⟨Nat.lt_succ_of_lt before, least⟩
  unshared path unused earlier before shares := by
    rcases Nat.lt_succ_iff_lt_or_eq.1 before with before | rfl
    · exact met.unshared path unused earlier before shares
    · exact kept path shares unused

/-- A destination that is not kept is kept from then on. -/
theorem Met.keep (met : request.Met index seen) (goes : request.Goes index path)
    (unused : firstUse? seen path = none) :
    request.Met (index + 1) (seen ++ [(path, index)]) where
  least other first found := by
    rw [firstUse?_snoc, Option.or_eq_some_iff] at found
    rcases found with found | ⟨_, found⟩
    · obtain ⟨before, least⟩ := met.least other first found
      exact ⟨Nat.lt_succ_of_lt before, least⟩
    · split_ifs at found with same
      obtain rfl := Option.some.inj found
      refine ⟨Nat.lt_succ_self index, goes.mem_sharers_iff.2 same, fun earlier shares => ?_⟩
      rw [← sharers_congr same] at shares
      exact Nat.not_lt.1 fun before => met.unshared path unused earlier before shares
  unshared other unused' earlier before shares := by
    rw [firstUse?_snoc, Option.or_eq_none_iff] at unused'
    obtain ⟨none_, apart⟩ := unused'
    rcases Nat.lt_succ_iff_lt_or_eq.1 before with before | rfl
    · exact met.unshared other none_ earlier before shares
    · rw [if_pos (goes.mem_sharers_iff.1 shares)] at apart
      exact absurd apart (by simp)

/-! ## The pass -/

/-- One row of the pass: what is kept behind it, and how the plan from this row on comes from the plan
of the rows behind it. -/
structure Step (request : Request) (index : Nat) (seen : List (Path × Nat))
    (destination : Except Failure Path) (plan later : Plan) : Prop where
  met : request.Met (index + 1) seen
  planned : request.Planned index destination
  destinations : plan.destinations = destination :: later.destinations
  repetitions : ∀ repetition, repetition ∈ plan.repetitions ↔
    (repetition.row = index ∧
      request.Repeats repetition.row repetition.path repetition.firstRow) ∨
    repetition ∈ later.repetitions

variable {row : Row}

theorem Met.step_failed (met : request.Met index seen) (here : request.rows[index]? = some row)
    {failure : Failure} (failed : request.resolve row index = .error failure) (rest : List Row) :
    request.Step index seen (.error failure) (request.planFrom seen index (row :: rest))
      (request.planFrom seen (index + 1) rest) := by
  have nowhere (path : Path) : ¬ request.Goes index path := by
    intro goes
    exact absurd (failed.symm.trans (goes.resolve here)) (by simp)
  refine ⟨met.skip ?_, .failed here failed, by simp only [planFrom, failed], ?_⟩
  · rintro path ⟨other, goes, _⟩
    exact absurd goes (nowhere other)
  · intro repetition
    simp only [planFrom, failed]
    refine (or_iff_right ?_).symm
    rintro ⟨rfl, repeats⟩
    exact nowhere _ repeats.goes

theorem Met.step_fresh (met : request.Met index seen) (here : request.rows[index]? = some row)
    (resolved : request.resolve row index = .ok path) (unused : firstUse? seen path = none)
    (rest : List Row) :
    request.Step index (seen ++ [(path, index)]) (.ok path)
      (request.planFrom seen index (row :: rest))
      (request.planFrom (seen ++ [(path, index)]) (index + 1) rest) := by
  have goes : request.Goes index path := ⟨row, here, resolved⟩
  have unshared := met.unshared path unused
  refine ⟨met.keep goes unused, .fresh goes unshared, ?_, ?_⟩
  · simp only [planFrom, resolved, unused]
  · intro repetition
    simp only [planFrom, resolved, unused]
    refine (or_iff_right ?_).symm
    rintro ⟨rfl, repeats⟩
    obtain rfl := goes.unique repeats.goes
    exact unshared _ repeats.before repeats.least.1

theorem Met.step_repeated (met : request.Met index seen) (here : request.rows[index]? = some row)
    (resolved : request.resolve row index = .ok path) (used : firstUse? seen path = some first)
    (rest : List Row) :
    ∃ destination, request.Step index seen destination
      (request.planFrom seen index (row :: rest)) (request.planFrom seen (index + 1) rest) := by
  have goes : request.Goes index path := ⟨row, here, resolved⟩
  obtain ⟨before, least⟩ := met.least path first used
  have repeats : request.Repeats index path first := ⟨goes, least, before⟩
  refine ⟨_, met.skip ?_, ?_, by simp only [planFrom, resolved, used]; rfl, ?_⟩
  · intro other shares
    rw [← firstUse?_congr (goes.mem_sharers_iff.1 shares), used]
    exact Option.some_ne_none first
  · cases policy : request.duplicatePolicy with
    | overwrite => exact .replacing repeats policy
    | error => exact .refused repeats policy
  · rintro ⟨row', path', first'⟩
    simp only [planFrom, resolved, used, List.mem_cons]
    apply or_congr_left
    constructor
    · intro same
      obtain ⟨rfl, rfl, rfl⟩ := Repetition.mk.inj same
      exact ⟨rfl, repeats⟩
    · rintro ⟨rfl, again⟩
      obtain rfl := goes.unique again.goes
      rw [least.unique again.least]

theorem Met.exists_step (met : request.Met index seen) (here : request.rows[index]? = some row)
    (rest : List Row) :
    ∃ seen' destination, request.Step index seen' destination
      (request.planFrom seen index (row :: rest)) (request.planFrom seen' (index + 1) rest) := by
  cases resolved : request.resolve row index with
  | error failure => exact ⟨_, _, met.step_failed here resolved rest⟩
  | ok path =>
    cases used : firstUse? seen path with
    | none => exact ⟨_, _, met.step_fresh here resolved used rest⟩
    | some first => exact ⟨_, met.step_repeated here resolved used rest⟩

/-- The pass over the rows that are left. -/
theorem planned_planFrom {rest : List Row} (met : request.Met index seen)
    (left : request.rows.drop index = rest) :
    (∀ position destination,
        (request.planFrom seen index rest).destinations[position]? = some destination →
          request.Planned (index + position) destination) ∧
      ∀ repetition, repetition ∈ (request.planFrom seen index rest).repetitions ↔
        index ≤ repetition.row ∧
          request.Repeats repetition.row repetition.path repetition.firstRow := by
  induction rest generalizing index seen with
  | nil =>
    refine ⟨fun position destination found => by simp [planFrom] at found, fun repetition => ?_⟩
    simp only [planFrom, List.not_mem_nil, false_iff]
    rintro ⟨behind, repeats⟩
    obtain ⟨row, here, _⟩ := repeats.goes
    have inside := (List.getElem?_eq_some_iff.1 here).1
    have := List.drop_eq_nil_iff.1 left
    omega
  | cons row rest ih =>
    have here : request.rows[index]? = some row := by
      rw [← List.head?_drop, left, List.head?_cons]
    have left' : request.rows.drop (index + 1) = rest := by
      rw [← List.tail_drop, left, List.tail_cons]
    obtain ⟨seen', destination, step⟩ := met.exists_step here rest
    obtain ⟨later, repeated⟩ := ih step.met left'
    constructor
    · intro position found there
      rw [step.destinations] at there
      cases position with
      | zero =>
        obtain rfl := Option.some.inj there
        exact step.planned
      | succ position =>
        rw [← Nat.add_assoc, Nat.add_right_comm]
        exact later position found there
    · intro repetition
      rw [step.repetitions, repeated, ← or_and_right]
      refine and_congr_left' ?_
      omega

/-! ## The plan -/

theorem length_planFrom (request : Request) (seen : List (Path × Nat)) (index : Nat)
    (rows : List Row) : (request.planFrom seen index rows).destinations.length = rows.length := by
  induction rows generalizing seen index with
  | nil => rfl
  | cons row rest ih =>
    rw [planFrom]
    split
    · simp [ih]
    · split <;> simp [ih]

theorem planned_of_getElem? {destination : Except Failure Path}
    (found : request.plan.destinations[index]? = some destination) :
    request.Planned index destination := by
  rw [← Nat.zero_add index]
  exact (planned_planFrom (met_nil request) (List.drop_zero ..)).1 index destination found

theorem mem_repetitions (repetition : Repetition) :
    repetition ∈ request.plan.repetitions ↔
      request.Repeats repetition.row repetition.path repetition.firstRow := by
  rw [plan, (planned_planFrom (met_nil request) (List.drop_zero ..)).2]
  exact and_iff_right (Nat.zero_le _)

theorem exists_planned_of_getElem? (here : request.rows[index]? = some row) :
    ∃ destination, request.plan.destinations[index]? = some destination ∧
      request.Planned index destination := by
  have inside : index < request.plan.destinations.length := by
    rw [plan, length_planFrom]
    exact (List.getElem?_eq_some_iff.1 here).1
  have found := List.getElem?_eq_getElem inside
  exact ⟨_, found, planned_of_getElem? found⟩

theorem Goes.exists_planned (goes : request.Goes index path) :
    ∃ destination, request.plan.destinations[index]? = some destination ∧
      request.Planned index destination := by
  obtain ⟨row, here, _⟩ := goes
  exact exists_planned_of_getElem? here

/-- A path in a plan is the destination of its row by itself. -/
theorem Planned.goes (planned : request.Planned index (.ok path)) : request.Goes index path := by
  cases planned with
  | fresh goes => exact goes
  | replacing repeats => exact repeats.goes

/-- When later rows replace the files of earlier ones, each row has the destination that it has by
itself. -/
theorem Planned.eq_resolve {destination : Except Failure Path}
    (planned : request.Planned index destination) (here : request.rows[index]? = some row)
    (policy : request.duplicatePolicy = .overwrite) : destination = request.resolve row index := by
  cases planned with
  | failed here' failed =>
    obtain rfl := Option.some.inj (here.symm.trans here')
    exact failed.symm
  | fresh goes => exact (goes.resolve here).symm
  | replacing repeats => exact (repeats.goes.resolve here).symm
  | refused _ error => simp [policy] at error

/-- A row keeps its destination if no earlier row shares it or if it may replace its file. -/
theorem getElem?_plan_ok_iff : request.plan.destinations[index]? = some (.ok path) ↔
    request.Goes index path ∧
      (request.duplicatePolicy = .error → ∀ earlier < index, earlier ∉ request.sharers path) := by
  constructor
  · intro found
    have planned := planned_of_getElem? found
    refine ⟨planned.goes, fun error => ?_⟩
    cases planned with
    | fresh _ unshared => exact unshared
    | replacing _ overwrite => simp [error] at overwrite
  · rintro ⟨goes, unshared⟩
    obtain ⟨destination, found, planned⟩ := goes.exists_planned
    rw [found]
    cases planned with
    | failed here failed => simp [goes.resolve here] at failed
    | fresh goes' => rw [goes.unique goes']
    | replacing repeats => rw [goes.unique repeats.goes]
    | refused repeats error =>
      obtain rfl := goes.unique repeats.goes
      exact absurd repeats.least.1 (unshared error _ repeats.before)

/-- A row is refused because of another one exactly if it repeats a destination and may not replace
the file there. -/
theorem getElem?_plan_duplicate_iff {later : Nat} :
    request.plan.destinations[index]? = some (.error (.duplicateDestination path first later)) ↔
      request.duplicatePolicy = .error ∧ later = index ∧ request.Repeats index path first := by
  constructor
  · intro found
    cases planned_of_getElem? found with
    | failed _ failed => simpa using Destination.failure_of_resolve failed
    | refused repeats error => exact ⟨error, rfl, repeats⟩
  · rintro ⟨error, rfl, repeats⟩
    obtain ⟨destination, found, planned⟩ := repeats.goes.exists_planned
    rw [found]
    cases planned with
    | failed here failed => simp [repeats.goes.resolve here] at failed
    | fresh goes unshared =>
      obtain rfl := goes.unique repeats.goes
      exact absurd repeats.least.1 (unshared _ repeats.before)
    | replacing _ overwrite => simp [error] at overwrite
    | refused again =>
      obtain rfl := again.goes.unique repeats.goes
      rw [again.least.unique repeats.least]

/-! ## Rows that are run one at a time -/

/-- Two rows of a request have the same destination. -/
def Shares (request : Request) : Prop :=
  ∃ earlier later path, earlier < later ∧ request.Goes later path ∧ earlier ∈ request.sharers path

/-- The later one of two rows that share a destination repeats it. -/
theorem exists_repeats {earlier later : Nat} (before : earlier < later)
    (goes : request.Goes later path) (shares : earlier ∈ request.sharers path) :
    ∃ first, request.Repeats later path first := by
  classical
  have least := Nat.isLeast_find ⟨earlier, shares⟩
  exact ⟨_, goes, least, Nat.lt_of_le_of_lt (least.2 shares) before⟩

theorem repetitions_eq_nil_iff : request.plan.repetitions = [] ↔ ¬ request.Shares := by
  rw [List.eq_nil_iff_forall_not_mem]
  constructor
  · rintro none_ ⟨earlier, later, path, before, goes, shares⟩
    obtain ⟨first, repeats⟩ := exists_repeats before goes shares
    exact none_ ⟨later, path, first⟩ ((mem_repetitions _).2 repeats)
  · intro distinct repetition member
    have repeats := (mem_repetitions _).1 member
    exact distinct ⟨_, _, _, repeats.before, repeats.goes, repeats.least.1⟩

/-- Where a destination repeats, rows are run one at a time. -/
theorem width_of_shares (shares : request.Shares) : request.width = 1 := by
  apply if_neg
  rw [List.isEmpty_iff, repetitions_eq_nil_iff, not_not]
  exact shares

theorem width_of_shared {earlier later : Nat} (before : earlier < later)
    (here : request.plan.destinations[earlier]? = some (.ok path))
    (there : request.plan.destinations[later]? = some (.ok path)) : request.width = 1 :=
  width_of_shares ⟨earlier, later, path, before, (planned_of_getElem? there).goes,
    (planned_of_getElem? here).goes.mem_sharers⟩

/-- Otherwise, as many rows are in the making as were asked for. -/
theorem width_of_distinct (distinct : ¬ request.Shares) :
    request.width = max request.concurrency 1 := by
  apply if_pos
  rwa [List.isEmpty_iff, repetitions_eq_nil_iff]

end Request

end MailMerge
