import Mathlib.Data.List.Forall2
import Mathlib.Logic.Relation
import Mathlib.Tactic.Common
import MailMerge.Proofs.Run.Assertions
import MailMerge.Run.Schedule

/-!
# Rows that take turns

The rows in the making form a crew.  Each of them works on terms of its own: what it may do with one
operation, what it relies on the others not to do, and what it will have achieved when its work is
done.  When the steps of each are among what the others rely on, the whole crew can take its
operations in any order, and every row still achieves its goal (`Terms.crew_advanceAt`,
`Terms.crew_advanceEach`, `Terms.crew_completeFirst`).

Nothing here depends on what the terms are.  A crew of one row is one that works by itself.
-/

namespace MailMerge.Run

open Relation (ReflTransGen)

set_option autoImplicit false

/-! ## Assignments -/

/-- A row of a request with its index and its destination. -/
structure Assignment where
  /-- The index of the row. -/
  index : Nat
  /-- The row. -/
  row : Row
  /-- Where its file goes, or why there is none. -/
  destination : Except Failure Path

/-- The assignments of some rows with some destinations. -/
def assignments (index : Nat) : List Row → List (Except Failure Path) → List Assignment
  | row :: rows, destination :: destinations =>
    ⟨index, row, destination⟩ :: assignments (index + 1) rows destinations
  | _, _ => []

/-- An assignment of which nothing has been done yet. -/
def Assignment.pending (template : Path) (assignment : Assignment) : Pending :=
  ⟨assignment.index,
    stagePlanned template assignment.row assignment.destination assignment.index⟩

theorem pendingFrom_eq (template : Path) (index : Nat) (rows : List Row)
    (destinations : List (Except Failure Path)) :
    pendingFrom template index rows destinations =
      (assignments index rows destinations).map (Assignment.pending template) := by
  induction rows generalizing index destinations with
  | nil => rfl
  | cons row rows ih =>
    cases destinations with
    | nil => rfl
    | cons destination destinations => simp only [pendingFrom, assignments, List.map_cons, ih]; rfl

/-! ## Terms -/

/-- What the rows of a run rely on, what they may do, and what they are to achieve. -/
structure Terms where
  /-- What a row relies on the others to keep to. -/
  rely : Assignment → Scene → Scene → Prop
  /-- What a row may do with one operation. -/
  step : Assignment → Scene → Scene → Prop
  /-- What is true when a row's work has been done with some result. -/
  goal : Assignment → Except Failure Staged → Assertion

namespace Terms

variable (terms : Terms)

/-- A row whose work will achieve its goal from here on, whatever the others do. -/
def Held (assignment : Assignment) (work : Task (Except Failure Staged)) (scene : Scene) : Prop :=
  ∃ now : Assertion, now.Steady (terms.rely assignment) ∧ now scene ∧
    work.Secure (terms.rely assignment) (terms.step assignment) (terms.goal assignment) now

/-- Rows in the making, each with its assignment and on its way to its goal. -/
def Crew (scene : Scene) : List Assignment → List Pending → Prop :=
  List.Forall₂ fun assignment pending =>
    pending.index = assignment.index ∧ terms.Held assignment pending.work scene

/-- What a crew may do with any number of operations. -/
def Moved (crew : List Assignment) : Scene → Scene → Prop :=
  ReflTransGen fun scene next => ∃ assignment ∈ crew, terms.step assignment scene next

/-- A row relies on what another row keeps to. -/
def Tolerates (left right : Assignment) : Prop :=
  ∀ scene next, terms.step right scene next → terms.rely left scene next

/-- Rows that tolerate each other. -/
def Apart : List Assignment → Prop :=
  List.Pairwise fun left right => terms.Tolerates left right ∧ terms.Tolerates right left

variable {terms}

theorem Held.relied {assignment : Assignment} {work : Task (Except Failure Staged)}
    {scene next : Scene} (held : terms.Held assignment work scene)
    (relied : terms.rely assignment scene next) : terms.Held assignment work next := by
  obtain ⟨now, steady, holds, secure⟩ := held
  exact ⟨now, steady, steady scene next relied holds, secure⟩

theorem Held.moved {assignment : Assignment} {work : Task (Except Failure Staged)}
    {crew : List Assignment} {scene next : Scene} (held : terms.Held assignment work scene)
    (tolerates : ∀ other ∈ crew, terms.Tolerates assignment other)
    (moved : terms.Moved crew scene next) : terms.Held assignment work next := by
  induction moved with
  | refl => exact held
  | tail _ step ih =>
    obtain ⟨other, member, step⟩ := step
    exact ih.relied (tolerates other member _ _ step)

theorem Held.reached {assignment : Assignment} {result : Except Failure Staged} {scene : Scene}
    (held : terms.Held assignment (.done result) scene) : terms.goal assignment result scene := by
  obtain ⟨now, _, holds, secure⟩ := held
  exact secure scene holds

theorem Held.asked {assignment : Assignment} {operation : Operation}
    {next : operation.Reply → Task (Except Failure Staged)} {scene : Scene}
    (held : terms.Held assignment (.ask operation next) scene) :
    terms.step assignment scene (scene.after operation) ∧
      terms.Held assignment (next (scene.reply operation)) (scene.after operation) := by
  obtain ⟨now, _, holds, later, steady, steps, rest⟩ := held
  obtain ⟨step, after⟩ := steps scene holds
  exact ⟨step, later _, steady _, after, rest _⟩

theorem Moved.single {crew : List Assignment} {assignment : Assignment} {scene next : Scene}
    (member : assignment ∈ crew) (step : terms.step assignment scene next) :
    terms.Moved crew scene next :=
  ReflTransGen.single ⟨assignment, member, step⟩

theorem Moved.widen {crew more : List Assignment} {scene next : Scene}
    (moved : terms.Moved crew scene next) (inside : ∀ assignment ∈ crew, assignment ∈ more) :
    terms.Moved more scene next :=
  ReflTransGen.mono
    (fun _ _ ⟨assignment, member, step⟩ => ⟨assignment, inside assignment member, step⟩) _ _ moved

theorem Crew.moved {crew others : List Assignment} {pending : List Pending} {scene next : Scene}
    (holds : terms.Crew scene others pending)
    (tolerate : ∀ left ∈ others, ∀ right ∈ crew, terms.Tolerates left right)
    (moved : terms.Moved crew scene next) : terms.Crew next others pending := by
  induction holds with
  | nil => exact .nil
  | cons first _ ih =>
    refine .cons ⟨first.1, first.2.moved (tolerate _ List.mem_cons_self) moved⟩ (ih ?_)
    exact fun left member => tolerate left (List.mem_cons_of_mem _ member)

theorem Crew.relied {crew : List Assignment} {pending : List Pending} {scene next : Scene}
    (holds : terms.Crew scene crew pending)
    (relied : ∀ assignment ∈ crew, terms.rely assignment scene next) :
    terms.Crew next crew pending := by
  induction holds with
  | nil => exact .nil
  | cons first _ ih =>
    refine .cons ⟨first.1, first.2.relied (relied _ List.mem_cons_self)⟩ (ih ?_)
    exact fun assignment member => relied assignment (List.mem_cons_of_mem _ member)

theorem Crew.append {scene : Scene} {crew others : List Assignment} {pending more : List Pending}
    (first : terms.Crew scene crew pending) (second : terms.Crew scene others more) :
    terms.Crew scene (crew ++ others) (pending ++ more) :=
  List.rel_append first second

/-- The others stay on their way while one row works. -/
theorem Crew.beside {assignment : Assignment} {others : List Assignment} {pending : List Pending}
    {scene next : Scene} (holds : terms.Crew scene others pending)
    (apart : terms.Apart (assignment :: others)) (moved : terms.Moved [assignment] scene next) :
    terms.Crew next others pending := by
  refine holds.moved (fun left member right single => ?_) moved
  obtain rfl := List.mem_singleton.1 single
  exact ((List.pairwise_cons.1 apart).1 left member).2

/-! ## Turns -/

/-- A row of a crew performs its next operation. -/
theorem Held.advance {assignment : Assignment} {work : Task (Except Failure Staged)} {halted : Bool}
    {world : World} (held : terms.Held assignment work ⟨halted, world⟩) :
    terms.Held assignment ((work.advance halted).run world).1
        ⟨halted, ((work.advance halted).run world).2⟩ ∧
      terms.Moved [assignment] ⟨halted, world⟩ ⟨halted, ((work.advance halted).run world).2⟩ := by
  cases work with
  | done result => exact ⟨held, .refl⟩
  | ask operation next =>
    obtain ⟨step, after⟩ := held.asked
    exact ⟨after, .single List.mem_cons_self step⟩

/-- The first row of a crew has done something, and then the others have. -/
theorem crew_cons {assignment : Assignment} {crew : List Assignment} {first : Pending}
    {rest : List Pending} {scene middle last : Scene} (apart : terms.Apart (assignment :: crew))
    (index : first.index = assignment.index) (held : terms.Held assignment first.work middle)
    (early : terms.Moved [assignment] scene middle) (holds : terms.Crew last crew rest)
    (late : terms.Moved crew middle last) :
    terms.Crew last (assignment :: crew) (first :: rest) ∧
      terms.Moved (assignment :: crew) scene last := by
  have tolerates := (List.pairwise_cons.1 apart).1
  refine ⟨.cons ⟨index, held.moved (fun other member => (tolerates other member).1) late⟩ holds, ?_⟩
  exact (early.widen (by simp)).trans (late.widen fun _ => List.mem_cons_of_mem _)

theorem crew_advanceEach {halted : Bool} {crew : List Assignment} {pending : List Pending}
    {world : World} (apart : terms.Apart crew) (holds : terms.Crew ⟨halted, world⟩ crew pending) :
    terms.Crew ⟨halted, ((advanceEach halted pending).run world).2⟩ crew
        ((advanceEach halted pending).run world).1 ∧
      terms.Moved crew ⟨halted, world⟩ ⟨halted, ((advanceEach halted pending).run world).2⟩ := by
  induction pending generalizing crew world with
  | nil =>
    cases holds
    exact ⟨.nil, .refl⟩
  | cons first rest ih =>
    cases holds with
    | @cons assignment _ crew _ here later =>
      obtain ⟨held, early⟩ := here.2.advance
      obtain ⟨holds, late⟩ := ih (List.pairwise_cons.1 apart).2 (Crew.beside later apart early)
      simp only [advanceEach, Task.run_bind, Task.run_pure]
      exact crew_cons apart here.1 held early holds late

theorem crew_advanceAt {halted : Bool} {position : Nat} {crew : List Assignment}
    {pending : List Pending} {world : World} (apart : terms.Apart crew)
    (holds : terms.Crew ⟨halted, world⟩ crew pending) :
    terms.Crew ⟨halted, ((advanceAt halted position pending).run world).2⟩ crew
        ((advanceAt halted position pending).run world).1 ∧
      terms.Moved crew ⟨halted, world⟩
        ⟨halted, ((advanceAt halted position pending).run world).2⟩ := by
  induction pending generalizing crew world position with
  | nil =>
    cases holds
    cases position <;> exact ⟨.nil, .refl⟩
  | cons first rest ih =>
    cases holds with
    | @cons assignment _ crew _ here later =>
      cases position with
      | zero =>
        obtain ⟨held, early⟩ := here.2.advance
        simp only [advanceAt, Task.run_bind, Task.run_pure]
        exact crew_cons apart here.1 held early (Crew.beside later apart early) .refl
      | succ position =>
        obtain ⟨holds, late⟩ := @ih position crew world (List.pairwise_cons.1 apart).2 later
        simp only [advanceAt, Task.run_bind, Task.run_pure]
        exact crew_cons apart here.1 here.2 .refl holds late

/-- A row completes its work while the others take turns with it. -/
theorem crew_completeBeside {halted : Bool} {assignment : Assignment} {crew : List Assignment}
    {work : Task (Except Failure Staged)} {others : List Pending} {world : World}
    (apart : terms.Apart (assignment :: crew)) (held : terms.Held assignment work ⟨halted, world⟩)
    (holds : terms.Crew ⟨halted, world⟩ crew others) :
    terms.goal assignment ((completeBeside halted work others).run world).1.1
        ⟨halted, ((completeBeside halted work others).run world).2⟩ ∧
      terms.Crew ⟨halted, ((completeBeside halted work others).run world).2⟩ crew
        ((completeBeside halted work others).run world).1.2 ∧
      terms.Moved (assignment :: crew) ⟨halted, world⟩
        ⟨halted, ((completeBeside halted work others).run world).2⟩ := by
  induction work generalizing others world with
  | done result => exact ⟨held.reached, holds, .refl⟩
  | ask operation next ih =>
    obtain ⟨tolerates, apartRest⟩ := List.pairwise_cons.1 apart
    obtain ⟨step, after⟩ := held.asked
    have early : terms.Moved [assignment] ⟨halted, world⟩
        ⟨halted, (world.perform operation).2⟩ := .single List.mem_cons_self step
    have later := holds.beside apart early
    rw [completeBeside, Task.run]
    by_cases last : (next (Task.heard halted operation (world.perform operation).1)).isDone = true
    · rw [if_pos last]
      obtain ⟨reached, holds, late⟩ := ih _ after later
      exact ⟨reached, holds, (early.widen (by simp)).trans late⟩
    · rw [if_neg last, Task.run_bind]
      obtain ⟨holds, between⟩ := crew_advanceEach apartRest later
      have after := after.moved (fun other member => (tolerates other member).1) between
      obtain ⟨reached, holds, late⟩ := ih _ after holds
      refine ⟨reached, holds, (early.widen (by simp)).trans ?_⟩
      exact (between.widen fun _ => List.mem_cons_of_mem _).trans late

/-- The first row of a crew completes its work while some of the others take turns with it. -/
theorem crew_completeFirst {halted : Bool} {assignment : Assignment} {crew : List Assignment}
    {work : Task (Except Failure Staged)} {rest : List Pending} {world : World} (others : Nat)
    (apart : terms.Apart (assignment :: crew)) (held : terms.Held assignment work ⟨halted, world⟩)
    (holds : terms.Crew ⟨halted, world⟩ crew rest) :
    terms.goal assignment ((completeBeside halted work (rest.take others)).run world).1.1
        ⟨halted, ((completeBeside halted work (rest.take others)).run world).2⟩ ∧
      terms.Crew ⟨halted, ((completeBeside halted work (rest.take others)).run world).2⟩ crew
        (((completeBeside halted work (rest.take others)).run world).1.2 ++ rest.drop others) ∧
      terms.Moved (assignment :: crew) ⟨halted, world⟩
        ⟨halted, ((completeBeside halted work (rest.take others)).run world).2⟩ := by
  have split : assignment :: crew = (assignment :: crew.take others) ++ crew.drop others := by
    rw [List.cons_append, List.take_append_drop]
  rw [split] at apart
  obtain ⟨apartNear, _, between⟩ := List.pairwise_append.1 apart
  obtain ⟨reached, near, moved⟩ :=
    crew_completeBeside apartNear held (List.forall₂_take others holds)
  have far : terms.Crew _ (crew.drop others) (rest.drop others) :=
    Crew.moved (List.forall₂_drop others holds)
      (fun left later right first => (between right first left later).2) moved
  refine ⟨reached, ?_, moved.widen fun other member => ?_⟩
  · have whole := near.append far
    rwa [List.take_append_drop] at whole
  · rw [split]
    exact List.mem_append_left _ member

end Terms

end MailMerge.Run
