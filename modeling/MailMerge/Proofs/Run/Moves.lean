import MailMerge.Proofs.Run.Tally

/-!
# What lasts to the end of a run

A run goes on in three ways: one of the rows in the making performs an operation, the first row is
settled, or the run is cancelled.  A condition that all of them keep (`Lasting`) is kept by every move
of a schedule and by each row that is settled afterwards.  So it is true at the end, when no row is
left (`Lasting.generate`).
-/

namespace MailMerge.Run

set_option autoImplicit false

/-! ## The beginning -/

theorem pending_start (request : Request) :
    (Progress.start request).pending =
      request.assigned.map (Assignment.pending request.template) :=
  pendingFrom_eq ..

/-- Rows of which nothing has been done yet are a crew if each of them is on its way to its goal. -/
theorem Terms.crew_start {terms : Terms} {request : Request} {scene : Scene}
    (held : ∀ assignment ∈ request.assigned,
      terms.Held assignment (assignment.pending request.template).work scene) :
    terms.Crew scene request.assigned (Progress.start request).pending := by
  rw [pending_start]
  exact List.forall₂_map_right_iff.2
    (List.forall₂_same.2 fun assignment member => ⟨rfl, held assignment member⟩)

/-! ## The first row -/

/-- When no row is left there is nothing to settle. -/
theorem run_settle_nil {progress : Progress} (none : progress.pending = []) (policy : ErrorPolicy)
    (others : Nat) (world : World) :
    (progress.settle policy others).run world = (progress, world) := by
  rw [Progress.settle, none]
  rfl

/-- The first row of a crew achieves its goal, whoever takes turns with it, and then its result is
thrown away or recorded. -/
theorem Terms.exists_settle {terms : Terms} {assignment : Assignment} {rest : List Assignment}
    {progress : Progress} {world : World} (policy : ErrorPolicy) (others : Nat)
    (apart : terms.Apart (assignment :: rest))
    (crew : terms.Crew ⟨progress.halted, world⟩ (assignment :: rest) progress.pending) :
    ∃ result making later, terms.goal assignment result ⟨progress.halted, later⟩ ∧
      terms.Crew ⟨progress.halted, later⟩ rest making ∧
      terms.Moved (assignment :: rest) ⟨progress.halted, world⟩ ⟨progress.halted, later⟩ ∧
      (progress.settle policy others).run world =
        if progress.halted then
          ({ progress with pending := making }, ((discardResult result).run later).2)
        else ({ progress with pending := making }.record policy assignment.index result).run
          later := by
  obtain ⟨first, tail, same⟩ := List.exists_cons_of_length_eq_add_one crew.length_eq.symm
  rw [same] at crew
  cases crew with
  | cons here behind =>
    have completed := crew_completeFirst others apart here.2 behind
    rcases ran : (completeBeside progress.halted first.work (tail.take others)).run world with
      ⟨⟨result, making⟩, later⟩
    rw [ran] at completed
    obtain ⟨goal, crew, moved⟩ := completed
    refine ⟨result, making ++ tail.drop others, later, goal, crew, moved, ?_⟩
    simp only [Progress.settle, same, Task.run_bind, ran]
    split
    · rw [Task.run_bind, Task.run_pure]
    · rw [here.1]

/-! ## Conditions that last -/

/-- A condition on how far a run has come that is kept whatever the run does next. -/
structure Lasting (schedule : Schedule) (policy : ErrorPolicy) (width : Nat)
    (holds : Progress → World → Prop) : Prop where
  settle {progress : Progress} {world : World} {others : Nat} : others < width →
    holds progress world →
      holds ((progress.settle policy others).run world).1
        ((progress.settle policy others).run world).2
  advance {progress : Progress} {world : World} {position : Nat} : position < width →
    holds progress world →
      holds { progress with
          pending := ((advanceAt progress.halted position progress.pending).run world).1 }
        ((advanceAt progress.halted position progress.pending).run world).2
  interrupt {progress : Progress} {world : World} : .interrupt ∈ schedule →
    holds progress world → holds progress { world with cancelled := true }

namespace Lasting

variable {schedule : Schedule} {policy : ErrorPolicy} {width : Nat}
  {holds : Progress → World → Prop} {progress : Progress} {world : World}

theorem move (lasting : Lasting schedule policy width holds) (positive : 0 < width)
    (now : holds progress world) {move : Move} (member : move ∈ schedule) :
    holds ((progress.move policy width move).run world).1
      ((progress.move policy width move).run world).2 := by
  cases move with
  | advance position =>
    rw [Progress.move]
    by_cases inside : position < width
    · rw [if_pos inside, Task.run_bind, Task.run_pure]
      exact lasting.advance inside now
    · rw [if_neg inside]
      exact now
  | settle => exact lasting.settle positive now
  | interrupt => exact lasting.interrupt member now

theorem follow (lasting : Lasting schedule policy width holds) (positive : 0 < width)
    (now : holds progress world) {moves : Schedule} (among : moves ⊆ schedule) :
    holds ((progress.follow policy width moves).run world).1
      ((progress.follow policy width moves).run world).2 := by
  induction moves generalizing progress world with
  | nil => exact now
  | cons move moves ih =>
    obtain ⟨member, among⟩ := List.cons_subset.1 among
    rw [Progress.follow, Task.run_bind]
    exact ih (lasting.move positive now member) among

/-- So many rows are settled as are asked for, if there are so many. -/
theorem settleMany (lasting : Lasting schedule policy width holds) (positive : 0 < width)
    (now : holds progress world) (count : Nat) :
    holds ((progress.settleMany policy width count).run world).1
        ((progress.settleMany policy width count).run world).2 ∧
      ((progress.settleMany policy width count).run world).1.pending.length =
        progress.pending.length - count := by
  induction count generalizing progress world with
  | zero => exact ⟨now, rfl⟩
  | succ count ih =>
    rw [Progress.settleMany, Task.run_bind]
    obtain ⟨last, left⟩ := ih (lasting.settle (Nat.sub_lt positive Nat.one_pos) now)
    refine ⟨last, ?_⟩
    rw [left, length_pending_settle, Nat.sub_sub, Nat.add_comm]

/-- What is true at the beginning and lasts is true at the end, when no row is left. -/
theorem generate {request : Request}
    (lasting : Lasting schedule request.errorPolicy request.width holds)
    (start : holds (.start request) world) :
    ∃ progress, holds progress ((generate schedule request).run world).2 ∧
      progress.pending = [] ∧
      ((generate schedule request).run world).1 = progress.report := by
  have followed := lasting.follow request.width_pos start (List.Subset.refl schedule)
  rw [Run.generate, Task.run_bind, Task.run_bind, Task.run_pure, Progress.settleAll]
  obtain ⟨last, left⟩ := lasting.settleMany request.width_pos followed _
  refine ⟨_, last, List.length_eq_zero_iff.1 ?_, rfl⟩
  rw [left, Nat.sub_self]

end Lasting

end MailMerge.Run
