import MailMerge.Proofs.Run.Answers
import MailMerge.Proofs.Run.Processing

/-!
# What a report gives account of

At any time of a run its rows are those that are settled, those that were left out and those that
are not settled yet, in this order (`Run.Accounts`).  The settled ones have the outcomes, one each,
and each outcome is bound by the plan of its row (`Run.Tells`).  Rows are left out only behind an
outcome that stops the run, or from a row on that has found the run cancelled (`Run.Leaves`).

No move of a run changes anything about that, whatever happens to the files.  So the same is true of
the report at the end (`Run.accounts_process`).
-/

namespace MailMerge.Run

set_option autoImplicit false

/-! ## Rows and outcomes -/

/-- An outcome is that of a row, and it is bound by what was planned for the row. -/
def Tells (assignment : Assignment) (outcome : Outcome) : Prop :=
  outcome.index = assignment.index ∧ Fulfils assignment.destination outcome.result

/-- Which rows may have been left out of a run after some outcomes. -/
inductive Leaves (policy : ErrorPolicy) :
    (halted interrupted : Bool) → List Assignment → List Outcome → Prop where
  | nothing {outcomes : List Outcome} :
      (policy = .abort → ∀ outcome ∈ outcomes, ∃ path, outcome.result = .ok path) →
      Leaves policy false false [] outcomes
  | interrupted {first : Assignment} {skipped : List Assignment} {outcomes : List Outcome} :
      (policy = .abort → ∀ outcome ∈ outcomes, ∃ path, outcome.result = .ok path) →
      Leaves policy true true (first :: skipped) outcomes
  | stopped {skipped : List Assignment} {outcomes : List Outcome} :
      policy = .abort → Site.StopsAtFailure outcomes → Leaves policy true false skipped outcomes

/-- The rows of a run that has come some way: what has become of the first of them, and that the
last ones will answer as planned. -/
structure Accounts (policy : ErrorPolicy) (items rest : List Assignment) (progress : Progress)
    (world : World) : Prop where
  crew : answering.Crew ⟨progress.halted, world⟩ rest progress.pending
  settled : ∃ done skipped, items = done ++ skipped ++ rest ∧
    List.Forall₂ Tells done progress.outcomes ∧
    Leaves policy progress.halted progress.interrupted skipped progress.outcomes

variable {policy : ErrorPolicy} {items rest : List Assignment} {progress : Progress} {world : World}

/-! ## One row is settled -/

/-- A run that goes on records one more outcome, and stops if that is a failure it must not pass. -/
theorem Leaves.recorded {outcomes : List Outcome} {skipped : List Assignment} {interrupted : Bool}
    (leaves : Leaves policy false interrupted skipped outcomes) (index : Nat)
    (result : Except Failure Path) : skipped = [] ∧
      Leaves policy (stops policy result) interrupted [] (outcomes ++ [⟨index, result⟩]) := by
  cases leaves with
  | nothing successes =>
    refine ⟨rfl, ?_⟩
    cases policy with
    | «continue» => exact .nothing nofun
    | abort =>
      cases result with
      | ok path =>
        refine .nothing fun _ outcome member => ?_
        rcases List.mem_append.1 member with early | late
        · exact successes rfl outcome early
        · obtain rfl := List.mem_singleton.1 late
          exact ⟨path, rfl⟩
      | error failure => exact .stopped rfl ⟨outcomes, _, failure, rfl, rfl, successes rfl⟩

/-- A row that has found the run cancelled is left out. -/
theorem Leaves.interrupt {outcomes : List Outcome} {skipped : List Assignment} {interrupted : Bool}
    (leaves : Leaves policy false interrupted skipped outcomes) (assignment : Assignment) :
    skipped = [] ∧ Leaves policy true true [assignment] outcomes := by
  cases leaves with
  | nothing successes => exact ⟨rfl, .interrupted successes⟩

/-- In a run that has been halted one more row is left out. -/
theorem Leaves.snoc {outcomes : List Outcome} {skipped : List Assignment} {interrupted : Bool}
    (leaves : Leaves policy true interrupted skipped outcomes) (assignment : Assignment) :
    Leaves policy true interrupted (skipped ++ [assignment]) outcomes := by
  cases leaves with
  | interrupted successes => exact .interrupted successes
  | stopped abort stops => exact .stopped abort stops

theorem Accounts.length_pending (accounts : Accounts policy items rest progress world) :
    progress.pending.length = rest.length :=
  accounts.crew.length_eq.symm

/-- Rows that have moved answer as before. -/
theorem crew_anywhere {scene next : Scene} {crew : List Assignment} {pending : List Pending}
    (holds : answering.Crew scene crew pending) : answering.Crew next crew pending :=
  holds.relied fun _ _ => trivial

theorem Accounts.settle (accounts : Accounts policy items rest progress world) (others : Nat) :
    Accounts policy items rest.tail ((progress.settle policy others).run world).1
      ((progress.settle policy others).run world).2 := by
  cases rest with
  | nil =>
    rw [run_settle_nil (List.length_eq_zero_iff.1 accounts.length_pending)]
    exact accounts
  | cons assignment rest =>
    obtain ⟨result, making, later, answers, crew, _, settled⟩ :=
      Terms.exists_settle policy others (apart_answering _) accounts.crew
    obtain ⟨done, skipped, split, told, leaves⟩ := accounts.settled
    rw [settled, List.tail_cons]
    by_cases halted : progress.halted = true
    · rw [if_pos halted]
      rw [halted] at leaves
      refine ⟨crew_anywhere crew, done, skipped ++ [assignment], by simp [split], told, ?_⟩
      change Leaves policy progress.halted _ _ _
      rw [halted]
      exact leaves.snoc assignment
    · rw [Bool.eq_false_iff.2 halted] at leaves
      rw [if_neg halted]
      rcases run_record_of_answers policy { progress with pending := making } assignment.index
        answers later with ⟨outcome, fulfils, recorded⟩ | recorded
      · obtain ⟨rfl, leaves'⟩ := leaves.recorded assignment.index outcome
        rw [recorded]
        refine ⟨crew_anywhere crew, done ++ [assignment], [], by simp [split], ?_, ?_⟩
        · exact List.rel_append told (.cons ⟨rfl, fulfils⟩ .nil)
        · change Leaves policy (progress.halted || _) _ _ _
          rw [Bool.eq_false_iff.2 halted, Bool.false_or]
          exact leaves'
      · obtain ⟨rfl, leaves'⟩ := leaves.interrupt assignment
        rw [recorded]
        exact ⟨crew_anywhere crew, done, [assignment], by simp [split], told, leaves'⟩

/-! ## A whole run -/

theorem lasting_accounts (schedule : Schedule) (width : Nat) :
    Lasting schedule policy width fun progress world =>
      ∃ rest, Accounts policy items rest progress world where
  settle _ := by
    rintro ⟨rest, accounts⟩
    exact ⟨rest.tail, accounts.settle _⟩
  advance _ := by
    rintro ⟨rest, accounts⟩
    exact ⟨rest, (Terms.crew_advanceAt (apart_answering rest) accounts.crew).1, accounts.settled⟩
  interrupt _ := by
    rintro ⟨rest, accounts⟩
    exact ⟨rest, crew_anywhere accounts.crew, accounts.settled⟩

theorem accounts_start (request : Request) (world : World) :
    Accounts request.errorPolicy request.assigned request.assigned (.start request) world where
  crew := Terms.crew_start fun assignment _ => held_answering request.template assignment _
  settled := ⟨[], [], rfl, .nil, .nothing fun _ _ member => absurd member List.not_mem_nil⟩

/-- What the report of a run gives account of. -/
theorem accounts_generate (schedule : Schedule) (request : Request) (world : World) :
    ∃ done skipped halted, request.assigned = done ++ skipped ∧
      List.Forall₂ Tells done ((generate schedule request).run world).1.outcomes ∧
      Leaves request.errorPolicy halted ((generate schedule request).run world).1.cancelled skipped
        ((generate schedule request).run world).1.outcomes := by
  obtain ⟨progress, ⟨rest, accounts⟩, none, same⟩ :=
    (lasting_accounts schedule request.width).generate ⟨_, accounts_start request world⟩
  obtain rfl : rest = [] := by
    rw [← List.length_eq_zero_iff, ← accounts.length_pending, none, List.length_nil]
  obtain ⟨done, skipped, split, told, leaves⟩ := accounts.settled
  rw [same]
  exact ⟨done, skipped, _, split.trans (List.append_nil _), told, leaves⟩

/-- A report is about the first rows of its request, and it tells why it is not about the others. -/
theorem accounts_process {schedule : Schedule} {request : Request} {world : World} {report : Report}
    (ok : ((process schedule request).run world).1 = .ok report) :
    ∃ done skipped halted, request.assigned = done ++ skipped ∧
      List.Forall₂ Tells done report.outcomes ∧
      Leaves request.errorPolicy halted report.cancelled skipped report.outcomes := by
  obtain ⟨early, _, same⟩ := exists_begins_of_process ok
  rw [← same]
  exact accounts_generate schedule request early

end MailMerge.Run
