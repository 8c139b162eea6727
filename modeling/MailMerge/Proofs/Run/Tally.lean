import MailMerge.Proofs.Run.Settling

/-!
# Counting the rows of a run

Whatever rows do and whatever fails, a run only goes on: outcomes are added behind those that are
there, and for each of them a row is no longer pending (`Progress.Onward`).  So there are never more
outcomes than rows, and as soon as the rows generated and the rows pending together are fewer than
the rows of the run, not all of them will be generated (`Spoilt.onward`).
-/

namespace MailMerge.Run

set_option autoImplicit false

/-! ## Rows in the making -/

theorem length_advanceEach (halted : Bool) (pending : List Pending) (world : World) :
    ((advanceEach halted pending).run world).1.length = pending.length := by
  induction pending generalizing world with
  | nil => rfl
  | cons first rest ih => simp [advanceEach, Task.run_bind, ih]

theorem length_advanceAt (halted : Bool) (position : Nat) (pending : List Pending) (world : World) :
    ((advanceAt halted position pending).run world).1.length = pending.length := by
  induction pending generalizing position world with
  | nil => cases position <;> rfl
  | cons first rest ih => cases position <;> simp [advanceAt, Task.run_bind, ih]

theorem length_completeBeside (halted : Bool) (work : Task (Except Failure Staged))
    (others : List Pending) (world : World) :
    ((completeBeside halted work others).run world).1.2.length = others.length := by
  induction work generalizing others world with
  | done result => rfl
  | ask operation next ih =>
    rw [completeBeside, Task.run]
    split
    · exact ih _ others _
    · rw [Task.run_bind, ih, length_advanceEach]

/-! ## Outcomes -/

/-- A run has gone on from one progress to another. -/
def Progress.Onward (early later : Progress) : Prop :=
  ∃ more, later.outcomes = early.outcomes ++ more ∧
    more.length + later.pending.length ≤ early.pending.length

theorem Progress.Onward.refl (progress : Progress) : progress.Onward progress :=
  ⟨[], by simp, by simp⟩

theorem Progress.Onward.trans {early middle later : Progress} (first : early.Onward middle)
    (second : middle.Onward later) : early.Onward later := by
  obtain ⟨more, outcomes, count⟩ := first
  obtain ⟨more', outcomes', count'⟩ := second
  refine ⟨more ++ more', by rw [outcomes', outcomes, List.append_assoc], ?_⟩
  rw [List.length_append]
  omega

theorem pending_recorded (policy : ErrorPolicy) (progress : Progress) (index : Nat)
    (result : Except Failure Path) :
    (progress.recorded policy index result).pending = progress.pending := rfl

/-- A failure is recorded as an outcome, or not at all. -/
theorem run_record_error (policy : ErrorPolicy) (progress : Progress) (index : Nat)
    (failure : Failure) (world : World) :
    ((progress.record policy index (.error failure)).run world).1 =
      progress.recorded policy index (.error failure) ∨
    ((progress.record policy index (.error failure)).run world).1 =
      { progress with halted := true, interrupted := true } := by
  by_cases cancelled : failure = .cancelled
  · subst cancelled
    exact .inr rfl
  · rw [record_error policy progress index cancelled]
    exact .inl (run_recordFailed policy progress index failure world).1

/-- A result is recorded as one outcome, or not at all. -/
theorem run_record (policy : ErrorPolicy) (progress : Progress) (index : Nat)
    (result : Except Failure Staged) (world : World) :
    (∃ outcome, ((progress.record policy index result).run world).1 =
      progress.recorded policy index outcome) ∨
    ((progress.record policy index result).run world).1 =
      { progress with halted := true, interrupted := true } := by
  cases result with
  | ok staged => exact .inl ⟨_, (run_record_ok policy progress index staged world).1⟩
  | error failure =>
    exact (run_record_error policy progress index failure world).imp_left fun same => ⟨_, same⟩

/-- When a row is settled, one row fewer is pending, and at most one outcome is added. -/
theorem outcomes_settle (policy : ErrorPolicy) (others : Nat) (progress : Progress)
    (world : World) :
    ∃ more,
      ((progress.settle policy others).run world).1.outcomes = progress.outcomes ++ more ∧
        more.length ≤ 1 ∧ more.length ≤ progress.pending.length ∧
          ((progress.settle policy others).run world).1.pending.length =
            progress.pending.length - 1 := by
  cases same : progress.pending with
  | nil =>
    refine ⟨[], ?_⟩
    rw [Progress.settle, same]
    simp [same]
  | cons first rest =>
    have count := length_completeBeside progress.halted first.work (rest.take others) world
    simp only [Progress.settle, same, Task.run_bind]
    generalize (completeBeside progress.halted first.work (rest.take others)).run world = completed
      at count
    obtain ⟨⟨result, making⟩, later⟩ := completed
    have fewer : (making ++ rest.drop others).length = rest.length := by
      change making.length = _ at count
      rw [List.length_append, count, List.length_take, List.length_drop]
      omega
    by_cases halted : progress.halted = true
    · rw [if_pos halted, Task.run_bind, Task.run_pure]
      exact ⟨[], by simp [fewer]⟩
    · rw [if_neg halted]
      rcases run_record policy { progress with pending := making ++ rest.drop others }
        first.index result later with ⟨outcome, recorded⟩ | recorded
      · rw [recorded]
        exact ⟨[⟨first.index, outcome⟩], rfl, Nat.le_refl 1, by simp, fewer⟩
      · rw [recorded]
        exact ⟨[], by simp [fewer]⟩

theorem length_pending_settle (policy : ErrorPolicy) (others : Nat) (progress : Progress)
    (world : World) :
    ((progress.settle policy others).run world).1.pending.length = progress.pending.length - 1 := by
  obtain ⟨_, _, _, _, fewer⟩ := outcomes_settle policy others progress world
  exact fewer

theorem Progress.onward_settle (policy : ErrorPolicy) (others : Nat) (progress : Progress)
    (world : World) : progress.Onward ((progress.settle policy others).run world).1 := by
  obtain ⟨more, outcomes, one, few, fewer⟩ := outcomes_settle policy others progress world
  refine ⟨more, outcomes, ?_⟩
  omega

theorem Progress.onward_advance (position : Nat) (progress : Progress) (world : World) :
    progress.Onward { progress with
      pending := ((advanceAt progress.halted position progress.pending).run world).1 } := by
  refine ⟨[], (List.append_nil _).symm, ?_⟩
  simp [length_advanceAt]

theorem Progress.onward_move (policy : ErrorPolicy) (width : Nat) (progress : Progress)
    (move : Move) (world : World) :
    progress.Onward ((progress.move policy width move).run world).1 := by
  cases move with
  | advance position =>
    rw [Progress.move]
    by_cases inside : position < width
    · rw [if_pos inside, Task.run_bind, Task.run_pure]
      exact progress.onward_advance position world
    · rw [if_neg inside]
      exact .refl progress
  | settle => exact progress.onward_settle policy 0 world
  | interrupt => exact .refl progress

theorem Progress.onward_follow (policy : ErrorPolicy) (width : Nat) (schedule : Schedule)
    (progress : Progress) (world : World) :
    progress.Onward ((progress.follow policy width schedule).run world).1 := by
  induction schedule generalizing progress world with
  | nil => exact .refl progress
  | cons move schedule ih =>
    rw [follow, Task.run_bind]
    exact (progress.onward_move policy width move world).trans (ih _ _)

/-! ## Rows that are generated -/

/-- So many rows will not be generated any more. -/
def Progress.Spoilt (count : Nat) (progress : Progress) : Prop :=
  progress.report.generatedCount + progress.pending.length < count

theorem Progress.Spoilt.onward {count : Nat} {early later : Progress} (spoilt : early.Spoilt count)
    (onward : early.Onward later) : later.Spoilt count := by
  obtain ⟨more, outcomes, fewer⟩ := onward
  have generated : later.report.generatedCount ≤ early.report.generatedCount + more.length := by
    simp only [Report.generatedCount, report, outcomes, List.countP_append]
    exact Nat.add_le_add_left (List.countP_le_length ..) _
  unfold Spoilt at spoilt ⊢
  omega

/-- A failure does not add to the rows that are generated. -/
theorem Progress.Spoilt.recorded_error {count : Nat} {progress : Progress}
    (spoilt : progress.Spoilt count) (policy : ErrorPolicy) (index : Nat) (failure : Failure) :
    (progress.recorded policy index (.error failure)).Spoilt count := by
  have same : (progress.recorded policy index (.error failure)).report.generatedCount =
      progress.report.generatedCount := by
    simp [Report.generatedCount, report, recorded, List.countP_append, Outcome.path?]
  unfold Spoilt
  rw [same, pending_recorded]
  exact spoilt

end MailMerge.Run
