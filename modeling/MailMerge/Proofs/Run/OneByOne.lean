import MailMerge.Proofs.Run.Collisions

/-!
# Runs in which one row follows another

Rows are run one at a time when that is asked for, and also when a destination repeats
(`Request.width_of_shared`).  A run of at most one row is like that in any case, however many rows
might be in the making (`run_generate_single`).  Either way, a run that has generated all its rows is
complete (`complete_process_alone`).
-/

namespace MailMerge

open Run (Assignment Pending Progress Move Schedule)

set_option autoImplicit false

/-! ## A single row -/

namespace Run

variable {progress : Progress}

/-- A row has no company when it is the only one. -/
theorem run_settle_single (policy : ErrorPolicy) (others : Nat) (world : World)
    (single : progress.pending.length ≤ 1) :
    (progress.settle policy others).run world = (progress.settle policy 0).run world := by
  obtain ⟨pending, outcomes, halted, interrupted⟩ := progress
  match pending with
  | [] => rfl
  | [first] => simp only [Progress.settle, List.take_nil, List.drop_nil]

theorem run_move_single (policy : ErrorPolicy) (width : Nat) (move : Move) (world : World)
    (single : progress.pending.length ≤ 1) :
    (progress.move policy (width + 1) move).run world =
      (progress.move policy 1 move).run world := by
  cases move with
  | settle => rfl
  | interrupt => rfl
  | advance position =>
    cases position with
    | zero => simp [Progress.move]
    | succ position =>
      -- there is no row at the position
      have idle : (advanceAt progress.halted (position + 1) progress.pending).run world =
          (progress.pending, world) := by
        generalize progress.pending = pending at single
        rcases pending with _ | ⟨first, _ | ⟨second, rest⟩⟩
        · rfl
        · cases position <;> rfl
        · simp at single
      simp only [Progress.move]
      rw [if_neg (by omega : ¬ position + 1 < 1)]
      split
      · rw [Task.run_bind, idle, Task.run_pure]
      · rfl

theorem length_pending_move (policy : ErrorPolicy) (width : Nat) (move : Move) (world : World)
    (single : progress.pending.length ≤ 1) :
    ((progress.move policy width move).run world).1.pending.length ≤ 1 := by
  obtain ⟨more, _, fewer⟩ := progress.onward_move policy width move world
  omega

theorem run_follow_single (policy : ErrorPolicy) (width : Nat) (schedule : Schedule)
    (world : World) (single : progress.pending.length ≤ 1) :
    (progress.follow policy (width + 1) schedule).run world =
      (progress.follow policy 1 schedule).run world := by
  induction schedule generalizing progress world with
  | nil => rfl
  | cons move schedule ih =>
    rw [Progress.follow, Progress.follow, Task.run_bind, Task.run_bind,
      run_move_single policy width move world single]
    exact ih _ (length_pending_move policy 1 move world single)

theorem run_settleMany_single (policy : ErrorPolicy) (width count : Nat) (world : World)
    (single : progress.pending.length ≤ 1) :
    (progress.settleMany policy (width + 1) count).run world =
      (progress.settleMany policy 1 count).run world := by
  induction count generalizing progress world with
  | zero => rfl
  | succ count ih =>
    rw [Progress.settleMany, Progress.settleMany, Task.run_bind, Task.run_bind,
      run_settle_single policy _ world single, run_settle_single policy (1 - 1) world single]
    refine ih _ ?_
    obtain ⟨more, _, fewer⟩ := progress.onward_settle policy 0 world
    omega

theorem length_pending_start (request : Request) :
    (Progress.start request).pending.length ≤ request.rows.length := by
  change (pendingFrom request.template 0 request.rows request.attended).length ≤ _
  rw [pendingFrom_eq, List.length_map, length_assignments]
  exact Nat.min_le_left ..

/-- A run of at most one row is the same however many rows may be in the making. -/
theorem run_generate_single {request : Request} (single : request.rows.length ≤ 1)
    (schedule : Schedule) (world : World) :
    (generate schedule request).run world = (generate schedule request.oneByOne).run world := by
  obtain ⟨width, wide⟩ : ∃ width, request.width = width + 1 :=
    ⟨request.width - 1, by have := request.width_pos; omega⟩
  have one : request.oneByOne.width = 1 := Request.width_of_concurrency_one rfl
  have start : Progress.start request.oneByOne = Progress.start request := by
    unfold Progress.start Request.attended
    rw [Request.destinations_oneByOne]
    rfl
  have few := Nat.le_trans (length_pending_start request) single
  have followed := run_follow_single request.errorPolicy width schedule world few
  obtain ⟨more, _, fewer⟩ :=
    (Progress.start request).onward_follow request.errorPolicy 1 schedule world
  rw [generate, generate, start, wide, one]
  simp only [Task.run_bind, followed, Progress.settleAll]
  rw [run_settleMany_single _ _ _ _ (by omega)]
  rfl

/-- A run of few rows, or of rows one at a time, that has generated them all is complete. -/
theorem complete_process_alone {request : Request} {world : World} {mark : Location}
    {schedule : Schedule} {report : Report}
    (alone : request.width = 1 ∨ request.rows.length ≤ 1)
    (located : world.tree.location? request.template = some mark)
    (ok : ((process schedule request).run world).1 = .ok report)
    (generated : report.generatedCount = request.rows.length) :
    ∃ files, (request.site world.tree mark).Complete request.planned files report
      ((process schedule request).run world).2 := by
  rcases alone with one | single
  · exact complete_process one located ok generated
  · refine complete_process_of (fun early tree enough => ?_) ok generated
    have laid := Request.laid_assigned located
    rw [← request.assigned_oneByOne] at laid enough ⊢
    rw [run_generate_single single] at enough ⊢
    exact @Site.complete_generate (request.site world.tree mark) early request.oneByOne laid rfl
      tree (Request.width_of_concurrency_one rfl) schedule enough

end Run

end MailMerge
