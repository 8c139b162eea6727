import MailMerge.Proofs.Run.Contents

/-!
# Runs that stop early

A run that is interrupted, or stops at a failure, has settled the first rows and nothing of the
others is left.  What it has done is what a run of the first rows alone does, one after another to
the end (`Run.process_firstRows`), for a course is determined by its rows.

One thing is left open.  Where the directory cannot be made and an attempt leaves a part of it
behind, the system's reason in a row's failure tells how far the row itself came, and rows that make
their attempts at the same time come less far than rows that find that part (`Request.HalfMade`,
`Run.process_halfMade`).
-/

namespace MailMerge

open Run (Assignment Schedule)

set_option autoImplicit false

namespace Request

/-! ## Directories that are made in part -/

/-- An attempt to make the directory of a request fails, but not without leaving something behind.
-/
def HalfMade (request : Request) (tree : FileTree) (path : Path) : Prop :=
  path = request.directory.trimmed ∧ (tree.createDirectories path).1.isDirectory path = false ∧
    ∃ location, FileTree.entry? (tree.createDirectories path).1 location ≠ tree.entry? location

/-- Outcomes of the same row, which may differ in the reason for which a directory cannot be made
that can be made in part. -/
def Agree (request : Request) (tree : FileTree) (left right : Outcome) : Prop :=
  left.index = right.index ∧ (left.result = right.result ∨ ∃ path one two,
    request.HalfMade tree path ∧ left.result = .error (.io path one) ∧
      right.result = .error (.io path two))

variable {request : Request} {tree : FileTree} {mark : Location}

theorem agree_of_alikeOutcomes {left right : Outcome}
    (alike : (request.site tree mark).AlikeOutcomes left right) :
    request.Agree tree left right := by
  obtain ⟨index, same | ⟨path, one, two, needed, first, second, missed, changed⟩⟩ := alike
  · exact ⟨index, .inl same⟩
  · refine ⟨index, .inr ⟨path, one, two, ⟨(Site.needed?_eq_some needed).1, ?_⟩, first, second⟩⟩
    rw [Site.ready_of_needed needed] at missed changed
    exact ⟨missed, changed⟩

/-- Where the directory is made as a whole or not at all, outcomes that agree are the same. -/
theorem eq_of_agree {left right : List Outcome} (whole : ∀ path, ¬ request.HalfMade tree path)
    (agree : List.Forall₂ (request.Agree tree) left right) : left = right := by
  induction agree with
  | nil => rfl
  | @cons first second _ _ here _ ih =>
    obtain ⟨index, same | ⟨path, _, _, half, _⟩⟩ := here
    · obtain ⟨_, _⟩ := first
      obtain ⟨_, _⟩ := second
      simp only at index same
      rw [ih, index, same]
    · exact absurd half (whole path)

/-! ## Requests for the first rows -/

/-- A request with the same template is refused for no other reason. -/
theorem refusal?_of_fewer {other : Request} (template : other.template = request.template)
    (fewer : request.rows.isEmpty = true → other.rows.isEmpty = true)
    (accepted : request.refusal? tree = none) : other.refusal? tree = none := by
  unfold refusal? at accepted ⊢
  rw [template]
  split at accepted
  case h_1 => simp at accepted
  case h_2 => split_ifs at accepted
  case h_3 =>
    by_cases none : other.rows.isEmpty = true
    · rw [if_pos none]
    · rw [if_neg fun empty => none (fewer empty)] at accepted
      rw [if_neg none, accepted]

theorem refusal?_firstRows (accepted : request.refusal? tree = none) (count : Nat) :
    (request.firstRows count).refusal? tree = none := by
  refine @refusal?_of_fewer request tree (request.firstRows count) rfl (fun none => ?_) accepted
  change (request.rows.take count).isEmpty = true
  rw [List.isEmpty_iff.1 none, List.take_nil]
  rfl

theorem freshTemporaries_firstRows (fresh : request.FreshTemporaries tree) (count : Nat) :
    (request.firstRows count).FreshTemporaries tree := by
  intro assignment member destination chosen location located
  rw [planned_firstRows] at member
  obtain ⟨vacant, apart⟩ :=
    fresh assignment (List.mem_of_mem_take member) destination chosen location located
  refine ⟨vacant, fun other member' => apart other ?_⟩
  rw [planned_firstRows] at member'
  exact List.mem_of_mem_take member'

end Request

/-! ## Stopped runs -/

/-- A run that has a report, wherever it has stopped, has done the same as a run of the rows that
the report is about, one after another to the end: the outcomes agree, there are the same files,
nothing has changed but where a generated path leads, and there are no temporary files. -/
theorem Run.process_firstRows {request : Request} {world calm : World} {schedule quiet : Schedule}
    {report : Report} (fresh : request.FreshTemporaries world.tree)
    (spares : request.SparesTemplate world.tree ∨ request.width = 1)
    (ran : ((process schedule request).run world).1 = .ok report)
    (same : calm.tree = world.tree) (silent : .interrupt ∉ quiet)
    (uncancelled : calm.cancelled = false) (patient : calm.patience = none) :
    ∃ first : Report, ((process quiet (request.firstRows report.outcomes.length)).run calm).1 =
        .ok first ∧ first.cancelled = false ∧
      report.outcomes.length ≤ request.rows.length ∧
      report.outcomes.map (·.index) = List.range report.outcomes.length ∧
      List.Forall₂ (request.Agree world.tree) report.outcomes first.outcomes ∧
      (∀ location, ((process schedule request).run world).2.tree.content? location =
        ((process quiet (request.firstRows report.outcomes.length)).run calm).2.tree.content?
          location) ∧
      (∀ location, (∀ path ∈ report.paths,
          ((process schedule request).run world).2.tree.target path ≠
            .ok (.place location false)) →
        ((process schedule request).run world).2.tree.content? location =
          world.tree.content? location) ∧
      ∀ assignment ∈ request.planned, ∀ destination, assignment.destination = .ok destination →
        ∀ location, world.tree.location? (Destination.temporary destination assignment.index) =
            some location →
          ((process schedule request).run world).2.tree.content? location = none := by
  have accepted := accepted_of_process ran
  obtain ⟨mark, grounded⟩ := Request.exists_grounded_of_accepted accepted
  have keeps : request.KeepsTemplate world.tree :=
    spares.elim Request.SparesTemplate.keepsTemplate fun one =>
      Request.keepsTemplate_of_width_one one world.tree
  obtain ⟨_, ok, ended⟩ := @ended_process request world mark False schedule accepted grounded fresh
    keeps (fun never => never.elim) fun never => never.elim
  obtain rfl := Except.ok.inj (ran.symm.trans ok)
  obtain ⟨done, skipped, split, course, _⟩ := ended.course
  obtain ⟨count, assigned⟩ := request.assigned_eq_take
  have planned : request.planned.take report.outcomes.length = done := by
    have first : done <+: request.planned :=
      (List.prefix_append done skipped).trans (split ▸ assigned ▸ List.take_prefix count _)
    rw [course.length_eq, ← List.prefix_iff_eq_take.1 first]
  have few : report.outcomes.length ≤ request.rows.length := by
    rw [course.length_eq, ← planned, List.length_take, Request.length_planned]
    exact Nat.min_le_right ..
  obtain ⟨first, ok', ended'⟩ := @ended_process (request.firstRows report.outcomes.length) calm mark
    True quiet (same ▸ Request.refusal?_firstRows accepted _) (same ▸ grounded)
    (same ▸ Request.freshTemporaries_firstRows fresh _)
    (Request.keepsTemplate_of_width_one (Request.width_of_concurrency_one rfl) _) (fun _ => silent)
    fun _ => ⟨uncancelled, patient⟩
  rw [Request.assigned_of_continue rfl, Request.planned_firstRows, planned, same] at ended'
  have course' := ended'.course_of_continue
  obtain ⟨alike, files⟩ := course.unique course'
  have fits : ∀ assignment ∈ request.assigned, (request.site world.tree mark).Fits assignment :=
    fun assignment member => Request.fits_of_fresh fresh (List.mem_of_mem_take (assigned ▸ member))
  refine ⟨first, ok', ended'.calm trivial, few, ?_,
    alike.imp fun _ _ => Request.agree_of_alikeOutcomes,
    fun location => congrFun files location, fun location => ended.content?_eq fits, ?_⟩
  · rw [course.indices, ← planned, List.map_take, Request.indices_planned, List.take_range,
      Nat.min_eq_left few]
  · intro assignment member destination chosen location located
    obtain ⟨vacant, apart⟩ := fresh assignment member destination chosen location located
    refine (course.eq_of_ne fun outcome recorded path ok landed => ?_).trans
      (FileTree.content?_eq_none.2 (.inl vacant))
    obtain ⟨other, inside, chosen'⟩ := course.exists_chosen recorded ok
    exact apart other (List.mem_of_mem_take (planned ▸ inside)) path chosen'
      (Site.location?_of_landing landed)

theorem Run.process_firstRows_couple : ∃ first : Report,
    ((process [] ((Request.couple (.named "a" "x") (.named "b" "y")).firstRows 1)).run .pattern).1 =
        .ok first ∧ first.cancelled = false ∧
      ∀ location, ((process [.advance 1, .settle, .interrupt]
          (.couple (.named "a" "x") (.named "b" "y"))).run .pattern).2.tree.content? location =
        ((process [] ((Request.couple (.named "a" "x") (.named "b" "y")).firstRows 1)).run
          .pattern).2.tree.content? location := by
  obtain ⟨first, ok, running, _, _, _, files, _⟩ :=
    @process_firstRows (.couple (.named "a" "x") (.named "b" "y")) .pattern .pattern
      [.advance 1, .settle, .interrupt] [] ⟨[⟨0, .ok ⟨utf8 "a"⟩⟩], true⟩ (by decide +kernel)
      (.inl (by decide +kernel)) (by decide +kernel) rfl (by simp) rfl rfl
  exact ⟨first, ok, running, files⟩

/-- The request to fill the pattern with two rows at the same time, in a directory on the way to
which there is a file. -/
def Request.obstructed : Request :=
  { Request.couple (.named "a" "x") (.named "b" "y") with outputDir := some ⟨utf8 "n/../f/x"⟩ }

/-- A world with a file on the way to that directory. -/
def World.obstructed : World :=
  { tree := ⟨[([utf8 "pattern"], .file (utf8 "{{A}}")), ([utf8 "f"], .file [])], []⟩ }

/-- The outcomes need not be the same: both rows find that nothing is there yet and fail when they
come to the file, but one after another the second row finds the directory before it. -/
theorem Run.process_halfMade :
    ¬ ∀ (request : Request) (world calm : World) (schedule quiet : Schedule) (report : Report),
      request.FreshTemporaries world.tree →
      request.SparesTemplate world.tree ∨ request.width = 1 →
      ((process schedule request).run world).1 = .ok report →
      calm.tree = world.tree → .interrupt ∉ quiet → calm.cancelled = false →
      calm.patience = none → ∃ first : Report,
        ((process quiet (request.firstRows report.outcomes.length)).run calm).1 = .ok first ∧
          report.outcomes = first.outcomes := by
  intro always
  have together : ((process [] .obstructed).run .obstructed).1 =
      .ok ⟨[⟨0, .error (.io ⟨utf8 "n/../f/x"⟩ .alreadyExists)⟩,
        ⟨1, .error (.io ⟨utf8 "n/../f/x"⟩ .alreadyExists)⟩], false⟩ := by decide +kernel
  have apart : ((process [] (Request.obstructed.firstRows 2)).run .obstructed).1 =
      .ok ⟨[⟨0, .error (.io ⟨utf8 "n/../f/x"⟩ .alreadyExists)⟩,
        ⟨1, .error (.io ⟨utf8 "n/../f/x"⟩ .notADirectory)⟩], false⟩ := by decide +kernel
  obtain ⟨first, ok, same⟩ := always .obstructed .obstructed .obstructed [] [] _ (by decide +kernel)
    (.inl (by decide +kernel)) together rfl (by simp) rfl rfl
  obtain rfl := Except.ok.inj (apart.symm.trans ok)
  exact absurd same (by decide)

end MailMerge
