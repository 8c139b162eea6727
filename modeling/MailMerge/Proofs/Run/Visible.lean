import MailMerge.Proofs.Run.Concurrency
import MailMerge.Proofs.Run.Drafts
import MailMerge.Proofs.Run.Moments
import MailMerge.Proofs.Run.Tally

/-!
# What is seen of a run while it goes on

At every moment of a run, between any two operations of whatever rows, there is nothing half done
under the name of a file (`Site.Shown`).  A place that belongs to no temporary file is as it was
before the run; or it holds the complete text that a row with this destination has made of a
template which was there at some moment before; or there is a directory, where there was nothing,
that an attempt to make the directory of the run would have made (`Run.process_after`).

So the program may be cut off at any time.  The directories it has made by then are the one thing
that stays of a run that has generated nothing (`Run.process_after_outside`).
-/

namespace MailMerge

open Run (Assignment Staged Pending Progress Move Schedule)

set_option autoImplicit false

namespace Run.Terms

variable {terms : Terms} {given kept : FileTree → Prop} {assignment : Assignment}
  {crew : List Assignment}

/-! ## Rows that take turns -/

/-- A condition on the files that no step of some rows breaks. -/
def Preserves (terms : Terms) (crew : List Assignment) (kept : FileTree → Prop) : Prop :=
  ∀ assignment ∈ crew, ∀ scene next, terms.step assignment scene next →
    kept scene.tree → kept next.tree

theorem Preserves.mono {more : List Assignment} (preserves : terms.Preserves more kept)
    (inside : ∀ assignment ∈ crew, assignment ∈ more) : terms.Preserves crew kept :=
  fun assignment member => preserves assignment (inside assignment member)

theorem Preserves.moved {scene next : Scene} (preserves : terms.Preserves crew kept)
    (moved : terms.Moved crew scene next) (start : kept scene.tree) : kept next.tree := by
  induction moved with
  | refl => exact start
  | tail _ step ih =>
    obtain ⟨assignment, member, step⟩ := step
    exact preserves assignment member _ _ step ih

theorem along_advance {halted : Bool} {work : Task (Except Failure Staged)} {world : World}
    (preserves : terms.Preserves [assignment] kept)
    (held : terms.Held assignment work ⟨halted, world⟩) (start : kept world.tree) :
    (work.advance halted).Along given kept (fun _ _ => True) world := by
  cases work with
  | done result => exact trivial
  | ask operation next =>
    exact fun _ => ⟨preserves assignment List.mem_cons_self _ _ held.asked.1 start, trivial⟩

theorem along_advanceEach {halted : Bool} {pending : List Pending} {world : World}
    (apart : terms.Apart crew) (preserves : terms.Preserves crew kept)
    (holds : terms.Crew ⟨halted, world⟩ crew pending) (start : kept world.tree)
    (met : given world.tree) :
    (advanceEach halted pending).Along given kept (fun _ _ => True) world := by
  induction pending generalizing crew world with
  | nil => exact trivial
  | cons first rest ih =>
    cases holds with
    | @cons assignment _ crew _ here later =>
      have one : terms.Preserves [assignment] kept := preserves.mono (by simp)
      have others : terms.Preserves crew kept :=
        preserves.mono fun _ => List.mem_cons_of_mem _
      obtain ⟨_, early⟩ := here.2.advance
      refine Task.Along.bind_run (along_advance one here.2 start) met fun met => ?_
      refine Task.Along.bind_run (ih (List.pairwise_cons.1 apart).2 others
        (Crew.beside later apart early) (one.moved early start) met) met fun _ => ?_
      exact trivial

theorem along_advanceAt {halted : Bool} {position : Nat} {pending : List Pending} {world : World}
    (apart : terms.Apart crew) (preserves : terms.Preserves crew kept)
    (holds : terms.Crew ⟨halted, world⟩ crew pending) (start : kept world.tree)
    (met : given world.tree) :
    (advanceAt halted position pending).Along given kept (fun _ _ => True) world := by
  induction pending generalizing crew position with
  | nil => cases position <;> exact trivial
  | cons first rest ih =>
    cases holds with
    | @cons assignment _ crew _ here later =>
      cases position with
      | zero =>
        refine Task.Along.bind_run ?_ met fun _ => trivial
        exact along_advance (preserves.mono (by simp)) here.2 start
      | succ position =>
        refine Task.Along.bind_run ?_ met fun _ => trivial
        exact ih (List.pairwise_cons.1 apart).2 (preserves.mono fun _ => List.mem_cons_of_mem _)
          later

theorem along_completeBeside {halted : Bool} {work : Task (Except Failure Staged)}
    {others : List Pending} {world : World} (apart : terms.Apart (assignment :: crew))
    (preserves : terms.Preserves (assignment :: crew) kept)
    (held : terms.Held assignment work ⟨halted, world⟩)
    (holds : terms.Crew ⟨halted, world⟩ crew others) (start : kept world.tree) :
    (completeBeside halted work others).Along given kept (fun _ _ => True) world := by
  induction work generalizing others world with
  | done result => exact trivial
  | ask operation next ih =>
    obtain ⟨tolerates, apartRest⟩ := List.pairwise_cons.1 apart
    obtain ⟨step, after⟩ := held.asked
    have early : terms.Moved [assignment] ⟨halted, world⟩ ⟨halted, (world.perform operation).2⟩ :=
      .single List.mem_cons_self step
    have later := holds.beside apart early
    have inner : terms.Preserves crew kept := preserves.mono fun _ => List.mem_cons_of_mem _
    have now : kept (world.perform operation).2.tree :=
      preserves assignment List.mem_cons_self _ _ step start
    intro met
    refine ⟨now, ?_⟩
    beta_reduce
    by_cases last : (next (Task.heard halted operation (world.perform operation).1)).isDone = true
    · rw [if_pos last]
      exact ih _ after later now
    · rw [if_neg last]
      obtain ⟨holds, between⟩ := crew_advanceEach apartRest later
      refine Task.Along.bind_run (along_advanceEach apartRest inner later now met) met
        fun _ => ?_
      exact ih _ (after.moved (fun other member => (tolerates other member).1) between) holds
        (inner.moved between now)

end Run.Terms

namespace Site

variable {site : Site} {seen : Bytes → Prop} {items rest : List Assignment}
  {assignment : Assignment} {destination : Path}

/-! ## What is shown -/

/-- Some octets are the complete text that a row with a destination at a location makes of a
template that has been seen. -/
def Rendered (site : Site) (seen : Bytes → Prop) (items : List Assignment) (location : Location)
    (octets : Bytes) : Prop :=
  ∃ assignment ∈ items, ∃ destination content, assignment.destination = .ok destination ∧
    site.before.location? destination = some location ∧ seen content ∧
    Template.render assignment.row content = .ok octets

/-- A tree in which every file that is no temporary one is as it was or complete. -/
structure Shown (site : Site) (seen : Bytes → Prop) (items : List Assignment) (tree : FileTree) :
    Prop where
  amid : site.Amid tree
  files : ∀ location, (∀ assignment ∈ items, site.spot? assignment ≠ some location) →
    tree.content? location = site.before.content? location ∨
      ∃ octets, tree.content? location = some octets ∧ site.Rendered seen items location octets

/-- What some row's operations leave as it is for the others. -/
structure Spares (site : Site) (items : List Assignment) (assignment : Assignment)
    (tree next : FileTree) : Prop where
  amid : site.Amid next
  base : next.base = tree.base
  directories : ∀ location, tree.HasDirectory location → next.HasDirectory location
  others : ∀ other ∈ items, other.index ≠ assignment.index → ∀ location,
    site.spot? other = some location → next.content? location = tree.content? location

theorem Spares.refl {tree : FileTree} (amid : site.Amid tree) :
    site.Spares items assignment tree tree :=
  ⟨amid, rfl, fun _ directory => directory, fun _ _ _ _ _ => rfl⟩

theorem Spares.keeps {tree middle next : FileTree} (fits : ∀ other ∈ items, site.Fits other)
    (member : assignment ∈ items) (spares : site.Spares items assignment tree middle)
    (keeps : site.Keeps assignment middle next) : site.Spares items assignment tree next := by
  refine ⟨keeps.amid, keeps.base.trans spares.base,
    fun location directory => keeps.directories location (spares.directories location directory),
    fun other inside apart location spot => ?_⟩
  rw [keeps.others location (spot?_ne (fits other inside).entry (fits assignment member).entry
    apart spot)]
  exact spares.others other inside apart location spot

theorem Shown.keeps {tree next : FileTree} (shown : site.Shown seen items tree)
    (member : assignment ∈ items) (keeps : site.Keeps assignment tree next) :
    site.Shown seen items next := by
  refine ⟨keeps.amid, fun location elsewhere => ?_⟩
  rw [keeps.others location (elsewhere assignment member)]
  exact shown.files location elsewhere

theorem preserves_shown {crew : List Assignment} (part : crew ⊆ items) :
    (site.drafting seen).Preserves crew (site.Shown seen items) :=
  fun _ member _ _ step shown => shown.keeps (part member)
    ⟨step.amid, step.base, step.directories, step.others⟩

/-! ## A file is moved -/

/-- A complete file is moved to its destination: nothing is changed at any other place but that of
the temporary file. -/
theorem shown_rename (fits : ∀ other ∈ items, site.Fits other)
    (clear : ∀ left ∈ items, ∀ location, site.spot? left = some location → ∀ right ∈ items,
      ∀ path, right.destination = .ok path → site.before.location? path ≠ some location)
    (member : assignment ∈ items) (chosen : assignment.destination = .ok destination)
    {scene : Scene} {next : FileTree} {content octets : Bytes}
    (shown : site.Shown seen items scene.tree) (known : seen content)
    (rendered : Template.render assignment.row content = .ok octets)
    (drafts : site.Drafts seen assignment octets scene)
    (renamed : scene.tree.rename (Destination.temporary destination assignment.index) destination =
      .ok next) :
    site.Shown seen items next ∧ site.Spares items assignment scene.tree next := by
  have own := fits assignment member
  have amid := shown.amid
  obtain ⟨_, reached, spot, located, file⟩ := drafts
  have there := find_of_spot own chosen amid reached located file
  obtain ⟨home, _, homed, carries⟩ := carries_rename own chosen amid there renamed
  refine ⟨⟨carries.amid, fun location elsewhere => ?_⟩, carries.amid, carries.base,
    carries.directories, fun other inside apart location spot' => ?_⟩
  · by_cases here : location = home
    · obtain rfl := here
      exact .inr ⟨octets, carries.file, assignment, member, destination, content, chosen, homed,
        known, rendered⟩
    · rw [carries.others location here (elsewhere assignment member)]
      exact shown.files location elsewhere
  · refine carries.others location ?_ (spot?_ne (fits other inside).entry own.entry apart spot')
    rintro rfl
    exact clear other inside _ spot' assignment member destination chosen homed

/-- What is kept while a row is settled. -/
def Settling (site : Site) (seen : Bytes → Prop) (items : List Assignment)
    (assignment : Assignment) (tree next : FileTree) : Prop :=
  site.Shown seen items next ∧ site.Spares items assignment tree next

section Settling

variable {beside : Nat} {world : World}

theorem along_removeTemporary (cast : site.Cast beside items) (member : assignment ∈ items)
    (chosen : assignment.destination = .ok destination) {tree : FileTree}
    (settling : site.Settling seen items assignment tree world.tree) :
    (Run.removeTemporary (Destination.temporary destination assignment.index)).Along
      (fun _ => True) (site.Settling seen items assignment tree) (fun _ _ => True) world := by
  have removed : (Task.remove (Destination.temporary destination assignment.index)).Along
      (fun _ => True) (site.Settling seen items assignment tree) (fun _ _ => True) world := by
    refine fun _ => ⟨?_, trivial⟩
    change site.Settling seen items assignment tree (world.update _).2.tree
    cases removed : world.tree.remove (Destination.temporary destination assignment.index) with
    | error fault => exact settling
    | ok next =>
      obtain ⟨shown, spares⟩ := settling
      obtain ⟨keeps, _⟩ := keeps_remove (cast.fits assignment member) chosen shown.amid removed
      exact ⟨shown.keeps member keeps, spares.keeps cast.fits member keeps⟩
  refine Task.Along.bind_run removed trivial fun _ => .of_idle ?_ (removed.run settling)
  split
  · exact .pure ()
  · split
    · exact .pure ()
    · exact .note ..

/-- While a complete file is moved to its destination, everything shown is as it was or
complete. -/
theorem along_commit (cast : site.Cast beside items) (member : assignment ∈ items) {halted : Bool}
    {staged : Staged} (shown : site.Shown seen items world.tree)
    (drafted : site.Drafted seen assignment (.ok staged) ⟨halted, world⟩) :
    staged.commit.Along (fun _ => True) (site.Settling seen items assignment world.tree)
      (fun _ _ => True) world := by
  obtain ⟨destination, content, octets, chosen, rfl, known, rendered, drafts⟩ := drafted
  have start : site.Settling seen items assignment world.tree world.tree :=
    ⟨shown, .refl shown.amid⟩
  rw [Staged.commit]
  have moved : (Task.rename (Destination.temporary destination assignment.index) destination).Along
      (fun _ => True) (site.Settling seen items assignment world.tree) (fun _ _ => True) world := by
    refine fun _ => ⟨?_, trivial⟩
    change site.Settling seen items assignment world.tree
      ((Task.rename _ destination).run world).2.tree
    rw [Run.run_rename]
    cases renamed : world.tree.rename (Destination.temporary destination assignment.index)
      destination with
    | error fault => exact start
    | ok next =>
      simp only [World.tree_countMoved]
      exact shown_rename cast.fits cast.clear member chosen shown known rendered drafts renamed
  have settling := moved.run start
  refine Task.Along.bind_run moved trivial fun _ => ?_
  split
  · exact trivial
  · have removed := along_removeTemporary cast member chosen settling
    exact Task.Along.bind_run removed trivial fun _ => trivial

/-- While a row is recorded, everything shown is as it was or complete. -/
theorem along_record (cast : site.Cast beside items) (member : assignment ∈ items)
    (policy : ErrorPolicy) (progress : Progress) (index : Nat) {halted : Bool}
    {result : Except Failure Staged} (shown : site.Shown seen items world.tree)
    (drafted : site.Drafted seen assignment result ⟨halted, world⟩) :
    (progress.record policy index result).Along (fun _ => True)
      (site.Settling seen items assignment world.tree) (fun _ _ => True) world := by
  have start : site.Settling seen items assignment world.tree world.tree :=
    ⟨shown, .refl shown.amid⟩
  have failed : ∀ failure, (progress.recordFailed policy index failure).Idle := by
    intro failure
    refine (Task.Idle.note ..).bind fun _ => ?_
    cases policy with
    | «continue» => exact .pure _
    | abort => exact (Task.Idle.note ..).bind fun _ => .pure _
  cases result with
  | ok staged =>
    rw [Progress.record]
    have moved := along_commit cast member shown drafted
    refine Task.Along.bind_run moved trivial fun _ => .of_idle ?_ (moved.run start)
    split
    · exact (Task.Idle.note ..).bind fun _ => .pure _
    · exact failed _
  | error failure =>
    refine .of_idle ?_ start
    by_cases cancelled : failure = .cancelled
    · obtain rfl := cancelled
      exact .pure _
    · rw [Run.record_error policy progress index cancelled]
      exact failed failure

theorem along_discardResult (cast : site.Cast beside items) (member : assignment ∈ items)
    {halted : Bool} {result : Except Failure Staged} (shown : site.Shown seen items world.tree)
    (drafted : site.Drafted seen assignment result ⟨halted, world⟩) :
    (Run.discardResult result).Along (fun _ => True)
      (site.Settling seen items assignment world.tree) (fun _ _ => True) world := by
  have start : site.Settling seen items assignment world.tree world.tree :=
    ⟨shown, .refl shown.amid⟩
  cases result with
  | error failure => exact trivial
  | ok staged =>
    obtain ⟨destination, content, octets, chosen, rfl, _⟩ := drafted
    exact along_removeTemporary cast member chosen start

end Settling

/-! ## A run that goes on -/

/-- How a run stands that has come some way, whoever has replaced the template. -/
structure Draws (site : Site) (seen : Bytes → Prop) (items rest : List Assignment)
    (progress : Progress) (world : World) : Prop where
  part : rest.Sublist items
  shown : site.Shown seen items world.tree
  crew : (site.drafting seen).Crew ⟨progress.halted, world⟩ rest progress.pending

variable {policy : ErrorPolicy} {beside : Nat} {progress : Progress} {world : World}

theorem Cast.apart_drafting (cast : site.Cast beside items) (part : rest.Sublist items) :
    (site.drafting seen).Apart rest := by
  refine (cast.distinct.sublist part).imp_of_mem fun left right apart => ?_
  have fitsLeft := cast.fits _ (part.subset left)
  have fitsRight := cast.fits _ (part.subset right)
  exact ⟨tolerates_drafting cast.grounded fitsLeft fitsRight apart,
    tolerates_drafting cast.grounded fitsRight fitsLeft apart.symm⟩

/-- The others go on after a row has been settled. -/
theorem crew_of_spares {scene next : Scene} {pending : List Pending}
    (cast : site.Cast beside items) (part : (assignment :: rest).Sublist items)
    (crew : (site.drafting seen).Crew scene rest pending)
    (spares : site.Spares items assignment scene.tree next.tree) (told : site.Told seen next.tree) :
    (site.drafting seen).Crew next rest pending :=
  crew.relied fun other member => ⟨spares.amid, spares.base, spares.directories,
    spares.others other (part.subset (List.mem_cons_of_mem _ member)) (cast.index_ne part member),
    fun _ => told⟩

/-- When the first row has completed its work, beside others, its file is complete if it has any,
and the others go on. -/
theorem Draws.completeBeside (cast : site.Cast beside items) {first : Pending} {tail : List Pending}
    (draws : site.Draws seen items (assignment :: rest) progress world)
    (same : progress.pending = first :: tail) (others : Nat) {result : Except Failure Staged}
    {making : List Pending} {last : World}
    (ran : (Run.completeBeside progress.halted first.work (tail.take others)).run world =
      ((result, making), last)) :
    (Run.completeBeside progress.halted first.work (tail.take others)).Along (site.Told seen)
        (site.Shown seen items) (fun _ _ => True) world ∧
      site.Drafted seen assignment result ⟨progress.halted, last⟩ ∧
      site.Shown seen items last.tree ∧
      (site.drafting seen).Crew ⟨progress.halted, last⟩ rest (making ++ tail.drop others) := by
  have crew := draws.crew
  rw [same] at crew
  cases crew with
  | cons here later =>
    have near := List.forall₂_take others later
    have inner : (assignment :: rest.take others).Sublist items :=
      ((List.take_sublist others rest).cons_cons assignment).trans draws.part
    have preserves := @preserves_shown site seen items _ inner.subset
    have completed :=
      Run.Terms.crew_completeFirst others (cast.apart_drafting draws.part) here.2 later
    rw [ran] at completed
    obtain ⟨drafted, crew, moved⟩ := completed
    have whole := @preserves_shown site seen items _ draws.part.subset
    exact ⟨Run.Terms.along_completeBeside (cast.apart_drafting inner) preserves here.2 near
      draws.shown, drafted, whole.moved moved draws.shown, crew⟩

/-- While the first row is settled, everything shown is as it was or complete. -/
theorem Draws.settle (cast : site.Cast beside items)
    (draws : site.Draws seen items rest progress world) (told : site.Told seen world.tree)
    (others : Nat) :
    (progress.settle policy others).Along (site.Told seen) (site.Shown seen items)
      (site.Draws seen items rest.tail) world := by
  cases rest with
  | nil =>
    have same : progress.pending = [] := List.length_eq_zero_iff.1 draws.crew.length_eq.symm
    rw [Progress.settle, same]
    exact draws
  | cons assignment rest =>
    obtain ⟨first, tail, same⟩ := List.exists_cons_of_length_eq_add_one draws.crew.length_eq.symm
    rcases ran : (Run.completeBeside progress.halted first.work (tail.take others)).run world with
      ⟨⟨result, making⟩, last⟩
    obtain ⟨along, drafted, shown, crew⟩ := draws.completeBeside cast same others ran
    have member : assignment ∈ items := draws.part.subset List.mem_cons_self
    have part : rest.Sublist items := (List.sublist_cons_self _ _).trans draws.part
    simp only [Progress.settle, same]
    refine Task.Along.bind_run along told fun told => ?_
    rw [ran] at told ⊢
    by_cases halted : progress.halted = true
    · rw [if_pos halted]
      have discarded := along_discardResult cast member shown drafted
      obtain ⟨shown', spares⟩ := discarded.run ⟨shown, .refl shown.amid⟩
      refine Task.Along.bind_run (discarded.weaken (fun _ _ => trivial) (fun _ kept => kept.1)
        fun _ _ _ => trivial) told fun told => ?_
      exact ⟨part, shown', crew_of_spares cast draws.part crew spares told⟩
    · rw [if_neg halted]
      have recorded := along_record cast member policy
        { progress with pending := making ++ tail.drop others } first.index shown drafted
      obtain ⟨shown', spares⟩ := recorded.run ⟨shown, .refl shown.amid⟩
      refine (recorded.weaken (fun _ _ => trivial) (fun _ kept => kept.1)
        fun _ _ _ => trivial).ending told fun told => ⟨part, shown', ?_⟩
      have pending : ((Progress.record policy
          { progress with pending := making ++ tail.drop others } first.index result).run
            last).1.pending = making ++ tail.drop others := by
        rcases Run.run_record policy { progress with pending := making ++ tail.drop others }
          first.index result last with ⟨outcome, same⟩ | same
        · rw [same, Run.pending_recorded]
        · rw [same]
      rw [pending]
      exact crew_of_spares cast draws.part crew spares told

/-- A move keeps everything shown as it was or complete. -/
theorem Draws.move (cast : site.Cast beside items)
    (draws : site.Draws seen items rest progress world) (told : site.Told seen world.tree)
    (width : Nat) (move : Move) :
    (progress.move policy width move).Along (site.Told seen) (site.Shown seen items)
      (fun progress last => ∃ rest', site.Draws seen items rest' progress last) world := by
  cases move with
  | advance position =>
    rw [Progress.move]
    by_cases inside : position < width
    · rw [if_pos inside]
      have apart := @Cast.apart_drafting _ seen _ _ _ cast draws.part
      have preserves := @preserves_shown site seen items _ draws.part.subset
      obtain ⟨crew, moved⟩ := @Run.Terms.crew_advanceAt _ _ position _ _ _ apart draws.crew
      refine Task.Along.bind_run
        (Run.Terms.along_advanceAt apart preserves draws.crew draws.shown told) told fun _ => ?_
      exact ⟨rest, draws.part, preserves.moved moved draws.shown, crew⟩
    · rw [if_neg inside]
      exact ⟨rest, draws⟩
  | settle =>
    exact (draws.settle cast told 0).weaken (fun _ told => told) (fun _ shown => shown)
      fun _ _ draws => ⟨_, draws⟩
  | interrupt =>
    refine fun _ => ⟨draws.shown, rest, draws.part, draws.shown, draws.crew.relied fun _ _ => ?_⟩
    exact ⟨draws.shown.amid, rfl, fun _ directory => directory, fun _ _ => rfl, fun told => told⟩

theorem Draws.follow (cast : site.Cast beside items)
    (draws : site.Draws seen items rest progress world) (told : site.Told seen world.tree)
    (width : Nat) (schedule : Schedule) :
    (progress.follow policy width schedule).Along (site.Told seen) (site.Shown seen items)
      (fun progress last => ∃ rest', site.Draws seen items rest' progress last) world := by
  induction schedule generalizing rest progress world with
  | nil => exact ⟨rest, draws⟩
  | cons move schedule ih =>
    exact (draws.move cast told width move).bind told fun _ _ ⟨_, draws⟩ told => ih draws told

theorem Draws.settleMany (cast : site.Cast beside items)
    (draws : site.Draws seen items rest progress world) (told : site.Told seen world.tree)
    (width count : Nat) :
    (progress.settleMany policy width count).Along (site.Told seen) (site.Shown seen items)
      (fun _ last => site.Shown seen items last.tree) world := by
  induction count generalizing rest progress world with
  | zero => exact draws.shown
  | succ count ih =>
    exact (draws.settle cast told (width - 1)).bind told fun _ _ draws told => ih draws told

/-- At every moment while the rows of a request are generated, everything shown is as it was or
complete. -/
theorem along_generate {request : Request} (cast : site.Cast beside request.assigned)
    (template : request.template = site.template) (before : world.tree = site.before)
    (told : site.Told seen world.tree) (schedule : Schedule) :
    (Run.generate schedule request).Along (site.Told seen) (site.Shown seen request.assigned)
      (fun _ last => site.Shown seen request.assigned last.tree) world := by
  have amid : site.Amid world.tree := before ▸ amid_before
  have draws : site.Draws seen request.assigned request.assigned (.start request) world := by
    refine ⟨List.Sublist.refl _, ⟨amid, fun _ _ => .inl (before ▸ rfl)⟩, ?_⟩
    refine Run.Terms.crew_start fun assignment member => ?_
    rw [template]
    exact held_drafting cast.grounded (cast.fits assignment member) ⟨amid, told⟩
  refine (draws.follow cast told request.width schedule).bind told fun _ _ ⟨_, draws⟩ told => ?_
  exact (draws.settleMany cast told request.width _).bind told fun _ _ shown _ => shown

end Site

/-! ## Runs of requests -/

namespace Run

/-- Whatever is kept while the rows of a request are generated is kept by its whole run, for the
rest only looks. -/
theorem along_process {schedule : Schedule} {request : Request} {world : World}
    {given kept : FileTree → Prop} (start : kept world.tree) (met : given world.tree)
    (generates : request.refusal? world.tree = none → ∀ early : World, early.tree = world.tree →
      (generate schedule request).Along given kept (fun _ last => kept last.tree) early) :
    (process schedule request).Along given kept (fun _ _ => True) world := by
  have looking : ∀ {α β : Type} {task : Task α} {rest : α → Task β} {now : World},
      task.Idle → now.tree = world.tree →
      ((rest (task.run now).1).Along given kept (fun _ _ => True) (task.run now).2) →
      (task >>= rest).Along given kept (fun _ _ => True) now :=
    fun idle same later => .bind_run (.of_idle idle (same ▸ start)) (same ▸ met) fun _ => later
  refine looking (idle_openTemplate request.template) rfl ?_
  rw [run_openTemplate]
  unfold Request.refusal? at generates
  cases kind : world.tree.kind request.template with
  | error fault => by_cases missing : fault.isNotFound = true <;> simp only [missing] <;> trivial
  | ok kind' =>
    rw [kind] at generates
    cases kind' with
    | directory => trivial
    | file =>
      refine looking (.note ..) rfl ?_
      generalize noted : ((Task.note .info _ none).run world).2 = next
      have tree : next.tree = world.tree := noted ▸ rfl
      refine looking (idle_noteUnprovided request) tree ?_
      obtain ⟨last, core, ran⟩ := run_noteUnprovided request next
      have same : last.tree = world.tree := (congrArg (·.1) core).trans tree
      rw [ran, tree]
      simp only at generates
      generalize (if request.rows.isEmpty then none
        else Request.unreadable? request.template (world.tree.read request.template)) = refusal
        at generates ⊢
      cases refusal with
      | some failure => trivial
      | none =>
        refine looking (idle_noteRepetitions request) same ?_
        have repeated := ((idle_noteRepetitions request).run last).trans same
        refine looking (.note ..) repeated ?_
        refine Task.Along.bind (generates rfl _ ?_) ?_ fun report final shown met => ?_
        · exact repeated
        · exact repeated.symm ▸ met
        · exact .bind_run (.of_idle (idle_noteReport request report) shown) met fun _ => trivial

end Run

namespace Site

variable {site : Site} {seen : Bytes → Prop} {items : List Assignment}

/-- What is at a location of a tree that shows nothing but what it should. -/
theorem Shown.entry_cases {tree : FileTree} (shown : site.Shown seen items tree)
    {location : Location}
    (elsewhere : ∀ assignment ∈ items, site.spot? assignment ≠ some location) :
    tree.entry? location = site.before.entry? location ∨
      site.before.entry? location = none ∧ tree.HasDirectory location ∧
        site.ready.HasDirectory location ∨
      ∃ octets, tree.entry? location = some (.file octets) ∧
        site.Rendered seen items location octets := by
  obtain same | ⟨octets, file, rendered⟩ := shown.files location elsewhere
  · cases found : tree.entry? location with
    | none =>
      refine .inl ?_
      rw [FileTree.content?_eq_none.2 (.inl found)] at same
      refine ((FileTree.content?_eq_none.1 same.symm).resolve_right fun directory => ?_).symm
      have kept := shown.amid.kept location directory
      simp [FileTree.HasDirectory, found] at kept
    | some entry =>
      cases entry with
      | file octets =>
        rw [FileTree.content?_eq_some.2 found] at same
        exact .inl (FileTree.content?_eq_some.1 same.symm).symm
      | directory =>
        have ready := shown.amid.within location found
        obtain nothing | directory := FileTree.content?_eq_none.1 (free_of_ready ready)
        · exact .inr (.inl ⟨nothing, found, ready⟩)
        · exact .inl directory.symm
  · exact .inr (.inr ⟨octets, FileTree.content?_eq_some.1 file, rendered⟩)

/-- A directory of the ready tree that was not there before is one that an attempt to make the
directory of the run makes. -/
theorem hasDirectory_made {location : Location} (nothing : site.before.entry? location = none)
    (directory : site.ready.HasDirectory location) :
    (site.before.createDirectories site.directory.trimmed).1.HasDirectory location := by
  cases needed : site.needed? with
  | none =>
    rw [ready, needed] at directory
    exact absurd (nothing.symm.trans directory) (by simp)
  | some path =>
    obtain ⟨rfl, _⟩ := needed?_eq_some needed
    rwa [← ready_of_needed needed]

end Site

namespace Run

/-- What has been at a place at some moment of a run, up to a number of its operations. -/
def SeenBy (schedule : Schedule) (request : Request) (world : World) (mark : Location) (count : Nat)
    (content : Bytes) : Prop :=
  ∃ earlier ≤ count,
    (Task.after earlier (process schedule request) world).tree.content? mark = some content

/-- The tree at any moment of a run shows what it should: files as they were before, and complete
files made from a template that has been there by then. -/
theorem shown_after (schedule : Schedule) {request : Request} {world : World} {mark : Location}
    (grounded : (request.site world.tree mark).Grounded)
    (fresh : request.FreshTemporaries world.tree) {now count : Nat} (soon : now ≤ count) :
    (request.site world.tree mark).Shown (SeenBy schedule request world mark count)
      request.assigned (Task.after now (process schedule request) world).tree := by
  -- The run may be one in which rows replace the template beside each other; but what the rows
  -- are is the same as if they ran one after another.
  have cast := @Request.cast_of_fresh request.oneByOne _ _ grounded
    (Request.freshTemporaries_oneByOne fresh)
    (Request.keepsTemplate_of_width_one (Request.width_of_concurrency_one rfl) world.tree)
  rw [Request.assigned_oneByOne] at cast
  have told : ∀ earlier ≤ count, (request.site world.tree mark).Told
      (SeenBy schedule request world mark count)
      (Task.after earlier (process schedule request) world).tree :=
    fun earlier before content file => ⟨earlier, before, file⟩
  have start := told 0 (Nat.zero_le count)
  refine Task.Along.after (along_process ⟨Site.amid_before, fun _ _ => .inl rfl⟩ start
    fun _ early same => ?_) ⟨Site.amid_before, fun _ _ => .inl rfl⟩
    fun earlier before => told earlier (Nat.le_trans before soon)
  exact Site.along_generate cast rfl same (same ▸ start) schedule

end Run

/-- At every moment of a run, whatever its rows have done by then and whoever has replaced the
template, a place that belongs to no temporary file is as it was before the run; or nothing was
there and it is one of the directories that have to be made for the directory of the run; or it has
the complete file of a row that goes there: all lines of a template that has been there at some
moment, filled by the row. -/
theorem Run.process_after {request : Request} {world : World} {schedule : Schedule}
    (fresh : request.FreshTemporaries world.tree) (count : Nat) {location : Location}
    (elsewhere : ∀ assignment ∈ request.planned, ∀ destination,
      assignment.destination = .ok destination →
        world.tree.location? (Destination.temporary destination assignment.index) ≠
          some location) :
    FileTree.entry? (Task.after count (process schedule request) world).tree location =
        world.tree.entry? location ∨
      world.tree.entry? location = none ∧
        FileTree.entry? (Task.after count (process schedule request) world).tree location =
          some .directory ∧
        FileTree.entry? (world.tree.createDirectories request.directory.trimmed).1 location =
          some .directory ∨
      ∃ assignment ∈ request.planned, ∃ (destination : Path) (earlier : Nat) (content : Bytes)
          (lines : List Template.Line), assignment.destination = .ok destination ∧
        world.tree.location? destination = some location ∧ earlier ≤ count ∧
        (Task.after earlier (process schedule request) world).tree.read request.template =
          .ok content ∧
        Template.lines content = lines.map .ok ∧ lines.flatMap Template.Line.bytes = content ∧
        FileTree.entry? (Task.after count (process schedule request) world).tree location =
          some (.file (lines.flatMap fun line =>
            utf8 (Template.substitute assignment.row line.content) ++
              Utf8.encode line.ending.chars)) := by
  cases refusal : request.refusal? world.tree with
  | some failure =>
    have along : (process schedule request).Along (fun _ => True) (· = world.tree)
        (fun _ _ => True) world := along_process rfl trivial fun accepted => by
      simp [refusal] at accepted
    have same : (Task.after count (process schedule request) world).tree = world.tree :=
      along.after rfl fun _ _ => trivial
    exact .inl (congrArg (fun tree : FileTree => tree.entry? location) same)
  | none =>
    obtain ⟨mark, grounded⟩ := Request.exists_grounded_of_accepted refusal
    obtain ⟨attended, assigned⟩ := request.assigned_eq_take
    have inside : ∀ assignment ∈ request.assigned, assignment ∈ request.planned :=
      fun assignment member => List.mem_of_mem_take (assigned ▸ member)
    have away : ∀ assignment ∈ request.assigned,
        (request.site world.tree mark).spot? assignment ≠ some location := by
      intro assignment member spot
      obtain ⟨destination, chosen, spot⟩ := Site.exists_of_spot? spot
      exact elsewhere assignment (inside assignment member) destination chosen spot
    obtain same | ⟨nothing, directory, ready⟩ |
      ⟨octets, file, assignment, member, destination, content, chosen, located, ⟨earlier, before,
        held⟩, rendered⟩ :=
        (shown_after schedule grounded fresh (Nat.le_refl count)).entry_cases away
    · exact .inl same
    · exact .inr (.inl ⟨nothing, directory, Site.hasDirectory_made nothing ready⟩)
    · obtain ⟨lines, same, whole, rfl⟩ := Template.exists_lines_of_render rendered
      refine .inr (.inr ⟨assignment, inside assignment member, destination, earlier, content, lines,
        chosen, located, before, ?_, same, whole, file⟩)
      have amid := (shown_after schedule grounded fresh before).amid
      exact FileTree.read_of_target (FileTree.target_mono amid.base amid.kept grounded.target) held

theorem Run.process_after_couple :
    ∃ (earlier : Nat) (lines : List Template.Line), earlier ≤ 20 ∧
      (Task.after earlier (process [] (.couple (.named "a" "x") (.named "b" "y")))
        .pattern).tree.read ⟨utf8 "pattern"⟩ = .ok (lines.flatMap Template.Line.bytes) ∧
      FileTree.entry? (Task.after 20 (process [] (.couple (.named "a" "x") (.named "b" "y")))
          .pattern).tree [utf8 "a"] =
        some (.file (lines.flatMap fun line =>
          utf8 (Template.substitute (.named "a" "x") line.content) ++
            Utf8.encode line.ending.chars)) := by
  obtain same | ⟨_, directory, _⟩ | ⟨assignment, member, destination, earlier, content, lines,
      chosen, located, before, there, _, whole, file⟩ :=
    @process_after (.couple (.named "a" "x") (.named "b" "y")) .pattern [] (by decide +kernel) 20
      [utf8 "a"] (by decide +kernel)
  · exact absurd same (by decide +kernel)
  · exact absurd directory (by decide +kernel)
  · have rows : ∀ assignment ∈ (Request.couple (.named "a" "x") (.named "b" "y")).planned,
        assignment.row = .named "a" "x" ∨ assignment.destination = .ok ⟨utf8 "b"⟩ := by
      decide +kernel
    obtain row | other := rows assignment member
    · exact ⟨earlier, lines, before, whole ▸ there, row ▸ file⟩
    · obtain rfl := Except.ok.inj (chosen.symm.trans other)
      exact absurd located (by decide +kernel)

/-- The request for one file in a directory that has to be made. -/
def Request.outside : Request where
  template := ⟨utf8 "pattern"⟩
  rows := [.named "a" "x"]
  outputDir := some ⟨utf8 "out"⟩

/-- The pattern beside a file that is the beginning of another. -/
def World.begun : World := { tree := World.pattern.tree.set [utf8 "a"] (.file (utf8 "x")) }

/-- A run leaves the directory that it has made, which no row has filled; and a file that was there
before may happen to be the beginning of the one that is to replace it. -/
theorem Run.process_after_outside :
    (¬ ∀ (request : Request) (world : World) (schedule : Schedule) (count : Nat)
        (location : Location), request.FreshTemporaries world.tree →
      (∀ assignment ∈ request.planned, ∀ destination, assignment.destination = .ok destination →
        world.tree.location? (Destination.temporary destination assignment.index) ≠
          some location) →
      FileTree.entry? (Task.after count (process schedule request) world).tree location =
          world.tree.entry? location ∨
        ∃ octets, FileTree.entry? (Task.after count (process schedule request) world).tree
          location = some (.file octets)) ∧
    ¬ ∀ (request : Request) (world : World) (schedule : Schedule) (count index : Nat) (row : Row)
        (destination : Path) (content part octets : Bytes),
      request.FreshTemporaries world.tree → request.rows[index]? = some row →
      request.resolve row index = .ok destination →
      world.tree.read request.template = .ok content → Template.render row content = .ok octets →
      (Task.after count (process schedule request) world).tree.read destination = .ok part →
      part <+: octets → part = octets := by
  constructor
  · intro all
    have made : FileTree.entry? (Task.after 20 (process [] .outside) .pattern).tree [utf8 "out"] =
        some .directory := by decide +kernel
    obtain same | ⟨octets, file⟩ := all .outside .pattern [] 20 [utf8 "out"] (by decide +kernel)
      (by decide +kernel)
    · exact absurd (made.symm.trans same) (by decide +kernel)
    · simp [made] at file
  · intro all
    have whole : utf8 "x" = utf8 "xy" :=
      all (.couple (.named "a" "xy") (.named "b" "y")) .begun [] 0 0 (.named "a" "xy")
        ⟨utf8 "a"⟩ (utf8 "{{A}}") (utf8 "x") (utf8 "xy") (by decide +kernel) rfl (by decide +kernel)
        (by decide +kernel) (by decide +kernel) (by decide +kernel) (by decide +kernel)
    exact absurd whole (by decide +kernel)

end MailMerge
