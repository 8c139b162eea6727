import MailMerge.Proofs.Run.Going
import MailMerge.Proofs.Run.Refusals
import MailMerge.Proofs.Run.Sequence

/-!
# Rows that can be written

A run to the end that nobody interrupts generates whatever can be generated, if its directory is
there, its template stays what it is, and there was nothing under its temporary names: a row is
generated if and only if its temporary file can be created and can be moved to where it belongs
(`Site.Decides`).  Both depend on the names alone and on where there are directories, so whether a
row is generated has nothing to do with the other rows (`Run.ok_process_iff`).

This is so even where rows get into each other's way.  A row may move its file to the place of
another row's temporary file, and it may take its own temporary file from where another row's file
was.  But where a temporary file has been created there is some file until its own row takes it
away, and no row relies on more than that (`Site.tolerates_writable`).

The name of the temporary file is longer than the name of the file.  A row is therefore not
generated although there may be a file of its name, if the name is nearly as long as names may be
(`Run.process_tight`).
-/

namespace MailMerge

open Run (Assignment Progress Schedule Staged)

set_option autoImplicit false

namespace Site

variable {site : Site} {assignment : Assignment} {destination : Path} {content : Bytes}

/-! ## Rows together -/

/-- Rows that can be written beside each other, at their own indices and away from the template. -/
structure Together (site : Site) (items : List Assignment) : Prop where
  grounded : site.Grounded
  fits : ∀ assignment ∈ items, site.Fits assignment
  indices : items.Pairwise fun left right => left.index ≠ right.index
  spares : ∀ assignment ∈ items, ∀ destination, assignment.destination = .ok destination →
    site.before.location? destination ≠ some site.mark

theorem Together.sublist {items part : List Assignment} (together : site.Together items)
    (sub : part.Sublist items) : site.Together part where
  grounded := together.grounded
  fits assignment member := together.fits assignment (sub.subset member)
  indices := together.indices.sublist sub
  spares assignment member := together.spares assignment (sub.subset member)

/-- A row does nothing that another row relies on not being done. -/
theorem tolerates_writable {left right : Assignment} (fitsLeft : site.Fits left)
    (fitsRight : site.Fits right) (apart : left.index ≠ right.index) :
    (site.writable content).Tolerates left right := by
  intro scene next step
  refine ⟨step.going, ?_⟩
  intro location own
  exact step.others location (spot?_ne fitsLeft.entry fitsRight.entry apart own)

theorem Together.apart {items : List Assignment} (together : site.Together items)
    (content : Bytes) : (site.writable content).Apart items := by
  refine together.indices.imp_of_mem ?_
  intro _ _ left right apart
  have fitsLeft := together.fits _ left
  have fitsRight := together.fits _ right
  exact ⟨tolerates_writable fitsLeft fitsRight apart,
    tolerates_writable fitsRight fitsLeft (Ne.symm apart)⟩

/-- Whatever several rows do, the run goes on. -/
theorem going_of_moved {crew : List Assignment} {scene next : Scene}
    (going : site.Going content scene) (moved : (site.writable content).Moved crew scene next) :
    site.Going content next ∧ next.world.patience = scene.world.patience := by
  induction moved with
  | refl => exact ⟨going, rfl⟩
  | tail _ step ih =>
    obtain ⟨assignment, _, step⟩ := step
    exact ⟨step.going, step.patience.trans ih.2⟩

/-! ## The end of a row's work -/

/-- What becomes of a row: it is generated if and only if its temporary file can be created and can
be moved to where it belongs. -/
def Decides (site : Site) (assignment : Assignment) (outcome : Outcome) : Prop :=
  outcome.index = assignment.index ∧ ∀ path, outcome.result = .ok path ↔
    assignment.destination = .ok path ∧
      (∃ spot, site.ready.landing (Destination.temporary path assignment.index) = .ok spot) ∧
      ∃ location, site.ready.landing path = .ok location

theorem decides_error {failure : Failure}
    (never : ∀ destination, assignment.destination = .ok destination →
      (∀ spot, site.ready.landing (Destination.temporary destination assignment.index) ≠ .ok spot) ∨
        ∀ location, site.ready.landing destination ≠ .ok location) :
    site.Decides assignment ⟨assignment.index, .error failure⟩ := by
  refine ⟨rfl, fun path => ⟨nofun, ?_⟩⟩
  rintro ⟨chosen, ⟨spot, drafted⟩, location, landed⟩
  rcases never path chosen with blocked | blocked
  · exact absurd drafted (blocked spot)
  · exact absurd landed (blocked location)

/-- Moving the temporary file, which is there, has the result that the names allow for. -/
theorem proceeds_commit (placed : site.Placed assignment destination)
    (spares : site.before.location? destination ≠ some site.mark) {world : World} {staged : Staged}
    (going : site.Going content ⟨false, world⟩) (patient : world.patience = none)
    (concludes : site.Concludes assignment (.ok staged) ⟨false, world⟩) :
    site.Proceeds content assignment ⟨false, world⟩ ⟨false, (staged.commit.run world).2⟩ ∧
      site.Decides assignment ⟨assignment.index, (staged.commit.run world).1⟩ := by
  obtain ⟨_, spot, chosen, rfl, drafted, there⟩ := concludes
  obtain rfl := Except.ok.inj (placed.chosen.symm.trans chosen)
  obtain ⟨octets, file⟩ := Option.ne_none_iff_exists'.1 there
  have entry := placed.fits.isEntry chosen
  have found := going.equipped.find (placed.fits.isEntry_temporary chosen) drafted file
  have taken := proceeds_erase placed ⟨destination, chosen, drafted⟩ going
  have renamed := FileTree.rename_eq found entry.noSlash
  rw [going.equipped.amid.landing_eq going.equipped.reached entry] at renamed
  rw [Staged.commit, Task.run_bind, Run.run_rename]
  cases landed : site.ready.landing destination with
  | error fault =>
    rw [landed] at renamed
    have removed : world.tree.remove (Destination.temporary destination assignment.index) =
        .ok (world.tree.erase spot) := by
      rw [FileTree.remove, found]
    simp only [renamed, Run.removeTemporary, Task.run_bind, Run.run_remove, removed, World.update,
      Task.run_pure]
    refine ⟨taken, decides_error fun path chosen' => .inr ?_⟩
    obtain rfl := Except.ok.inj (chosen.symm.trans chosen')
    simp [landed]
  | ok location =>
    rw [landed] at renamed
    have elsewhere : location ≠ site.mark :=
      fun same => spares (same ▸ location?_of_landing landed)
    have still : ∀ tree, { world with tree }.countMoved = { world with tree } :=
      fun tree => by simp only [World.countMoved, patient]
    simp only [renamed, still, Task.run_pure]
    refine ⟨taken.trans (proceeds_set taken.going landed elsewhere octets), rfl, ?_⟩
    intro path
    constructor
    · intro same
      obtain rfl := Except.ok.inj same
      exact ⟨chosen, ⟨spot, drafted⟩, location, landed⟩
    · rintro ⟨chosen', _⟩
      exact chosen.symm.trans chosen'

/-- Recording what a row has come to is the last thing that it does. -/
theorem proceeds_record (grounded : site.Grounded) (fits : site.Fits assignment)
    (spares : ∀ destination, assignment.destination = .ok destination →
      site.before.location? destination ≠ some site.mark) {world : World}
    (going : site.Going content ⟨false, world⟩) (patient : world.patience = none)
    (progress : Progress) {result : Except Failure Staged}
    (concludes : site.Concludes assignment result ⟨false, world⟩) :
    ∃ outcome, site.Proceeds content assignment ⟨false, world⟩
        ⟨false, ((progress.record .continue assignment.index result).run world).2⟩ ∧
      ((progress.record .continue assignment.index result).run world).1 =
        progress.recorded .continue assignment.index outcome ∧
      site.Decides assignment ⟨assignment.index, outcome⟩ := by
  cases result with
  | ok staged =>
    obtain ⟨same, core⟩ := Run.run_record_ok .continue progress assignment.index staged world
    obtain ⟨destination, _, chosen, _⟩ := id concludes
    obtain ⟨proceeds, decides⟩ := proceeds_commit ⟨grounded, fits, chosen⟩
      (spares destination chosen) going patient concludes
    exact ⟨_, proceeds.trans (.of_core proceeds.going rfl core), same, decides⟩
  | error failure =>
    obtain ⟨other, never⟩ := concludes
    obtain ⟨same, core⟩ :=
      Run.run_recordFailed .continue progress assignment.index failure world
    rw [Run.record_error .continue progress _ other]
    refine ⟨.error failure, .of_core going rfl core, same, decides_error ?_⟩
    intro destination chosen
    exact .inl fun spot drafted => never spot ⟨destination, chosen, drafted⟩

/-! ## A run that goes on -/

/-- How a run stands that has come some way: the rows that are not settled will be written, and
those that are have become what their names allow for. -/
structure Advances (site : Site) (content : Bytes) (items rest : List Assignment)
    (progress : Progress) (world : World) : Prop where
  crew : (site.writable content).Crew ⟨false, world⟩ rest progress.pending
  going : site.Going content ⟨false, world⟩
  settled : ∃ done, items = done ++ rest ∧ List.Forall₂ site.Decides done progress.outcomes
  running : progress.halted = false
  patient : world.patience = none

variable {items rest : List Assignment} {progress : Progress} {world : World}

/-- A row performs an operation. -/
theorem Advances.advance (together : site.Together items)
    (advances : site.Advances content items rest progress world) (position : Nat) :
    site.Advances content items rest
      { progress with
        pending := ((Run.advanceAt progress.halted position progress.pending).run world).1 }
      ((Run.advanceAt progress.halted position progress.pending).run world).2 := by
  obtain ⟨done, split, decided⟩ := advances.settled
  have apart := (together.sublist (split ▸ List.sublist_append_right done rest)).apart content
  obtain ⟨crew, moved⟩ := @Run.Terms.crew_advanceAt _ false position _ _ _ apart advances.crew
  obtain ⟨going, patience⟩ := going_of_moved advances.going moved
  rw [advances.running]
  exact ⟨crew, going, ⟨done, split, decided⟩, rfl, patience.trans advances.patient⟩

/-- A row is settled. -/
theorem Advances.settle (together : site.Together items)
    (advances : site.Advances content items rest progress world) (others : Nat) :
    site.Advances content items rest.tail ((progress.settle .continue others).run world).1
      ((progress.settle .continue others).run world).2 := by
  cases rest with
  | nil =>
    rw [Run.run_settle_nil (List.length_eq_zero_iff.1 advances.crew.length_eq.symm)]
    exact advances
  | cons assignment rest =>
    obtain ⟨done, split, decided⟩ := advances.settled
    have apart := (together.sublist (split ▸ List.sublist_append_right done _)).apart content
    have member : assignment ∈ items := split ▸ List.mem_append_right done List.mem_cons_self
    obtain ⟨result, making, last, concludes, crew, moved, settled⟩ :=
      Run.Terms.exists_settle .continue others apart (advances.running ▸ advances.crew)
    rw [advances.running] at concludes crew moved
    rw [settled, if_neg (by simp [advances.running]), List.tail_cons]
    obtain ⟨going, patience⟩ := going_of_moved advances.going moved
    have patient : last.patience = none := patience.trans advances.patient
    obtain ⟨outcome, proceeds, recorded, decides⟩ := proceeds_record together.grounded
      (together.fits _ member) (together.spares _ member) going patient
      { progress with pending := making } concludes
    rw [recorded]
    exact ⟨crew.beside apart (.single List.mem_cons_self proceeds), proceeds.going,
      ⟨done ++ [assignment], by simp [split], List.rel_append decided (.cons decides .nil)⟩,
      (Bool.or_false _).trans advances.running, proceeds.patience.trans patient⟩

/-- A run in which nothing has been done. -/
theorem advances_start {request : Request} (template : request.template = site.template)
    (together : site.Together request.assigned) (text : Utf8.isText content = true)
    (going : site.Going content ⟨false, world⟩) (patient : world.patience = none) :
    site.Advances content request.assigned request.assigned (.start request) world where
  crew := by
    refine Run.Terms.crew_start fun assignment member => ?_
    rw [template]
    exact held_going together.grounded (together.fits assignment member) text going
  going := going
  settled := ⟨[], rfl, .nil⟩
  running := rfl
  patient := patient

/-- What the report of a run says about its rows, as far as it goes. -/
theorem decides_generate {request : Request} {schedule : Schedule}
    (policy : request.errorPolicy = .continue) (silent : .interrupt ∉ schedule)
    (template : request.template = site.template) (together : site.Together request.assigned)
    (text : Utf8.isText content = true) (going : site.Going content ⟨false, world⟩)
    (patient : world.patience = none) :
    ∃ done rest, request.assigned = done ++ rest ∧
      List.Forall₂ site.Decides done ((Run.generate schedule request).run world).1.outcomes := by
  have lasting : Run.Lasting schedule request.errorPolicy request.width fun progress next =>
      ∃ rest, site.Advances content request.assigned rest progress next :=
    { settle := by
        rintro _ _ others _ ⟨rest, advances⟩
        exact ⟨rest.tail, policy ▸ advances.settle together others⟩
      advance := by
        rintro _ _ position _ ⟨rest, advances⟩
        exact ⟨rest, advances.advance together position⟩
      interrupt := fun member _ => absurd member silent }
  obtain ⟨progress, ⟨rest, advances⟩, _, same⟩ :=
    lasting.generate ⟨_, advances_start template together text going patient⟩
  obtain ⟨done, split, decided⟩ := advances.settled
  exact ⟨done, rest, split, same ▸ decided⟩

end Site

/-! ## Requests -/

namespace Request

variable {request : Request} {tree : FileTree} {mark : Location}

/-- The rows of a request that has nothing under its temporary names and spares its template. -/
theorem together_planned (grounded : (request.site tree mark).Grounded)
    (vacant : request.VacantTemporaries tree) (spares : request.SparesTemplate tree) :
    (request.site tree mark).Together request.planned where
  grounded := grounded
  fits _ member := fits_of_vacant vacant member
  indices := pairwise_planned
  spares := spares mark (location?_of_grounded grounded)

/-- When later rows replace the files of earlier ones, each row is planned as it resolves. -/
theorem getElem?_planned_of_overwrite (policy : request.duplicatePolicy = .overwrite)
    {position : Nat} {row : Row} (here : request.rows[position]? = some row) :
    request.planned[position]? = some ⟨position, row, request.resolve row position⟩ := by
  refine (Run.getElem?_assignments ..).2 ⟨(Nat.zero_add _).symm, here, ?_⟩
  obtain ⟨destination, found, planned⟩ := exists_planned_of_getElem? here
  rw [found, planned.eq_resolve here policy]

end Request

namespace Run

/-- A run to the end that nobody interrupts decides on every row by itself. -/
theorem decides_process {request : Request} {world : World} {schedule : Schedule} {content : Bytes}
    {mark : Location} {report : Report} (policy : request.errorPolicy = .continue)
    (silent : .interrupt ∉ schedule) (uncancelled : world.cancelled = false)
    (patient : world.patience = none)
    (there : world.tree.read request.template = .ok content) (text : Utf8.isText content = true)
    (directory : request.directory.isEmpty = true ∨
      world.tree.isDirectory request.directory = true)
    (grounded : (request.site world.tree mark).Grounded)
    (vacant : request.VacantTemporaries world.tree) (spares : request.SparesTemplate world.tree)
    (ok : ((process schedule request).run world).1 = .ok report) :
    List.Forall₂ (request.site world.tree mark).Decides request.planned report.outcomes := by
  have whole : report.outcomes.length = request.planned.length := by
    rw [request.length_planned]
    rcases (shape_of_process ok).whole with whole | cancelled | ⟨abort, _⟩
    · exact whole
    · have going := (reportable_of_process ok).2 silent uncancelled patient
      exact absurd (cancelled.symm.trans going) (by simp)
    · exact absurd (policy.symm.trans abort) (by simp)
  obtain ⟨early, begins, rfl⟩ := exists_begins_of_process ok
  have cancelled : early.cancelled = false := begins.cancelled.trans uncancelled
  have patience : early.patience = none := begins.patience.trans patient
  have planned := Request.assigned_of_continue policy
  have going : (request.site world.tree mark).Going content ⟨false, early⟩ := by
    refine ⟨?_, by simp [Scene.stopping, cancelled]⟩
    change Site.Equipped _ content early.tree
    rw [begins.tree]
    exact ⟨Site.amid_before, Request.reached_of_isDirectory directory,
      Request.content?_of_read grounded there⟩
  obtain ⟨done, rest, split, decided⟩ := @Site.decides_generate (request.site world.tree mark)
    content early request schedule policy silent rfl
    (planned ▸ Request.together_planned grounded vacant spares) text going patience
  rw [planned] at split
  have nothing : rest = [] := by
    have length := decided.length_eq
    rw [whole, split, List.length_append] at length
    exact List.length_eq_zero_iff.1 (by omega)
  rwa [split, nothing, List.append_nil]

/-- Every row that can be written is written.  In a run to the end that nobody interrupts, where
later rows replace the files of earlier ones, the directory exists, no destination is the template
and there is nothing under the temporary names, a row that resolves to a path is generated if and
only if no directory is there and the names that are needed are short enough, whatever the other
rows are and in whatever order the rows in the making take turns. -/
theorem ok_process_iff {request : Request} {world : World} {schedule : Schedule} {content : Bytes}
    (policy : request.errorPolicy = .continue) (overwrite : request.duplicatePolicy = .overwrite)
    (silent : .interrupt ∉ schedule) (uncancelled : world.cancelled = false)
    (patient : world.patience = none)
    (there : world.tree.read request.template = .ok content) (text : Utf8.isText content = true)
    (directory : request.directory.isEmpty = true ∨
      world.tree.isDirectory request.directory = true)
    (spares : request.SparesTemplate world.tree) (vacant : request.VacantTemporaries world.tree) :
    ∃ report, ((process schedule request).run world).1 = .ok report ∧
      ∀ (position : Nat) (row : Row) (path : Path), request.rows[position]? = some row →
        request.resolve row position = .ok path →
        (report.outcomes[position]? = some ⟨position, .ok path⟩ ↔
          world.tree.isDirectory path = false ∧ Destination.isShort path position = true) := by
  have accepted := Request.refusal?_of_read there text
  obtain ⟨mark, grounded⟩ := Request.exists_grounded_of_accepted accepted
  cases ran : ((process schedule request).run world).1 with
  | error failure =>
    exact absurd accepted ((exists_error_iff schedule request world).1 ⟨failure, ran⟩)
  | ok report =>
    have decided := decides_process policy silent uncancelled patient there text directory grounded
      vacant spares ran
    refine ⟨report, rfl, ?_⟩
    intro position row path here resolved
    have planned := Request.getElem?_planned_of_overwrite overwrite here
    rw [resolved] at planned
    obtain ⟨inside, same⟩ := List.getElem?_eq_some_iff.1 planned
    have inside' : position < report.outcomes.length := decided.length_eq ▸ inside
    have verdict := decided.get inside inside'
    rw [List.get_eq_getElem, same] at verdict
    obtain ⟨index, decides⟩ := verdict
    have comes := Request.comes_of_planned grounded vacant directory (List.mem_of_getElem? planned)
    have portrays := Request.portrays_of_accepted accepted grounded
      (List.ne_nil_of_mem (List.mem_of_getElem? here)) directory
    rw [comes.writes_iff portrays rfl, List.getElem?_eq_getElem inside', Option.some.injEq]
    constructor
    · intro generated
      exact ((decides path).1 (by simp [generated])).2
    · intro possible
      exact congrArg₂ Outcome.mk index ((decides path).2 ⟨rfl, possible⟩)

/-- Two rows in the making, the first of which moves its file to where the second one has its
temporary file. -/
theorem ok_process_iff_couple : ∃ report,
    ((process [.advance 1, .advance 1, .advance 1, .settle]
      (.couple (.named ".b.rowmerge-tmp-1" "x") (.named "b" "y"))).run .pattern).1 = .ok report ∧
    report.outcomes[0]? = some ⟨0, .ok ⟨utf8 ".b.rowmerge-tmp-1"⟩⟩ ∧
    report.outcomes[1]? = some ⟨1, .ok ⟨utf8 "b"⟩⟩ := by
  obtain ⟨report, ok, generated⟩ :=
    @ok_process_iff (.couple (.named ".b.rowmerge-tmp-1" "x") (.named "b" "y")) .pattern
      [.advance 1, .advance 1, .advance 1, .settle] (utf8 "{{A}}") rfl rfl (by decide) rfl rfl rfl
      (by decide +kernel) (.inl (by decide +kernel)) (by decide +kernel) (by decide +kernel)
  refine ⟨report, ok, ?_, ?_⟩
  · exact (generated 0 _ _ rfl (by decide +kernel)).2 (by decide +kernel)
  · exact (generated 1 _ _ rfl (by decide +kernel)).2 (by decide +kernel)

end Run

/-- The row whose name is a number of letters. -/
def Row.lettered (count : Nat) : Row := .named (String.ofList (List.replicate count 'n')) "x"

/-- A row whose name is short enough, but not with what is added for the temporary file, is not
generated although nothing else is in its way. -/
theorem Run.process_tight :
    ∃ (request : Request) (path : Path), request.rows = [.lettered 240] ∧
      request.errorPolicy = .continue ∧ request.duplicatePolicy = .overwrite ∧
      World.pattern.tree.read request.template = .ok (utf8 "{{A}}") ∧
      request.directory.isEmpty = true ∧ request.SparesTemplate World.pattern.tree ∧
      request.VacantTemporaries World.pattern.tree ∧
      request.resolve (.lettered 240) 0 = .ok path ∧
      World.pattern.tree.isDirectory path = false ∧
      (path.fileName?.getD []).length ≤ FileTree.nameLimit ∧
      ((process [] request).run .pattern).1.map Report.generatedCount = .ok 0 := by
  refine ⟨{ template := ⟨utf8 "pattern"⟩, rows := [.lettered 240] }, ⟨List.replicate 240 0x6E⟩,
    rfl, rfl, rfl, rfl, ?_⟩
  decide +kernel

end MailMerge
