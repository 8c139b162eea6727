import MailMerge.Proofs.Run.Prefixes
import MailMerge.Proofs.Run.Passage

/-!
# Temporary files in the way of finished ones

A temporary file has a name of its own in the directory of the files, but nothing keeps a row from
having that very name.  When rows run one at a time, all with different destinations and none with
the template's, and all of them are reported as generated, a row's file is still there in the end if
and only if it has not been in the way of a later row's temporary file (`Run.read_process_iff`).
Whether it has is decided by the plan alone, before anything is done.

Otherwise the file is lost without any failure being reported (`Run.process_colliding`).
-/

namespace MailMerge

open Run (Assignment Schedule)

set_option autoImplicit false

namespace Site

variable {site : Site} {assignment : Assignment}

/-- The location of the file of an assignment. -/
def home? (site : Site) (assignment : Assignment) : Option Location :=
  match assignment.destination with
  | .ok destination => site.before.location? destination
  | .error _ => none

section Passes

variable {name : Bytes} {spot home : Location} {octets : Bytes} {files : Files}

theorem Passes.spot? (passes : site.Passes assignment name spot home octets files) :
    site.spot? assignment = some spot := by
  rw [spot?_of_chosen passes.chosen.destination, passes.temporary]

theorem Passes.home? (passes : site.Passes assignment name spot home octets files) :
    site.home? assignment = some home := by
  rw [Site.home?, passes.chosen.destination, ← passes.destination]

/-- A row whose temporary file is in the way of the template finds nothing to write. -/
theorem Passes.eq_nil (passes : site.Passes assignment name site.mark home octets files) :
    octets = [] := by
  obtain ⟨content, there, rendered⟩ := passes.filled
  rw [Function.update_self] at there
  obtain rfl := Option.some.inj there
  exact (Except.ok.inj rendered).symm

theorem Passes.render (passes : site.Passes assignment name spot home octets files)
    (apart : spot ≠ site.mark) {content : Bytes} (template : files site.mark = some content) :
    Template.render assignment.row content = .ok octets := by
  obtain ⟨content', there, rendered⟩ := passes.filled
  rw [Function.update_of_ne apart.symm, template] at there
  exact Option.some.inj there ▸ rendered

end Passes

/-! ## What a passage leaves at a location -/

/-- A file that is in the way of a temporary file is lost. -/
theorem Passage.eq_none {first last : Files} {rest : List Assignment}
    (passage : site.Passage first rest last) {location : Location}
    (spared : ∀ assignment ∈ rest, site.home? assignment ≠ some location)
    (lost : first location = none ∨
      ∃ assignment ∈ rest, site.spot? assignment = some location) : last location = none := by
  induction passage with
  | nil => exact lost.resolve_right (by simp)
  | @cons files last assignment rest name spot home octets passes _ ih =>
    refine ih (fun other member => spared other (List.mem_cons_of_mem _ member)) ?_
    have home : location ≠ home := fun same =>
      spared assignment List.mem_cons_self (same ▸ passes.home?)
    rw [Function.update_of_ne home, Function.update_apply]
    split_ifs with here
    · exact .inl rfl
    · refine lost.imp_right fun ⟨other, member, found⟩ => ?_
      rcases List.mem_cons.1 member with rfl | later
      · exact absurd (Option.some.inj (found.symm.trans passes.spot?)) here
      · exact ⟨other, later, found⟩

/-- A file at any other location stays. -/
theorem Passage.eq_first {first last : Files} {rest : List Assignment}
    (passage : site.Passage first rest last) {location : Location}
    (spared : ∀ assignment ∈ rest, site.home? assignment ≠ some location)
    (apart : ∀ assignment ∈ rest, site.spot? assignment ≠ some location) :
    last location = first location := by
  induction passage with
  | nil => rfl
  | @cons files last assignment rest name spot home octets passes _ ih =>
    rw [ih (fun other member => spared other (List.mem_cons_of_mem _ member))
      fun other member => apart other (List.mem_cons_of_mem _ member)]
    have home : location ≠ home := fun same =>
      spared assignment List.mem_cons_self (same ▸ passes.home?)
    have spot : location ≠ spot := fun same =>
      apart assignment List.mem_cons_self (same ▸ passes.spot?)
    rw [Function.update_of_ne home, Function.update_of_ne spot]

/-! ## What a row finds and what is left of its file -/

/-- The rows of a run whose files do not meet each other nor the template. -/
structure Scattered (site : Site) (items : List Assignment) : Prop where
  laid : site.Laid items
  indices : items.Pairwise fun left right => left.index ≠ right.index
  homes : items.Pairwise fun left right =>
    ∀ location, site.home? left = some location → site.home? right ≠ some location
  spared : ∀ assignment ∈ items, site.home? assignment ≠ some site.mark

theorem Scattered.tail {items : List Assignment}
    (scattered : site.Scattered (assignment :: items)) :
    site.Scattered items where
  laid := ⟨scattered.laid.located, fun other member =>
    scattered.laid.enters other (List.mem_cons_of_mem _ member)⟩
  indices := (List.pairwise_cons.1 scattered.indices).2
  homes := (List.pairwise_cons.1 scattered.homes).2
  spared other member := scattered.spared other (List.mem_cons_of_mem _ member)

/-- A row behind which another one is generated has left the template where it was. -/
theorem Passage.template {files last : Files} {next : Assignment} {rest : List Assignment}
    {name : Bytes} {spot home : Location} {octets content : Bytes}
    (scattered : site.Scattered (assignment :: next :: rest))
    (passes : site.Passes assignment name spot home octets files)
    (passage : site.Passage (Function.update (Function.update files spot none) home (some octets))
      (next :: rest) last) (template : files site.mark = some content) :
    Function.update (Function.update files spot none) home (some octets) site.mark =
      some content := by
  have home : site.mark ≠ home := fun same =>
    scattered.spared assignment List.mem_cons_self (same ▸ passes.home?)
  rw [Function.update_of_ne home, Function.update_apply]
  split_ifs with here
  · -- The next row finds no template, unless its own temporary file is there.
    cases passage with
    | @cons _ _ _ _ _ spot' _ _ passes' _ =>
      obtain ⟨content', there, _⟩ := passes'.filled
      have apart : site.mark ≠ spot' := by
        intro same
        have enters := scattered.laid.enters
        exact spot?_ne (enters assignment (by simp)) (enters next (by simp))
          ((List.pairwise_cons.1 scattered.indices).1 next List.mem_cons_self) passes.spot?
          (passes'.spot?.trans (congrArg some (same.symm.trans here)))
      rw [Function.update_of_ne apart, Function.update_of_ne home, here,
        Function.update_self] at there
      exact absurd there (by simp)
  · exact template

/-- Every row of a passage has found the template as it was at the beginning. -/
theorem Passage.split {first last : Files} {done rest : List Assignment} {content : Bytes}
    (passage : site.Passage first (done ++ assignment :: rest) last)
    (scattered : site.Scattered (done ++ assignment :: rest))
    (template : first site.mark = some content) :
    ∃ middle name spot home octets, middle site.mark = some content ∧
      site.Passes assignment name spot home octets middle ∧
      site.Passage (Function.update (Function.update middle spot none) home (some octets)) rest
        last := by
  induction done generalizing first with
  | nil =>
    cases passage with
    | cons passes passage => exact ⟨first, _, _, _, _, template, passes, passage⟩
  | cons earlier done ih =>
    cases passage with
    | cons passes passage =>
      refine ih passage scattered.tail ?_
      obtain ⟨next, more, same⟩ : ∃ next more, done ++ assignment :: rest = next :: more := by
        cases done <;> exact ⟨_, _, rfl⟩
      rw [List.cons_append, same] at scattered
      have passage' : site.Passage _ (done ++ assignment :: rest) last := passage
      exact Passage.template scattered passes (same ▸ passage') template

/-- The file of a row is there in the end, with the text of the template, if and only if no later
row has its temporary file there and the row's own temporary file was not in the way of the
template, or it would have been empty anyway. -/
theorem Passage.holds_iff {first last : Files} {done rest : List Assignment} {content : Bytes}
    {home : Location} (passage : site.Passage first (done ++ assignment :: rest) last)
    (scattered : site.Scattered (done ++ assignment :: rest))
    (template : first site.mark = some content) (located : site.home? assignment = some home) :
    (∃ octets, last home = some octets ∧ Template.render assignment.row content = .ok octets) ↔
      (∀ later ∈ rest, site.spot? later ≠ some home) ∧
        (site.spot? assignment = some site.mark →
          Template.render assignment.row content = .ok []) := by
  obtain ⟨middle, name, spot, home', octets, template', passes, after⟩ :=
    passage.split scattered template
  obtain rfl := Option.some.inj (located.symm.trans passes.home?)
  have spared : ∀ later ∈ rest, site.home? later ≠ some home := by
    have homes := (List.pairwise_append.1 scattered.homes).2.1
    exact fun later member => (List.pairwise_cons.1 homes).1 later member home located
  have kept : (∀ later ∈ rest, site.spot? later ≠ some home) → last home = some octets :=
    fun apart => (after.eq_first spared apart).trans (Function.update_self ..)
  constructor
  · rintro ⟨octets', there, rendered⟩
    have apart : ∀ later ∈ rest, site.spot? later ≠ some home := by
      intro later member found
      rw [after.eq_none spared (.inr ⟨later, member, found⟩)] at there
      exact absurd there (by simp)
    refine ⟨apart, fun drained => ?_⟩
    obtain rfl := Option.some.inj (drained.symm.trans passes.spot?)
    rw [rendered, Option.some.inj (there.symm.trans (kept apart)), passes.eq_nil]
  · rintro ⟨apart, blank⟩
    refine ⟨octets, kept apart, ?_⟩
    by_cases drained : spot = site.mark
    · subst drained
      rw [blank passes.spot?, passes.eq_nil]
    · exact passes.render drained template'

end Site

namespace Request

variable {request : Request} {tree : FileTree} {mark : Location}

/-! ## Runs of requests -/

theorem enters_planned {assignment : Assignment} (member : assignment ∈ request.planned) :
    (request.site tree mark).Enters assignment :=
  fun _ chosen => exists_plain_of_mem_plan (chosen ▸ mem_plan_of_mem_planned member)

/-- Rows with different destinations, none of them the template's, do not meet. -/
theorem scattered_planned (located : tree.location? request.template = some mark)
    (distinct : request.plan.destinations.Nodup) (spares : request.SparesTemplate tree) :
    (request.site tree mark).Scattered request.planned where
  laid := ⟨located, fun _ => enters_planned⟩
  indices := pairwise_planned
  homes := by
    rw [List.pairwise_iff_getElem]
    intro first second inFirst inSecond before location found found'
    have here := (getElem?_planned (List.getElem?_eq_getElem inFirst)).2.2
    have there := (getElem?_planned (List.getElem?_eq_getElem inSecond)).2.2
    have enters := @enters_planned request tree mark _ (List.getElem_mem inFirst)
    have enters' := @enters_planned request tree mark _ (List.getElem_mem inSecond)
    unfold Site.home? at found found'
    split at found
    case h_2 => simp at found
    case h_1 destination chosen =>
      split at found'
      case h_2 => simp at found'
      case h_1 destination' chosen' =>
        obtain ⟨name, plain, rfl⟩ := enters _ chosen
        obtain ⟨name', plain', rfl⟩ := enters' _ chosen'
        obtain rfl := FileTree.eq_of_location?_join plain plain' found found'
        rw [chosen, ← chosen', ← there] at here
        have inside := (List.getElem?_eq_some_iff.1 there).1
        exact Nat.ne_of_lt before ((List.getElem?_inj (by omega) distinct).1 here)
  spared assignment member found := by
    unfold Site.home? at found
    split at found
    case h_2 => simp at found
    case h_1 destination chosen =>
      exact spares mark located assignment member destination chosen found

end Request

/-- What is reported of a complete run is what was planned. -/
theorem Site.Complete.outcome_iff {site : Site} {items : List Assignment} {files : Files}
    {report : Report} {world : World} (complete : site.Complete items files report world)
    (indices : ∀ (position : Nat) (assignment : Assignment), items[position]? = some assignment →
      assignment.index = position) (position : Nat) (path : Path) :
    report.outcomes[position]? = some ⟨position, .ok path⟩ ↔
      ∃ assignment, items[position]? = some assignment ∧ assignment.destination = .ok path := by
  rw [complete.outcomes, List.getElem?_map, Option.map_eq_some_iff]
  refine exists_congr fun assignment => and_congr_right fun found => ?_
  rw [indices position assignment found, Outcome.mk.injEq]
  exact and_iff_right rfl

theorem Request.laid_assigned {request : Request} {tree : FileTree} {mark : Location}
    (located : tree.location? request.template = some mark) :
    (request.site tree mark).Laid request.assigned := by
  obtain ⟨count, assigned⟩ := request.assigned_eq_take
  exact ⟨located, fun assignment member =>
    Request.enters_planned (List.mem_of_mem_take (assigned ▸ member))⟩

/-- A run is complete if generating its rows is. -/
theorem Run.complete_process_of {request : Request} {world : World} {mark : Location}
    {schedule : Schedule} {report : Report}
    (complete : ∀ early : World, early.tree = world.tree →
      request.assigned.length ≤ ((generate schedule request).run early).1.generatedCount →
        ∃ files, (request.site world.tree mark).Complete request.assigned files
          ((generate schedule request).run early).1 ((generate schedule request).run early).2)
    (ok : ((process schedule request).run world).1 = .ok report)
    (generated : report.generatedCount = request.rows.length) :
    ∃ files, (request.site world.tree mark).Complete request.planned files report
      ((process schedule request).run world).2 := by
  obtain ⟨early, begins, rfl⟩ := exists_begins_of_process ok
  obtain ⟨count, assigned⟩ := request.assigned_eq_take
  have fewer : request.assigned.length ≤ request.rows.length := by
    rw [assigned, ← request.length_planned]
    exact List.length_take_le' ..
  obtain ⟨files, complete⟩ := complete early begins.tree (generated ▸ fewer)
  have whole : request.assigned = request.planned := by
    have enough : request.rows.length ≤ request.assigned.length := by
      rw [← generated, ← List.length_map (fun assignment : Assignment =>
        (⟨assignment.index, assignment.destination⟩ : Outcome)), ← complete.outcomes]
      exact List.countP_le_length
    rw [assigned, List.length_take, request.length_planned] at enough
    rw [assigned, List.take_of_length_le (by rw [request.length_planned]; omega)]
  exact ⟨files, whole ▸ complete.of_tree begins.files⟩

/-- A run that has generated all its rows, one at a time, is complete. -/
theorem Run.complete_process {request : Request} {world : World} {mark : Location}
    {schedule : Schedule} {report : Report} (one : request.width = 1)
    (located : world.tree.location? request.template = some mark)
    (ok : ((process schedule request).run world).1 = .ok report)
    (generated : report.generatedCount = request.rows.length) :
    ∃ files, (request.site world.tree mark).Complete request.planned files report
      ((process schedule request).run world).2 :=
  complete_process_of (fun _ tree enough =>
    Site.complete_generate (Request.laid_assigned located) rfl tree one schedule enough) ok generated

/-- A list is what is before a position, the element there and what is behind it. -/
theorem eq_take_append_cons_drop {α : Type} {list : List α} {position : Nat} {a : α}
    (found : list[position]? = some a) :
    list = list.take position ++ a :: list.drop (position + 1) := by
  obtain ⟨inside, rfl⟩ := List.getElem?_eq_some_iff.1 found
  rw [← List.drop_eq_getElem_cons inside, List.take_append_drop]

/-- The rows behind a position are those at later positions. -/
theorem forall_mem_drop_iff {α : Type} {property : α → Prop} (list : List α) (position : Nat) :
    (∀ a ∈ list.drop (position + 1), property a) ↔
      ∀ (later : Nat) (a : α), position < later → list[later]? = some a → property a := by
  constructor
  · intro all later a behind found
    obtain ⟨between, rfl⟩ := Nat.exists_eq_add_of_lt behind
    refine all a (List.mem_iff_getElem?.2 ⟨between, ?_⟩)
    rw [List.getElem?_drop, ← found, Nat.add_right_comm]
  · intro all a member
    obtain ⟨offset, found⟩ := List.getElem?_of_mem member
    rw [List.getElem?_drop] at found
    exact all _ a (by omega) found

/-- When all rows are generated, one at a time, each under a destination of its own that is not the
template's, then a row's file is there in the end, with the row's text, if and only if no later row
has its temporary file at that place; and the row's own temporary file must not have been in the
way of the template, unless the text is empty. -/
theorem Run.read_process_iff {request : Request} {world : World} {schedule : Schedule}
    {content : Bytes} {report : Report} (one : request.concurrency = 1)
    (there : world.tree.read request.template = .ok content)
    (distinct : request.plan.destinations.Nodup) (spares : request.SparesTemplate world.tree)
    (ok : ((process schedule request).run world).1 = .ok report)
    (generated : report.generatedCount = request.rows.length) {position : Nat} {row : Row}
    (asked : request.rows[position]? = some row) :
    ∃ path, report.outcomes[position]? = some ⟨position, .ok path⟩ ∧
      ((∃ octets, ((process schedule request).run world).2.tree.read path = .ok octets ∧
          Template.render row content = .ok octets) ↔
        (∀ (later : Nat) (other : Path), position < later →
          report.outcomes[later]? = some ⟨later, .ok other⟩ →
            world.tree.location? (Destination.temporary other later) ≠
              world.tree.location? path) ∧
        (world.tree.location? (Destination.temporary path position) =
            world.tree.location? request.template → Template.render row content = .ok [])) := by
  obtain ⟨mark, grounded⟩ := Request.exists_grounded_of_accepted (accepted_of_process ok)
  have located := Request.location?_of_grounded grounded
  obtain ⟨files, complete⟩ :=
    complete_process (Request.width_of_concurrency_one one) located ok generated
  have inside : position < request.planned.length := by
    rw [request.length_planned]
    exact (List.getElem?_eq_some_iff.1 asked).1
  obtain ⟨assignment, found⟩ : ∃ assignment, request.planned[position]? = some assignment :=
    ⟨_, List.getElem?_eq_getElem inside⟩
  obtain ⟨index, row', _⟩ := Request.getElem?_planned found
  obtain rfl := Option.some.inj (asked.symm.trans row')
  have split := eq_take_append_cons_drop found
  have passage := complete.passage
  have scattered := Request.scattered_planned located distinct spares
  rw [split] at passage scattered
  obtain ⟨_, name, spot, home, _, _, passes, _⟩ :=
    passage.split scattered (Request.content?_of_read grounded there)
  have holds := passage.holds_iff scattered (Request.content?_of_read grounded there) passes.home?
  have outcome := fun later other => @Site.Complete.outcome_iff _ _ _ _ _ complete
    (fun _ _ found => (Request.getElem?_planned found).1) later other
  refine ⟨_, (outcome position _).2 ⟨assignment, found, passes.chosen.destination⟩, ?_⟩
  have reached := complete.reached (List.ne_nil_of_mem (List.mem_of_getElem? found))
  simp only [complete.sole.read_iff reached passes.chosen.plain passes.destination]
  rw [holds, forall_mem_drop_iff]
  refine and_congr ⟨fun apart later other behind reported => ?_,
    fun apart later assignment' behind found' spot => ?_⟩ ?_
  · obtain ⟨assignment', found', chosen⟩ := (outcome later other).1 reported
    have spot := @Site.spot?_of_chosen (request.site world.tree mark) _ _ chosen
    rw [(Request.getElem?_planned found').1] at spot
    exact fun same =>
      apart later assignment' behind found' (spot.trans (same.trans passes.destination))
  · obtain ⟨other, chosen, spot⟩ := Site.exists_of_spot? spot
    rw [(Request.getElem?_planned found').1] at spot
    exact apart later other behind ((outcome later other).2 ⟨assignment', found', chosen⟩)
      (spot.trans passes.destination.symm)
  · rw [located, Site.spot?_of_chosen passes.chosen.destination, index]
    rfl

/-- The request for two files, one of which has the name of the other's temporary file. -/
def Request.colliding : Request :=
  (couple (.named ".x.rowmerge-tmp-1" "1") (.named "x" "2")).oneByOne

theorem Run.read_process_iff_couple :
    ∃ path, ((process [] (Request.couple (.named "a" "x") (.named "b" "y")).oneByOne).run
        .pattern).1 = .ok ⟨[⟨0, .ok ⟨utf8 "a"⟩⟩, ⟨1, .ok path⟩], false⟩ ∧
      ((process [] (Request.couple (.named "a" "x") (.named "b" "y")).oneByOne).run
        .pattern).2.tree.read path = .ok (utf8 "y") := by
  have ok : ((process [] (Request.couple (.named "a" "x") (.named "b" "y")).oneByOne).run
      .pattern).1 = .ok ⟨[⟨0, .ok ⟨utf8 "a"⟩⟩, ⟨1, .ok ⟨utf8 "b"⟩⟩], false⟩ := by
    decide +kernel
  obtain ⟨path, reported, holds⟩ := @read_process_iff _ _ _ (utf8 "{{A}}") _ rfl
    (by decide +kernel) (by decide +kernel) (by decide +kernel) ok rfl 1 _ rfl
  obtain rfl : ⟨utf8 "b"⟩ = path := by simpa using reported
  obtain ⟨octets, reading, rendered⟩ := holds.2 ⟨fun later other behind found => by
    have none : later < 2 := (List.getElem?_eq_some_iff.1 found).1
    omega, by decide +kernel⟩
  have text : Template.render (.named "b" "y") (utf8 "{{A}}") = .ok (utf8 "y") := by decide +kernel
  obtain rfl := Except.ok.inj (rendered.symm.trans text)
  exact ⟨_, ok, reading⟩

/-- A file whose name a later row takes for its temporary file is lost, and both rows are reported
as generated. -/
theorem Run.process_colliding :
    (Request.colliding.concurrency = 1 ∧ Request.colliding.plan.destinations.Nodup ∧
      Request.colliding.SparesTemplate World.pattern.tree) ∧
    ((process [] .colliding).run .pattern).1 =
      .ok ⟨[⟨0, .ok ⟨utf8 ".x.rowmerge-tmp-1"⟩⟩, ⟨1, .ok ⟨utf8 "x"⟩⟩], false⟩ ∧
    ((process [] .colliding).run .pattern).2.tree.read ⟨utf8 ".x.rowmerge-tmp-1"⟩ =
      .error .notFound := by
  decide +kernel

end MailMerge
