import MailMerge.Proofs.Run.OneByOne
import MailMerge.Proofs.Run.Reports
import MailMerge.Proofs.Tree.Templates

/-!
# Files that are written over

When several rows have the same destination they are run one at a time, and the last of them has the
last word: its file is there in the end.  What it has been made of is another matter.  A row reads
the template anew, so a row whose file takes the place of the template changes what all later rows
read.  The file of a row is therefore made from the template as filled, in turn, by the earlier rows
whose destination is the template (`Site.Passage.final`).

In fixed mode without an output directory these are all earlier rows.  Then the template holds, in
the end, what all rows have made of it in turn, the first row first (`Run.read_process_shared`), and
not what the last row would have made of the template as it was (`Run.process_inPlace`).
-/

namespace MailMerge

open Run (Assignment Schedule)

set_option autoImplicit false

/-- What some rows make of a template in turn: each row fills what the row before it has made. -/
def Template.renderAll (rows : List Row) (content : Bytes) : Except Utf8.DecodeError Bytes :=
  rows.foldlM (fun octets row => render row octets) content

theorem Template.renderAll_append (first second : List Row) (content : Bytes) :
    renderAll (first ++ second) content =
      (renderAll first content).bind fun octets => renderAll second octets :=
  List.foldlM_append

theorem Template.renderAll_cons {row : Row} {content octets : Bytes}
    (rendered : render row content = .ok octets) (rows : List Row) :
    renderAll (row :: rows) content = renderAll rows octets := by
  rw [renderAll, List.foldlM_cons, rendered]
  rfl

namespace Site

variable {site : Site} {assignment : Assignment}

/-! ## What a passage leaves of the template -/

/-- The rows whose files take the place of the template. -/
def replacing (site : Site) (items : List Assignment) : List Row :=
  (items.filter fun assignment => site.home? assignment == some site.mark).map (·.row)

theorem replacing_cons (assignment : Assignment) (items : List Assignment) :
    site.replacing (assignment :: items) =
      if site.home? assignment = some site.mark then assignment.row :: site.replacing items
      else site.replacing items := by
  simp only [replacing, List.filter_cons, beq_iff_eq]
  split <;> rfl

/-- If no temporary file is in its way, the template is there in the end, as filled in turn by the
rows whose files take its place. -/
theorem Passage.template_filled {first last : Files} {items : List Assignment} {content : Bytes}
    (passage : site.Passage first items last)
    (apart : ∀ assignment ∈ items, site.spot? assignment ≠ some site.mark)
    (template : first site.mark = some content) :
    ∃ octets, last site.mark = some octets ∧
      Template.renderAll (site.replacing items) content = .ok octets := by
  induction passage generalizing content with
  | nil => exact ⟨content, template, rfl⟩
  | @cons files last assignment rest name spot home octets passes _ ih =>
    have elsewhere : spot ≠ site.mark := fun same =>
      apart assignment List.mem_cons_self (same ▸ passes.spot?)
    have later := fun other member => apart other (List.mem_cons_of_mem assignment member)
    rw [replacing_cons, passes.home?]
    by_cases here : home = site.mark
    · subst here
      rw [if_pos rfl, Template.renderAll_cons (passes.render elsewhere template)]
      exact ih later (Function.update_self ..)
    · rw [if_neg fun same => here (Option.some.inj same)]
      refine ih later ?_
      rwa [Function.update_of_ne (Ne.symm here), Function.update_of_ne elsewhere.symm]

theorem Passage.exists_of_append {first last : Files} {done rest : List Assignment}
    (passage : site.Passage first (done ++ assignment :: rest) last) :
    ∃ middle name spot home octets, site.Passage first done middle ∧
      site.Passes assignment name spot home octets middle ∧
      site.Passage (Function.update (Function.update middle spot none) home (some octets)) rest
        last := by
  induction done generalizing first with
  | nil =>
    cases passage with
    | cons passes passage => exact ⟨first, _, _, _, _, .nil, passes, passage⟩
  | cons earlier done ih =>
    cases passage with
    | cons passes passage =>
      obtain ⟨middle, name, spot, home, octets, before, here, behind⟩ := ih passage
      exact ⟨middle, name, spot, home, octets, .cons passes before, here, behind⟩

/-- The file of a row behind which nothing meets it is there in the end, made from the template as
the rows before have left it. -/
theorem Passage.final {first last : Files} {done rest : List Assignment} {content : Bytes}
    {home : Location} (passage : site.Passage first (done ++ assignment :: rest) last)
    (apart : ∀ other ∈ done ++ [assignment], site.spot? other ≠ some site.mark)
    (template : first site.mark = some content) (located : site.home? assignment = some home)
    (spared : ∀ later ∈ rest, site.home? later ≠ some home)
    (clear : ∀ later ∈ rest, site.spot? later ≠ some home) :
    ∃ octets, last home = some octets ∧
      Template.renderAll (site.replacing done ++ [assignment.row]) content = .ok octets := by
  obtain ⟨middle, name, spot, home', octets, before, passes, behind⟩ := passage.exists_of_append
  obtain rfl := Option.some.inj (located.symm.trans passes.home?)
  have elsewhere : spot ≠ site.mark := fun same =>
    apart assignment (by simp) (same ▸ passes.spot?)
  obtain ⟨found, there, filled⟩ := before.template_filled
    (fun other member => apart other (List.mem_append_left _ member)) template
  refine ⟨octets, (behind.eq_first spared clear).trans (Function.update_self ..), ?_⟩
  rw [Template.renderAll_append, filled]
  exact Template.renderAll_cons (passes.render elsewhere there) []

theorem Passage.exists_passes {first last : Files} {items : List Assignment}
    (passage : site.Passage first items last) (member : assignment ∈ items) :
    ∃ name spot home octets files, site.Passes assignment name spot home octets files := by
  obtain ⟨done, rest, rfl⟩ := List.append_of_mem member
  obtain ⟨middle, name, spot, home, octets, _, passes, _⟩ := passage.exists_of_append
  exact ⟨name, spot, home, octets, middle, passes⟩

/-- The temporary file of a row is not where its file will be, because its name is longer. -/
theorem Passes.spot_ne_home {name octets : Bytes} {spot home : Location} {files : Files}
    (passes : site.Passes assignment name spot home octets files) : spot ≠ home := by
  rintro rfl
  have plain := passes.chosen.plain
  have temporary := passes.temporary
  rw [Path.temporary_join site.directory plain] at temporary
  obtain ⟨_, _, above, here⟩ :=
    FileTree.exists_of_location?_join (Path.isPlain_temporaryName plain _) temporary
  obtain ⟨_, _, above', there⟩ := FileTree.exists_of_location?_join plain passes.destination
  exact Path.temporaryName_ne name assignment.index (List.cons.inj (here.symm.trans there)).1

/-- What the template's path reads in the end is the file at its location. -/
theorem Sole.read_template {files : Files} {tree : FileTree} (sole : site.Sole files tree)
    (grounded : site.Grounded) {octets : Bytes} (there : files site.mark = some octets) :
    tree.read site.template = .ok octets :=
  FileTree.read_of_target (FileTree.target_mono sole.base sole.kept grounded.target)
    ((sole.contents site.mark).trans there)

end Site

/-! ## Requests -/

namespace Request

variable {request : Request} {tree : FileTree} {mark : Location}

/-- No temporary file is where the template is or where a destination leads. -/
def TemporariesApart (request : Request) (tree : FileTree) : Prop :=
  ∀ assignment ∈ request.planned, ∀ destination, assignment.destination = .ok destination →
    ∀ location,
      tree.location? (Destination.temporary destination assignment.index) = some location →
      tree.location? request.template ≠ some location ∧ ∀ other ∈ request.planned, ∀ path,
        other.destination = .ok path → tree.location? path ≠ some location

instance (request : Request) (tree : FileTree) : Decidable (request.TemporariesApart tree) :=
  inferInstanceAs (Decidable (∀ assignment ∈ request.planned,
    ∀ destination, assignment.destination = .ok destination →
      ∀ location ∈ tree.location? (Destination.temporary destination assignment.index),
        tree.location? request.template ≠ some location ∧ ∀ other ∈ request.planned, ∀ path,
          other.destination = .ok path → tree.location? path ≠ some location))

/-- The rows among the first ones whose destination is the template. -/
def replacing (request : Request) (tree : FileTree) (count : Nat) : List Row :=
  ((request.planned.take count).filter fun assignment =>
    match assignment.destination with
    | .ok path => tree.location? path == tree.location? request.template
    | .error _ => false).map (·.row)

theorem replacing_site (located : tree.location? request.template = some mark) (count : Nat) :
    (request.site tree mark).replacing (request.planned.take count) =
      request.replacing tree count := by
  unfold Site.replacing replacing
  congr 2
  funext assignment
  rw [Site.home?, located]
  cases assignment.destination with
  | ok path => rfl
  | error failure => rfl

theorem map_row_planned (request : Request) : request.planned.map (·.row) = request.rows := by
  refine List.ext_getElem (by simp [length_planned]) ?_
  intro position inside inside'
  rw [List.length_map] at inside
  obtain ⟨_, row, _⟩ := getElem?_planned (List.getElem?_eq_getElem inside)
  rw [List.getElem_map]
  exact (Option.some.inj ((List.getElem?_eq_getElem inside').symm.trans row)).symm

end Request

namespace Run

variable {request : Request} {world : World} {schedule : Schedule} {report : Report}

/-- When as many rows are generated as there are, every row is. -/
theorem exists_outcome_of_generated (ok : ((process schedule request).run world).1 = .ok report)
    (generated : report.generatedCount = request.rows.length) {position : Nat}
    (inside : position < request.rows.length) :
    ∃ path, report.outcomes[position]? = some ⟨position, .ok path⟩ := by
  have shape := shape_of_process ok
  have whole : report.generatedCount = report.outcomes.length :=
    Nat.le_antisymm List.countP_le_length (generated ▸ shape.few)
  obtain ⟨⟨index, result⟩, found⟩ : ∃ outcome, report.outcomes[position]? = some outcome :=
    ⟨_, List.getElem?_eq_getElem (by omega)⟩
  obtain rfl : index = position := shape.indices position _ found
  obtain ⟨path, rfl⟩ := Report.generatedCount_eq_length.1 whole _ (List.mem_of_getElem? found)
  exact ⟨path, found⟩

/-- In fixed mode rows never run at the same time, unless one of them fails. -/
theorem alone_of_fixed (ok : ((process schedule request).run world).1 = .ok report)
    (generated : report.generatedCount = request.rows.length) {path : Path}
    (fixed : ∀ row index, request.resolve row index = .ok path) :
    request.width = 1 ∨ request.rows.length ≤ 1 := by
  by_cases few : request.rows.length ≤ 1
  · exact .inr few
  · have planned : ∀ position < request.rows.length,
        request.plan.destinations[position]? = some (.ok path) := by
      intro position inside
      obtain ⟨other, found⟩ := exists_outcome_of_generated ok generated inside
      have chosen := plan_of_outcome ok found
      have resolved := (Request.planned_of_getElem? chosen).goes.resolve
        (List.getElem?_eq_getElem inside)
      rw [fixed] at resolved
      rw [chosen, Except.ok.inj resolved]
    exact .inl (Request.width_of_shared Nat.zero_lt_one (planned 0 (by omega)) (planned 1 (by omega)))

/-- In fixed mode without an output directory all rows have the template as their destination, up to
the spelling of the directory. -/
theorem exists_resolve_fixed {tree : FileTree} {mark : Location}
    (grounded : (request.site tree mark).Grounded) (fixed : request.naming = .fixed)
    (beside : request.outputDir = none) {name : String}
    (named : request.template.fileName? = some (utf8 name)) :
    ∃ home : Path, Path.IsPlain (utf8 name) ∧ request.template = home.join ⟨utf8 name⟩ ∧
      ∀ row index, request.resolve row index = .ok (home.trimmed.join ⟨utf8 name⟩) := by
  obtain ⟨home, plain, joined, _, resolves⟩ := Destination.resolve_fixed grounded.target named
  refine ⟨home, plain, joined, fun row index => ?_⟩
  rw [Request.resolve, fixed, beside]
  exact resolves row index

/-- So every row leaves its file in the place of the template. -/
theorem exists_passes_fixed {mark : Location} {files : Files}
    (grounded : (request.site world.tree mark).Grounded) (fixed : request.naming = .fixed)
    (beside : request.outputDir = none) {name : String}
    (named : request.template.fileName? = some (utf8 name))
    (complete : (request.site world.tree mark).Complete request.planned files report
      ((process schedule request).run world).2)
    {assignment : Assignment} (member : assignment ∈ request.planned) :
    ∃ name spot octets files,
      (request.site world.tree mark).Passes assignment name spot mark octets files := by
  obtain ⟨home, plain, joined, resolve⟩ := exists_resolve_fixed grounded fixed beside named
  have located := Request.location?_of_grounded grounded
  obtain ⟨name', spot, home', octets, files, passes⟩ := complete.passage.exists_passes member
  obtain ⟨position, found⟩ := List.getElem?_of_mem member
  have resolved := Request.resolve_of_planned found passes.chosen.destination
  rw [resolve] at resolved
  have destination := passes.destination
  rw [← Except.ok.inj resolved] at destination
  rw [joined] at located
  obtain rfl := FileTree.location?_trimmed plain located destination
  exact ⟨name', spot, octets, files, passes⟩

/-- In fixed mode without an output directory all rows write to the template, which holds in the end
what they have made of it in turn. -/
theorem read_process_fixed {content : Bytes} (there : world.tree.read request.template = .ok content)
    (ok : ((process schedule request).run world).1 = .ok report)
    (generated : report.generatedCount = request.rows.length) (fixed : request.naming = .fixed)
    (beside : request.outputDir = none) {name : String}
    (named : request.template.fileName? = some (utf8 name)) :
    ∃ octets, Template.renderAll request.rows content = .ok octets ∧
      ((process schedule request).run world).2.tree.read request.template = .ok octets ∧
      ∀ (position : Nat) (path : Path), report.outcomes[position]? = some ⟨position, .ok path⟩ →
        ((process schedule request).run world).2.tree.read path = .ok octets := by
  obtain ⟨mark, grounded⟩ := Request.exists_grounded_of_accepted (accepted_of_process ok)
  obtain ⟨_, _, _, resolve⟩ := exists_resolve_fixed grounded fixed beside named
  obtain ⟨files, complete⟩ := complete_process_alone (alone_of_fixed ok generated resolve)
    (Request.location?_of_grounded grounded) ok generated
  have homes := fun assignment member =>
    @exists_passes_fixed _ _ _ _ _ _ grounded fixed beside _ named complete assignment member
  have apart : ∀ assignment ∈ request.planned,
      (request.site world.tree mark).spot? assignment ≠ some mark := by
    intro assignment member same
    obtain ⟨_, spot, octets, files, passes⟩ := homes assignment member
    exact passes.spot_ne_home (Option.some.inj (passes.spot?.symm.trans same))
  obtain ⟨octets, final, filled⟩ :=
    complete.passage.template_filled apart (Request.content?_of_read grounded there)
  have whole : (request.site world.tree mark).replacing request.planned = request.rows := by
    rw [Site.replacing, List.filter_eq_self.2, Request.map_row_planned]
    intro assignment member
    obtain ⟨_, spot, octets, files, passes⟩ := homes assignment member
    exact beq_iff_eq.2 passes.home?
  rw [whole] at filled
  refine ⟨octets, filled, complete.sole.read_template grounded final, ?_⟩
  intro position path found
  obtain ⟨assignment, inside, chosen⟩ := (complete.outcome_iff
    (fun _ _ planned => (Request.getElem?_planned planned).1) position path).1 found
  have member := List.mem_of_getElem? inside
  obtain ⟨_, spot, _, _, passes⟩ := homes assignment member
  obtain rfl := Except.ok.inj (chosen.symm.trans passes.chosen.destination)
  have reached := complete.reached (List.ne_nil_of_mem member)
  exact (complete.sole.read_iff reached passes.chosen.plain passes.destination).2 final

/-- In a complete run whose temporary files are not in the way, none of them has been where the
template is or where a generated file is. -/
theorem spot_ne_of_apart {mark : Location} {files : Files}
    (located : world.tree.location? request.template = some mark)
    (complete : (request.site world.tree mark).Complete request.planned files report
      ((process schedule request).run world).2)
    (apart : request.TemporariesApart world.tree) {assignment other : Assignment}
    (member : assignment ∈ request.planned) (member' : other ∈ request.planned) {spot : Location}
    (there : (request.site world.tree mark).spot? other = some spot) :
    spot ≠ mark ∧ (request.site world.tree mark).home? assignment ≠ some spot := by
  obtain ⟨name, _, _, _, _, passes⟩ := complete.passage.exists_passes member
  obtain ⟨name', _, _, _, _, passes'⟩ := complete.passage.exists_passes member'
  rw [Site.spot?_of_chosen passes'.chosen.destination] at there
  obtain ⟨template, homes⟩ := apart other member' _ passes'.chosen.destination spot there
  constructor
  · rintro rfl
    exact template located
  · rw [passes.home?, ← passes.destination]
    exact homes assignment member _ passes.chosen.destination

/-- When no temporary file is in the way, the last of the rows that share a destination has its file
there in the end, made from the template as the rows before it have left it. -/
theorem read_process_last {content : Bytes} (there : world.tree.read request.template = .ok content)
    (ok : ((process schedule request).run world).1 = .ok report)
    (generated : report.generatedCount = request.rows.length)
    (apart : request.TemporariesApart world.tree) {earlier position : Nat} {path : Path} {row : Row}
    (before : earlier < position)
    (shared : report.outcomes[earlier]? = some ⟨earlier, .ok path⟩)
    (here : report.outcomes[position]? = some ⟨position, .ok path⟩)
    (last : ∀ later, position < later → report.outcomes[later]? ≠ some ⟨later, .ok path⟩)
    (asked : request.rows[position]? = some row) :
    ∃ octets,
      Template.renderAll (request.replacing world.tree position ++ [row]) content = .ok octets ∧
      ((process schedule request).run world).2.tree.read path = .ok octets := by
  obtain ⟨mark, grounded⟩ := Request.exists_grounded_of_accepted (accepted_of_process ok)
  have located := Request.location?_of_grounded grounded
  have one := Request.width_of_shared before (plan_of_outcome ok shared) (plan_of_outcome ok here)
  obtain ⟨files, complete⟩ := complete_process_alone (.inl one) located ok generated
  have outcome := fun later other => @Site.Complete.outcome_iff _ _ _ _ _ complete
    (fun _ _ planned => (Request.getElem?_planned planned).1) later other
  obtain ⟨assignment, found, chosen⟩ := (outcome position path).1 here
  obtain rfl : row = assignment.row :=
    Option.some.inj (asked.symm.trans (Request.getElem?_planned found).2.1)
  have member := List.mem_of_getElem? found
  obtain ⟨name, _, home, _, _, passes⟩ := complete.passage.exists_passes member
  obtain rfl := Except.ok.inj (chosen.symm.trans passes.chosen.destination)
  have clear := fun other member' spot => @spot_ne_of_apart _ _ _ _ _ _ located complete apart
    assignment other member member' spot
  have spared : ∀ (later : Nat) (other : Assignment), position < later →
      request.planned[later]? = some other →
        (request.site world.tree mark).home? other ≠ some home := by
    intro later other behind planned same
    obtain ⟨name', _, _, _, _, passes'⟩ :=
      complete.passage.exists_passes (List.mem_of_getElem? planned)
    obtain rfl := Option.some.inj (same.symm.trans passes'.home?)
    obtain rfl := FileTree.eq_of_location?_join passes.chosen.plain passes'.chosen.plain
      passes.destination passes'.destination
    exact last later behind ((outcome later _).2 ⟨other, planned, passes'.chosen.destination⟩)
  have split := eq_take_append_cons_drop found
  have upTo : ∀ other ∈ request.planned.take position ++ [assignment],
      (request.site world.tree mark).spot? other ≠ some mark := by
    intro other early same
    rcases List.mem_append.1 early with done | own
    · exact (clear other (List.mem_of_mem_take done) _ same).1 rfl
    · exact (clear other (List.mem_singleton.1 own ▸ member) _ same).1 rfl
  have passage := complete.passage
  rw [split] at passage
  obtain ⟨octets, final, filled⟩ := passage.final upTo (Request.content?_of_read grounded there)
    passes.home? ((forall_mem_drop_iff request.planned position).2 spared)
    fun other behind same => (clear other (List.mem_of_mem_drop behind) _ same).2 passes.home?
  rw [Request.replacing_site located] at filled
  have reached := complete.reached (List.ne_nil_of_mem member)
  exact ⟨octets, filled,
    (complete.sole.read_iff reached passes.chosen.plain passes.destination).2 final⟩

/-- When all rows are generated, a destination that several rows share holds what the last of them
has made of the template, as the rows before it have left the template.  In fixed mode without an
output directory the shared destination is the template itself, so it holds what all rows have made
of it in turn. -/
theorem read_process_shared {content : Bytes}
    (there : world.tree.read request.template = .ok content)
    (ok : ((process schedule request).run world).1 = .ok report)
    (generated : report.generatedCount = request.rows.length) :
    (∀ name : String, request.naming = .fixed → request.outputDir = none →
      request.template.fileName? = some (utf8 name) →
        ∃ octets, Template.renderAll request.rows content = .ok octets ∧
          ((process schedule request).run world).2.tree.read request.template = .ok octets ∧
          ∀ (position : Nat) (path : Path),
            report.outcomes[position]? = some ⟨position, .ok path⟩ →
              ((process schedule request).run world).2.tree.read path = .ok octets) ∧
    (request.TemporariesApart world.tree →
      ∀ (earlier position : Nat) (path : Path) (row : Row), earlier < position →
        report.outcomes[earlier]? = some ⟨earlier, .ok path⟩ →
        report.outcomes[position]? = some ⟨position, .ok path⟩ →
        (∀ later, position < later → report.outcomes[later]? ≠ some ⟨later, .ok path⟩) →
        request.rows[position]? = some row →
          ∃ octets,
            Template.renderAll (request.replacing world.tree position ++ [row]) content =
              .ok octets ∧
            ((process schedule request).run world).2.tree.read path = .ok octets) := by
  constructor
  · intro name fixed beside named
    exact read_process_fixed there ok generated fixed beside named
  · intro apart earlier position path row before shared here last asked
    exact read_process_last there ok generated apart before shared here last asked

end Run

/-- The request to fill the pattern in place, with one row after the other. -/
def Request.inPlace (first second : Row) : Request := { couple first second with naming := .fixed }

/-- The second row fills the placeholder that the first one has brought into the template; and a file
that is written twice holds what the second row has made of the template. -/
theorem Run.read_process_shared_couple :
    ((process [] (.inPlace (.ofPairs [("A", "{{B}}")]) (.ofPairs [("B", "y")]))).run
      .pattern).2.tree.read ⟨utf8 "pattern"⟩ = .ok (utf8 "y") ∧
    ((process [] (.couple (.named "a" "x") (.named "a" "y"))).run .pattern).2.tree.read
      ⟨utf8 "a"⟩ = .ok (utf8 "y") := by
  constructor
  · have ok : ((process [] (.inPlace (.ofPairs [("A", "{{B}}")]) (.ofPairs [("B", "y")]))).run
        .pattern).1 = .ok ⟨[⟨0, .ok ⟨utf8 "pattern"⟩⟩, ⟨1, .ok ⟨utf8 "pattern"⟩⟩], false⟩ := by
      decide +kernel
    obtain ⟨octets, filled, reading, _⟩ := (@read_process_shared _ .pattern _ _ (utf8 "{{A}}")
      (by decide +kernel) ok rfl).1 "pattern" rfl rfl (by decide +kernel)
    have text : Template.renderAll [.ofPairs [("A", "{{B}}")], .ofPairs [("B", "y")]]
        (utf8 "{{A}}") = .ok (utf8 "y") := by decide +kernel
    obtain rfl := Except.ok.inj (filled.symm.trans text)
    exact reading
  · have ok : ((process [] (.couple (.named "a" "x") (.named "a" "y"))).run .pattern).1 =
        .ok ⟨[⟨0, .ok ⟨utf8 "a"⟩⟩, ⟨1, .ok ⟨utf8 "a"⟩⟩], false⟩ := by decide +kernel
    obtain ⟨octets, filled, reading⟩ := (@read_process_shared _ .pattern _ _ (utf8 "{{A}}")
      (by decide +kernel) ok rfl).2 (by decide +kernel) 0 1 ⟨utf8 "a"⟩ (.named "a" "y") (by decide)
      rfl rfl (fun later behind => by
        rw [List.getElem?_eq_none (show 2 ≤ later from behind)]
        simp) rfl
    have text : Template.renderAll ((Request.couple (.named "a" "x") (.named "a" "y")).replacing
        World.pattern.tree 1 ++ [.named "a" "y"]) (utf8 "{{A}}") = .ok (utf8 "y") := by
      decide +kernel
    obtain rfl := Except.ok.inj (filled.symm.trans text)
    exact reading

/-- The last of the rows that fill a template in place need not find a placeholder in it any more, so
the template does not end up as that row alone would have filled it. -/
theorem Run.process_inPlace :
    ((process [] (.inPlace (.ofPairs [("A", "x")]) (.ofPairs [("A", "y")]))).run .pattern).1 =
      .ok ⟨[⟨0, .ok ⟨utf8 "pattern"⟩⟩, ⟨1, .ok ⟨utf8 "pattern"⟩⟩], false⟩ ∧
    ((process [] (.inPlace (.ofPairs [("A", "x")]) (.ofPairs [("A", "y")]))).run
      .pattern).2.tree.read ⟨utf8 "pattern"⟩ = .ok (utf8 "x") ∧
    Template.render (.ofPairs [("A", "y")]) (utf8 "{{A}}") = .ok (utf8 "y") := by
  decide +kernel

end MailMerge
