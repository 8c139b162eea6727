import MailMerge.Proofs.Report
import MailMerge.Proofs.Run.Processing
import MailMerge.Proofs.Template.Lines

/-!
# What a run leaves behind

A file that was generated stays as it is unless a later row has the same path, since different paths
lead to different places (`Site.eq_of_landing`); so at every generated path there is the file of the
last row generated there (`Course.exists_last`), and as long as no row replaces the template all
rows have made their files of the same text.  Nowhere else is anything changed.

Together this says what a run does from the template and the rows to the files that are there in the
end, in whatever order the rows in the making take turns (`Run.files_of_process`).
-/

namespace MailMerge

open Run (Assignment Schedule)

set_option autoImplicit false

namespace Site

variable {site : Site}

/-! ## The last file at a path -/

/-- Different files of a directory are at different locations. -/
theorem eq_of_landing {left right : Assignment} (fitsLeft : site.Fits left)
    (fitsRight : site.Fits right) {one two : Path} (chosenLeft : left.destination = .ok one)
    (chosenRight : right.destination = .ok two) {location : Location}
    (landedLeft : site.ready.landing one = .ok location)
    (landedRight : site.ready.landing two = .ok location) : one = two := by
  obtain ⟨name, plain, rfl⟩ := fitsLeft.entry one chosenLeft
  obtain ⟨name', plain', rfl⟩ := fitsRight.entry two chosenRight
  rw [FileTree.eq_of_location?_join plain plain' (location?_of_landing landedLeft)
    (location?_of_landing landedRight)]

/-- The file that a row makes of a template is where the row's destination leads. -/
def Holds (site : Site) (content : Bytes) (assignment : Assignment) (path : Path) (files : Files) :
    Prop :=
  ∃ location octets, assignment.destination = .ok path ∧ site.ready.landing path = .ok location ∧
    files location = some octets ∧ Template.render assignment.row content = .ok octets

theorem Settles.holds {assignment : Assignment} {files later : Files} {path : Path}
    {content : Bytes} (template : files site.mark = some content)
    (settles : site.Settles assignment files (.ok path) later) :
    site.Holds content assignment path later := by
  cases settles with
  | @moved _ location content' octets chosen _ template' drafted landed =>
    obtain rfl := Option.some.inj (template.symm.trans template')
    refine ⟨location, octets, chosen, landed, Function.update_self .., ?_⟩
    unfold draft at drafted
    split at drafted
    · simp at drafted
    · split at drafted
      · simp at drafted
      · next rendered => rw [rendered, Except.ok.inj drafted]

/-- At a generated path there is the file of the last row generated there. -/
theorem Course.exists_last {first last : Files} {assignments : List Assignment}
    {outcomes : List Outcome} (course : site.Course first assignments outcomes last)
    (fits : ∀ assignment ∈ assignments, site.Fits assignment) {content : Bytes}
    (template : first site.mark = some content)
    (spared : ∀ assignment ∈ assignments, ∀ destination, assignment.destination = .ok destination →
      site.ready.landing destination ≠ .ok site.mark)
    {path : Path} (generated : ∃ outcome ∈ outcomes, outcome.result = .ok path) :
    ∃ (position : Nat) (assignment : Assignment), assignments[position]? = some assignment ∧
      outcomes[position]? = some ⟨assignment.index, .ok path⟩ ∧
      (∀ (later : Nat) (outcome : Outcome), position < later → outcomes[later]? = some outcome →
        outcome.result ≠ .ok path) ∧
      site.Holds content assignment path last := by
  induction course with
  | nil => simp at generated
  | @cons first second last assignment rest result outcomes settles course ih =>
    have template' : second site.mark = some content := by
      rw [← template]
      refine settles.eq_of_ne fun path ok => ?_
      obtain rfl := ok
      exact spared _ List.mem_cons_self path settles.chosen
    by_cases again : ∃ outcome ∈ outcomes, outcome.result = .ok path
    · obtain ⟨position, other, found, outcome, final, holds⟩ :=
        ih (fun other member => fits other (List.mem_cons_of_mem _ member)) template'
          (fun other member => spared other (List.mem_cons_of_mem _ member)) again
      refine ⟨position + 1, other, found, outcome, fun later outcome after here => ?_, holds⟩
      obtain ⟨later, rfl⟩ := Nat.exists_eq_add_one_of_ne_zero (Nat.ne_zero_of_lt after)
      exact final later outcome (by omega) here
    · push Not at again
      obtain ⟨outcome, member, ok⟩ := generated
      rcases List.mem_cons.1 member with rfl | later
      · change result = .ok path at ok
        subst ok
        refine ⟨0, assignment, rfl, rfl, fun later outcome after here => ?_, ?_⟩
        · obtain ⟨later, rfl⟩ := Nat.exists_eq_add_one_of_ne_zero (Nat.ne_zero_of_lt after)
          exact again outcome (List.mem_of_getElem? here)
        · obtain ⟨location, octets, chosen, landed, file, rendered⟩ := settles.holds template
          refine ⟨location, octets, chosen, landed, ?_, rendered⟩
          rw [← file]
          refine course.eq_of_ne fun outcome inside other ok landed' => ?_
          obtain ⟨assignment', inside', chosen'⟩ := course.exists_chosen inside ok
          have same := eq_of_landing (fits _ List.mem_cons_self)
            (fits _ (List.mem_cons_of_mem _ inside')) chosen chosen' landed landed'
          exact again outcome inside (same ▸ ok)
      · exact absurd ok (again outcome later)

/-! ## The files that are there in the end -/

section Ended

variable {policy : ErrorPolicy} {quiet : Prop} {items : List Assignment} {report : Report}
  {world : World}

/-- What is reported as generated can be read. -/
theorem Ended.read_of_holds (ended : site.Ended policy quiet items report world)
    (reached : site.Reached world.tree) {assignment : Assignment} (fits : site.Fits assignment)
    {content : Bytes} {path : Path}
    (holds : site.Holds content assignment path world.tree.content?) :
    ∃ octets, world.tree.read path = .ok octets ∧
      Template.render assignment.row content = .ok octets := by
  obtain ⟨location, octets, chosen, landed, file, rendered⟩ := holds
  have entry := fits.isEntry chosen
  obtain ⟨target, _⟩ := FileTree.target_of_landing landed
  rw [entry.noSlash, ← ended.amid.target_eq reached entry] at target
  refine ⟨octets, ?_, rendered⟩
  rw [FileTree.read, FileTree.find_of_target target file]

/-- Only where a path leads that is reported as generated, files have changed. -/
theorem Ended.content?_eq (ended : site.Ended policy quiet items report world)
    (fits : ∀ assignment ∈ items, site.Fits assignment) {location : Location}
    (elsewhere : ∀ path ∈ report.paths, world.tree.target path ≠ .ok (.place location false)) :
    world.tree.content? location = site.before.content? location := by
  obtain ⟨done, skipped, split, course, _⟩ := ended.course
  refine course.eq_of_ne fun outcome recorded path ok landed => ?_
  obtain ⟨assignment, member, chosen⟩ := course.exists_chosen recorded ok
  have entry := (fits assignment (split ▸ List.mem_append_left _ member)).isEntry chosen
  obtain ⟨target, _⟩ := FileTree.target_of_landing landed
  have reached := ended.reached ⟨outcome, recorded, path, ok⟩
  rw [entry.noSlash, ← ended.amid.target_eq reached entry] at target
  exact elsewhere path (Report.mem_paths.2 ⟨outcome, recorded, ok⟩) target

end Ended

end Site

namespace Request

variable {request : Request} {tree : FileTree} {mark : Location}

/-- A template that can be read and is text is no reason to refuse the request. -/
theorem refusal?_of_read {content : Bytes} (there : tree.read request.template = .ok content)
    (text : Utf8.isText content = true) : request.refusal? tree = none := by
  have kind : tree.kind request.template = .ok .file := by
    unfold FileTree.read at there
    split at there
    case h_1 found => simp [FileTree.kind, found, Entry.kind]
    case h_2 => simp at there
    case h_3 => simp at there
  rw [refusal?, kind, there]
  simp only [unreadable?]
  unfold Utf8.isText at text
  split at text
  case h_1 decoded => simp [decoded]
  case h_2 => simp at text

theorem content?_of_read (grounded : (request.site tree mark).Grounded) {content : Bytes}
    (there : tree.read request.template = .ok content) : tree.content? mark = some content := by
  unfold FileTree.read at there
  split at there
  case h_2 => simp at there
  case h_3 => simp at there
  case h_1 found =>
    obtain ⟨target, file⟩ := FileTree.target_of_find found
    obtain ⟨rfl, _⟩ := FileTree.Target.place.inj (Except.ok.inj (grounded.target.symm.trans target))
    exact file.trans (congrArg some (Except.ok.inj there))

end Request

/-- The whole of a run, from the template and the rows to the files: a run to the end that nobody
interrupts reports on every row; at each generated path there is the text of the template with every
line filled by the last row generated there; and everywhere else the files are as before. -/
theorem Run.files_of_process {request : Request} {world : World} {schedule : Schedule}
    {content : Bytes} (policy : request.errorPolicy = .continue)
    (silent : .interrupt ∉ schedule) (calm : world.cancelled = false)
    (patient : world.patience = none)
    (there : world.tree.read request.template = .ok content) (text : Utf8.isText content = true)
    (spares : request.SparesTemplate world.tree) (fresh : request.FreshTemporaries world.tree) :
    ∃ (report : Report) (lines : List Template.Line),
      ((process schedule request).run world).1 = .ok report ∧
      Template.lines content = lines.map .ok ∧ lines.flatMap Template.Line.bytes = content ∧
      report.cancelled = false ∧
      report.outcomes.map (·.index) = List.range request.rows.length ∧
      (∀ path ∈ report.paths, ∃ (position : Nat) (row : Row),
        report.outcomes[position]? = some ⟨position, .ok path⟩ ∧
        (∀ later : Nat, position < later → report.outcomes[later]? ≠ some ⟨later, .ok path⟩) ∧
        request.rows[position]? = some row ∧
        ((process schedule request).run world).2.tree.read path = .ok (lines.flatMap fun line =>
          utf8 (Template.substitute row line.content) ++ Utf8.encode line.ending.chars)) ∧
      ∀ location, (∀ path ∈ report.paths,
          ((process schedule request).run world).2.tree.target path ≠
            .ok (.place location false)) →
        ((process schedule request).run world).2.tree.content? location =
          world.tree.content? location := by
  have accepted := Request.refusal?_of_read there text
  obtain ⟨mark, grounded⟩ := Request.exists_grounded_of_accepted accepted
  obtain ⟨report, ok, ended⟩ := @ended_process request world mark True schedule accepted grounded
    fresh spares.keepsTemplate (fun _ => silent) fun _ => ⟨calm, patient⟩
  obtain ⟨lines, same, whole⟩ := Template.exists_lines text
  rw [policy, Request.assigned_of_continue policy] at ended
  have fits : ∀ assignment ∈ request.planned, (request.site world.tree mark).Fits assignment :=
    fun assignment => Request.fits_of_fresh fresh
  have course := ended.course_of_continue
  refine ⟨report, lines, ok, same, whole, ended.calm trivial, ?_, fun path generated => ?_,
    fun location elsewhere => ended.content?_eq fits elsewhere⟩
  · rw [course.indices, Request.indices_planned]
  · obtain ⟨outcome, recorded, path?⟩ := List.mem_filterMap.1 generated
    have result : outcome.result = .ok path := by
      unfold Outcome.path? at path?
      split at path?
      case h_1 result => rw [result, Option.some.inj path?]
      case h_2 => simp at path?
    obtain ⟨position, assignment, found, last, final, holds⟩ :=
      course.exists_last fits (Request.content?_of_read grounded there)
        (fun assignment member destination chosen landed => spares mark
          (Request.location?_of_grounded grounded) assignment member destination chosen
          (Site.location?_of_landing landed)) ⟨outcome, recorded, result⟩
    obtain ⟨index, row, _⟩ := Request.getElem?_planned found
    obtain ⟨octets, reading, rendered⟩ := ended.read_of_holds
      (ended.reached ⟨outcome, recorded, path, result⟩) (fits _ (List.mem_of_getElem? found)) holds
    refine ⟨position, assignment.row, index ▸ last, fun later after here => ?_, row, ?_⟩
    · exact final later _ after here rfl
    · rw [Template.render, same, Template.renderLines_ok] at rendered
      rw [reading, Except.ok.inj rendered]

/-- A world with nothing in it but a template of one placeholder. -/
def World.pattern : World := { tree := ⟨[([utf8 "pattern"], .file (utf8 "{{A}}"))], []⟩ }

/-- A row whose file has the given name, and the given value in it. -/
def Row.named (name value : String) : Row := .ofPairs [("FileName", name), ("A", value)]

/-- The request to fill the pattern with two rows at the same time. -/
def Request.couple (first second : Row) : Request where
  template := ⟨utf8 "pattern"⟩
  rows := [first, second]
  concurrency := 2

theorem Run.files_of_process_couple :
    ∃ (report : Report) (lines : List Template.Line),
      ((process [.advance 1, .settle] (.couple (.named "a" "x") (.named "b" "y"))).run
        .pattern).1 = .ok report ∧ Template.lines (utf8 "{{A}}") = lines.map .ok ∧
      report.cancelled = false ∧ report.outcomes.map (·.index) = [0, 1] := by
  obtain ⟨report, lines, ok, same, _, running, indices, _⟩ :=
    @files_of_process (.couple (.named "a" "x") (.named "b" "y")) .pattern [.advance 1, .settle]
      (utf8 "{{A}}") rfl (by decide) rfl rfl rfl (by decide +kernel) (by decide +kernel)
      (by decide +kernel)
  exact ⟨report, lines, ok, same, running, indices⟩

end MailMerge
