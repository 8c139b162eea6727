import MailMerge.Proofs.Run.Reports
import MailMerge.Proofs.Tree.Acceptance

/-!
# Rows in sequence

What becomes of rows that run one at a time can be told without any temporary file and without any
operation that fails half-way (`Run.visit`): a row that has a destination in the plan, where no
directory is and for which all names are short enough, puts its text there, made of what the
template holds by then; every other row changes nothing.  A run of such rows in a directory that
exists has the same outcomes and leaves the same files and directories (`Run.process_visit`), and a
row behind one whose destination is the template is filled into the file of that row.

The names that have to be short enough are three.  The temporary name is the longest name, but its
path need not be the longest path, for it leaves out what the path of the directory has in vain
(`Run.process_visit_distant`).
-/

namespace MailMerge

open Run (Assignment Schedule)

set_option autoImplicit false

/-! ## What becomes of the rows -/

/-- The tree with a file at a path, in place of the file that may be there. -/
def FileTree.put (tree : FileTree) (path : Path) (octets : Bytes) : FileTree :=
  match tree.target path with
  | .ok (.place location _) => tree.set location (.file octets)
  | _ => tree

/-- The text that a row makes of the template at a path. -/
def FileTree.filled (tree : FileTree) (template : Path) (row : Row) : Bytes :=
  match tree.read template with
  | .ok content => (Template.render row content).toOption.getD []
  | .error _ => []

/-- Whether all names are short enough that are needed for the file of a row: the name of its
temporary file, the path of that and the path of the file itself. -/
def Destination.isShort (destination : Path) (index : Nat) : Bool :=
  ((temporary destination index).fileName?.getD []).length ≤ FileTree.nameLimit &&
    (temporary destination index).bytes.length ≤ FileTree.pathLimit &&
    destination.bytes.length ≤ FileTree.pathLimit

namespace Run

/-- What becomes of a row all at once, and the tree after that: its file is there, or nothing is
changed. -/
def attend (template : Path) (tree : FileTree) (assignment : Assignment) :
    Except Failure Path × FileTree :=
  match assignment.destination with
  | .error failure => (.error failure, tree)
  | .ok destination =>
    if tree.isDirectory destination then (.error (.io destination .isADirectory), tree)
    else if !Destination.isShort destination assignment.index then
      (.error (.io destination .nameTooLong), tree)
    else (.ok destination, tree.put destination (tree.filled template assignment.row))

/-- What becomes of some rows one after another, and the tree after that. -/
def visit (template : Path) (policy : ErrorPolicy) (tree : FileTree) :
    List Assignment → List Outcome × FileTree
  | [] => ([], tree)
  | assignment :: rest =>
    let (result, next) := attend template tree assignment
    if stops policy result then ([⟨assignment.index, result⟩], next)
    else
      let (outcomes, last) := visit template policy next rest
      (⟨assignment.index, result⟩ :: outcomes, last)

theorem visit_singleton (template : Path) (policy : ErrorPolicy) (tree : FileTree)
    (assignment : Assignment) : (visit template policy tree [assignment]).2 =
      (attend template tree assignment).2 := by
  simp only [visit]
  split <;> rfl

/-- Results that are the same, up to the path and the fault of an operation that has failed. -/
inductive Resembles : Except Failure Path → Except Failure Path → Prop where
  | same (result : Except Failure Path) : Resembles result result
  | broken (left right : Path) (fault fault' : Fault) :
      Resembles (.error (.io left fault)) (.error (.io right fault'))

/-- Outcomes of the same row with results that resemble each other. -/
def ResemblesOutcome (left right : Outcome) : Prop :=
  left.index = right.index ∧ Resembles left.result right.result

theorem Resembles.stops_eq {left right : Except Failure Path} (resembles : Resembles left right)
    (policy : ErrorPolicy) : stops policy right = stops policy left := by
  cases resembles with
  | same => rfl
  | broken => cases policy <;> rfl

end Run

/-- What becomes of the rows of a request one after another, and the tree after that. -/
def Request.visit (request : Request) (tree : FileTree) : List Outcome × FileTree :=
  Run.visit request.template request.errorPolicy tree request.planned

/-- The tree after the rows of a request before a position. -/
def Request.visited (request : Request) (tree : FileTree) (position : Nat) : FileTree :=
  (Run.visit request.template request.errorPolicy tree (request.planned.take position)).2

namespace Site

variable {site : Site} {tree : FileTree} {files later : Files} {assignment : Assignment}
  {destination : Path}

/-! ## Where the files land -/

/-- Where an entry of the directory lands, once the directory is there. -/
theorem landing_of_reached (amid : site.Amid tree) (reached : site.Reached tree) {parent : Path}
    (same : parent = site.directory ∨ parent = site.directory.trimmed) {name : Bytes}
    (plain : Path.IsPlain name) (noNul : 0 ∉ (parent.join ⟨name⟩).bytes) :
    ∃ home, site.ready.landing (parent.join ⟨name⟩) =
      if tree.isDirectory (parent.join ⟨name⟩) = true then .error .isADirectory
      else if FileTree.pathLimit < (parent.join ⟨name⟩).bytes.length ∨
          FileTree.nameLimit < name.length then .error .nameTooLong
      else .ok (name :: home) := by
  obtain ⟨home, walks⟩ := reached.walk_parent
  refine ⟨home, ?_⟩
  rw [← amid.landing_eq reached ⟨parent, name, plain, rfl, same⟩]
  exact FileTree.landing_join (walks parent same) plain noNul

/-- There is no directory in the place of a temporary file. -/
theorem isDirectory_temporary (there : site.Reached site.before) (amid : site.Amid tree)
    (reached : site.Reached tree) (fits : site.Fits assignment)
    (chosen : assignment.destination = .ok destination) :
    tree.isDirectory (Destination.temporary destination assignment.index) = false := by
  rw [Bool.eq_false_iff]
  intro found
  have accepted := FileTree.refusal?_of_isDirectory found
  obtain ⟨last, walked⟩ := (FileTree.isDirectory_iff tree accepted).1 found
  rw [FileTree.walk_eq tree accepted] at walked
  obtain ⟨name, plain, same⟩ := fits.entry destination chosen
  obtain ⟨home, walks⟩ := reached.walk_parent
  have target := FileTree.target_join (walks site.directory.trimmed (.inr rfl))
    (Path.isPlain_temporaryName plain assignment.index)
  rw [← Path.temporary_join site.directory plain, ← same, accepted] at target
  simp only at target
  split_ifs at target with long
  · simp [target] at walked
  · rw [target] at walked
    simp only at walked
    split at walked
    case h_2 => simp at walked
    case h_3 => simp at walked
    case h_1 directory =>
      have spot := (spot?_of_chosen chosen).trans (amid.location?_of_target target)
      have before := amid_before.directory_of_reached there (amid.within _ directory)
      simp [FileTree.HasDirectory, fits.fresh _ spot] at before

/-- A tree that has the directory and some regular files, one of which is the template, a text. -/
structure Portrays (site : Site) (tree : FileTree) (files : Files) : Prop where
  amid : site.Amid tree
  reached : site.Reached tree
  held : ∀ location, tree.content? location = files location
  text : ∃ content, files site.mark = some content ∧ Utf8.isText content = true

/-- A row that can be attended to all at once, for its directory is there and its destination has no
octet zero in it. -/
structure Comes (site : Site) (assignment : Assignment) : Prop where
  there : site.Reached site.before
  grounded : site.Grounded
  fits : site.Fits assignment
  noNul : ∀ destination, assignment.destination = .ok destination → 0 ∉ destination.bytes

section Landing

variable (comes : site.Comes assignment) (portrays : site.Portrays tree files)
  (chosen : assignment.destination = .ok destination)

include comes portrays chosen

/-- The temporary file can be written if and only if its name and its path are short enough. -/
theorem Comes.drafts_iff :
    (∃ spot, site.ready.landing (Destination.temporary destination assignment.index) = .ok spot) ↔
      ((Destination.temporary destination assignment.index).fileName?.getD []).length ≤
          FileTree.nameLimit ∧
        (Destination.temporary destination assignment.index).bytes.length ≤ FileTree.pathLimit := by
  obtain ⟨there, _, fits, noNul⟩ := comes
  have noDirectory := isDirectory_temporary there portrays.amid portrays.reached fits chosen
  have noNul := noNul destination chosen
  obtain ⟨name, plain, rfl⟩ := fits.entry destination chosen
  have plain' := Path.isPlain_temporaryName plain assignment.index
  have noNul' : 0 ∉ (site.directory.trimmed.join
      ⟨Path.temporaryName name assignment.index⟩).bytes := by
    refine Path.nul_not_mem_join (fun member => noNul ?_)
      (Path.nul_not_mem_temporaryName (fun member => noNul ?_) _)
    · exact (Path.hasParent_join site.directory plain).octets _
        (site.directory.trimmed_prefix.subset member)
    · exact Path.mem_of_mem_fileName (Path.fileName?_join site.directory plain) member
  rw [Path.temporary_join site.directory plain] at noDirectory ⊢
  obtain ⟨home, landed⟩ :=
    landing_of_reached portrays.amid portrays.reached (.inr rfl) plain' noNul'
  rw [landed, noDirectory, Path.fileName?_join _ plain']
  simp only [Option.getD_some, Bool.false_eq_true, if_false]
  split_ifs with long
  · simp only [exists_false, false_iff, not_and]
    omega
  · simp only [Except.ok.injEq, exists_eq', true_iff]
    omega

/-- A file that waits under its temporary name can be moved to its destination if and only if no
directory is there and the path is short enough. -/
theorem Comes.moves_iff (short : ((Destination.temporary destination
      assignment.index).fileName?.getD []).length ≤ FileTree.nameLimit) :
    (∃ location, site.ready.landing destination = .ok location) ↔
      tree.isDirectory destination = false ∧ destination.bytes.length ≤ FileTree.pathLimit := by
  obtain ⟨there, _, fits, noNul⟩ := comes
  have noNul := noNul destination chosen
  obtain ⟨name, plain, rfl⟩ := fits.entry destination chosen
  have shorter : name.length ≤ FileTree.nameLimit := by
    rw [Path.temporary_join site.directory plain,
      Path.fileName?_join _ (Path.isPlain_temporaryName plain assignment.index)] at short
    exact Nat.le_of_lt (Nat.lt_of_lt_of_le (Path.length_lt_temporaryName name _) short)
  obtain ⟨home, landed⟩ := landing_of_reached portrays.amid portrays.reached (.inl rfl) plain noNul
  rw [landed]
  split_ifs with directory long
  · simp [directory]
  · simp only [exists_false, false_iff, not_and]
    omega
  · simp only [Except.ok.injEq, exists_eq', true_iff]
    exact ⟨Bool.eq_false_iff.2 directory, by omega⟩

/-- A row's file is written all at once if and only if it can be written under its temporary name
and moved from there. -/
theorem Comes.writes_iff :
    tree.isDirectory destination = false ∧
        Destination.isShort destination assignment.index = true ↔
      (∃ spot, site.ready.landing (Destination.temporary destination assignment.index) =
        .ok spot) ∧ ∃ location, site.ready.landing destination = .ok location := by
  rw [comes.drafts_iff portrays chosen, Destination.isShort]
  simp only [Bool.and_eq_true, decide_eq_true_eq]
  constructor
  · rintro ⟨vacant, ⟨name, path⟩, short⟩
    exact ⟨⟨name, path⟩, (comes.moves_iff portrays chosen name).2 ⟨vacant, short⟩⟩
  · rintro ⟨⟨name, path⟩, moves⟩
    obtain ⟨vacant, short⟩ := (comes.moves_iff portrays chosen name).1 moves
    exact ⟨vacant, ⟨name, path⟩, short⟩

omit comes portrays in
theorem attend_of_writes (template : Path) (writes : tree.isDirectory destination = false ∧
      Destination.isShort destination assignment.index = true) :
    Run.attend template tree assignment =
      (.ok destination, tree.put destination (tree.filled template assignment.row)) := by
  simp [Run.attend, chosen, writes.1, writes.2]

omit comes portrays in
theorem attend_of_not_writes (template : Path) (never : ¬ (tree.isDirectory destination = false ∧
      Destination.isShort destination assignment.index = true)) :
    ∃ fault, Run.attend template tree assignment = (.error (.io destination fault), tree) := by
  unfold Run.attend
  simp only [chosen]
  split_ifs with directory long
  · exact ⟨_, rfl⟩
  · exact ⟨_, rfl⟩
  · simp_all

end Landing

/-- Two trees that have the directory and the same regular files have the same entries. -/
theorem entry?_eq {other : FileTree} (amid : site.Amid tree) (reached : site.Reached tree)
    (amid' : site.Amid other) (reached' : site.Reached other)
    (files : ∀ location, tree.content? location = other.content? location) (location : Location) :
    tree.entry? location = other.entry? location := by
  have directories : tree.HasDirectory location ↔ other.HasDirectory location :=
    (amid.hasDirectory_iff reached location).trans (amid'.hasDirectory_iff reached' location).symm
  have file := files location
  cases found : tree.entry? location with
  | none =>
    have none := file.symm.trans (FileTree.content?_eq_none.2 (.inl found))
    refine ((FileTree.content?_eq_none.1 none).resolve_right fun directory => ?_).symm
    have here := directories.2 directory
    simp [FileTree.HasDirectory, found] at here
  | some entry =>
    cases entry with
    | file octets =>
      rw [FileTree.content?_eq_some.2 found] at file
      exact (FileTree.content?_eq_some.1 file.symm).symm
    | directory => exact (directories.1 found).symm

/-! ## One row -/

theorem Portrays.read (portrays : site.Portrays tree files) (grounded : site.Grounded)
    {content : Bytes} (held : files site.mark = some content) :
    tree.read site.template = .ok content :=
  FileTree.read_of_target
    (FileTree.target_mono portrays.amid.base portrays.amid.kept grounded.target)
    ((portrays.held site.mark).trans held)

/-- The text that is made of the template. -/
theorem Portrays.filled (portrays : site.Portrays tree files) (grounded : site.Grounded)
    {content octets : Bytes} {row : Row} (held : files site.mark = some content)
    (rendered : Template.render row content = .ok octets) :
    tree.filled site.template row = octets := by
  rw [FileTree.filled, portrays.read grounded held]
  simp [rendered, Except.toOption]

/-- The tree after a file was put where it lands. -/
theorem Portrays.put (portrays : site.Portrays tree files) (entry : site.IsEntry destination)
    {location : Location} (landed : site.ready.landing destination = .ok location) {octets : Bytes}
    (text : Utf8.isText octets = true) :
    site.Portrays (tree.put destination octets)
      (Function.update files location (some octets)) := by
  obtain ⟨found, vacant⟩ := FileTree.target_of_landing landed
  obtain ⟨name, above, rfl⟩ := FileTree.exists_cons_of_place found
  rw [← portrays.amid.target_eq portrays.reached entry] at found
  rw [FileTree.put, found]
  have directories := fun location => (FileTree.hasDirectory_set_file
    (fun directory => vacant (portrays.amid.within _ directory)) octets location).2
  refine ⟨portrays.amid.set_file portrays.reached vacant octets,
    portrays.reached.mono (FileTree.base_set ..) directories, fun location => ?_, ?_⟩
  · rw [FileTree.content?_set_file, Function.update_apply, portrays.held]
  · rw [Function.update_apply]
    split_ifs
    · exact ⟨octets, rfl, text⟩
    · exact portrays.text

/-- What the course of a run says about a row is what becomes of it all at once. -/
theorem Settles.attend {result : Except Failure Path} (comes : site.Comes assignment)
    (portrays : site.Portrays tree files) (settles : site.Settles assignment files result later) :
    Run.Resembles result (Run.attend site.template tree assignment).1 ∧
      site.Portrays (Run.attend site.template tree assignment).2 later := by
  have broken : ∀ destination path fault, assignment.destination = .ok destination →
      ¬ ((∃ spot, site.ready.landing (Destination.temporary destination assignment.index) =
        .ok spot) ∧ ∃ location, site.ready.landing destination = .ok location) →
      Run.Resembles (.error (.io path fault)) (Run.attend site.template tree assignment).1 ∧
        site.Portrays (Run.attend site.template tree assignment).2 files := by
    intro destination path fault chosen never
    rw [← comes.writes_iff portrays chosen] at never
    obtain ⟨fault', same⟩ := attend_of_not_writes chosen site.template never
    rw [same]
    exact ⟨.broken .., portrays⟩
  obtain ⟨content, held, text⟩ := portrays.text
  obtain ⟨octets, rendered⟩ := Template.exists_render assignment.row text
  cases settles with
  | failed rejected =>
    cases rejected with
    | unplanned failed =>
      rw [Run.attend, failed]
      exact ⟨.same _, portrays⟩
    | unreachable _ needed missed =>
      simp [portrays.amid.reached_ready portrays.reached _ needed] at missed
    | @undrafted destination content' failure chosen _ template drafted =>
      obtain rfl := Option.some.inj (held.symm.trans template)
      unfold draft at drafted
      split at drafted
      case h_1 fault landed =>
        obtain rfl := Except.error.inj drafted
        exact broken destination _ _ chosen fun ⟨⟨spot, lands⟩, _⟩ => by simp [landed] at lands
      case h_2 => simp [rendered] at drafted
  | @blocked destination _ _ fault chosen _ _ _ landed =>
    exact broken destination _ _ chosen fun ⟨_, location, lands⟩ => by simp [landed] at lands
  | @moved destination location content' octets' chosen _ template drafted landed =>
    obtain rfl := Option.some.inj (held.symm.trans template)
    unfold draft at drafted
    split at drafted
    case h_1 => simp at drafted
    case h_2 spot lands =>
      simp only [rendered] at drafted
      obtain rfl := Except.ok.inj drafted
      have writes := (comes.writes_iff portrays chosen).2 ⟨⟨spot, lands⟩, location, landed⟩
      rw [attend_of_writes chosen site.template writes,
        portrays.filled comes.grounded held rendered]
      exact ⟨.same _, portrays.put (comes.fits.isEntry chosen) landed
        (Template.isText_of_render rendered)⟩

/-- A row that is generated is filled into the template as it is, and then its text is found where
it was put, also if it was put in the place of the template. -/
theorem Settles.attend_ok {path : Path} (comes : site.Comes assignment)
    (portrays : site.Portrays tree files)
    (settles : site.Settles assignment files (.ok path) later) :
    ∃ content octets, tree.read site.template = .ok content ∧
      Template.render assignment.row content = .ok octets ∧
      (Run.attend site.template tree assignment).2.read path = .ok octets ∧
      (site.before.location? path = some site.mark →
        (Run.attend site.template tree assignment).2.read site.template = .ok octets) := by
  have after := (settles.attend comes portrays).2
  cases settles with
  | @moved _ location content octets chosen _ template drafted landed =>
    have entry := comes.fits.isEntry chosen
    have found := (after.amid.target_eq after.reached entry).trans
      (entry.noSlash ▸ (FileTree.target_of_landing landed).1)
    have rendered : Template.render assignment.row content = .ok octets := by
      unfold draft at drafted
      split at drafted
      case h_1 => simp at drafted
      case h_2 =>
        split at drafted
        case h_1 => simp at drafted
        case h_2 same => rw [same, Except.ok.inj drafted]
    refine ⟨content, octets, portrays.read comes.grounded template, rendered, ?_, fun located => ?_⟩
    · exact FileTree.read_of_target found ((after.held location).trans (Function.update_self ..))
    · obtain rfl := Option.some.inj ((after.amid.location?_of_target found).symm.trans located)
      exact after.read comes.grounded (Function.update_self ..)

/-! ## Many rows -/

theorem StopsAtFailure.cases {outcome : Outcome} {outcomes : List Outcome}
    (stops : StopsAtFailure (outcome :: outcomes)) :
    ((∃ failure, outcome.result = .error failure) ∧ outcomes = []) ∨
      (∃ path, outcome.result = .ok path) ∧ StopsAtFailure outcomes := by
  obtain ⟨earlier, last, failure, split, failed, all⟩ := stops
  cases earlier with
  | nil =>
    obtain ⟨rfl, rfl⟩ := List.cons.inj split
    exact .inl ⟨⟨failure, failed⟩, rfl⟩
  | cons first earlier =>
    obtain ⟨rfl, rest⟩ := List.cons.inj split
    obtain ⟨here, later⟩ := List.forall_mem_cons.1 all
    exact .inr ⟨here, earlier, last, failure, rest, failed, later⟩

/-- A run ends at an outcome at which it stops, and goes on to its end behind any other. -/
theorem EndsOrStops.cases {policy : ErrorPolicy} {rest : List Assignment} {outcome : Outcome}
    {outcomes : List Outcome} (ends : EndsOrStops policy rest (outcome :: outcomes)) :
    Run.stops policy outcome.result = true ∧ outcomes = [] ∨
      Run.stops policy outcome.result = false ∧ EndsOrStops policy rest outcomes := by
  obtain ⟨rfl, all⟩ | ⟨rfl, stops⟩ := ends
  · refine .inr ⟨?_, .inl ⟨rfl, fun abort => (List.forall_mem_cons.1 (all abort)).2⟩⟩
    cases policy with
    | «continue» => rfl
    | abort =>
      obtain ⟨path, ok⟩ := all rfl outcome List.mem_cons_self
      rw [ok]
      rfl
  · obtain ⟨⟨failure, failed⟩, nothing⟩ | ⟨⟨path, ok⟩, stops⟩ := stops.cases
    · exact .inl ⟨by rw [failed]; rfl, nothing⟩
    · exact .inr ⟨by rw [ok]; rfl, .inr ⟨rfl, stops⟩⟩

/-- The course of a run is what becomes of its rows one after another. -/
theorem Course.visit {policy : ErrorPolicy} {done rest : List Assignment} {outcomes : List Outcome}
    {last : Files} (course : site.Course files done outcomes last)
    (portrays : site.Portrays tree files) (comes : ∀ assignment ∈ done, site.Comes assignment)
    (ends : EndsOrStops policy rest outcomes) :
    List.Forall₂ Run.ResemblesOutcome outcomes
        (Run.visit site.template policy tree (done ++ rest)).1 ∧
      site.Portrays (Run.visit site.template policy tree (done ++ rest)).2 last := by
  induction course generalizing tree with
  | nil =>
    obtain ⟨rfl, _⟩ | ⟨_, _, _, _, never, _⟩ := ends
    · exact ⟨.nil, portrays⟩
    · simp at never
  | @cons _ _ _ assignment _ result outcomes settles course ih =>
    obtain ⟨first, others⟩ := List.forall_mem_cons.1 comes
    obtain ⟨resembles, next⟩ := settles.attend first portrays
    rw [List.cons_append, Run.visit]
    simp only [resembles.stops_eq policy]
    obtain ⟨stops, rfl⟩ | ⟨goes, ends⟩ := ends.cases
    · rw [if_pos stops]
      cases course
      exact ⟨.cons ⟨rfl, resembles⟩ .nil, next⟩
    · rw [if_neg (by simp [goes])]
      obtain ⟨alike, final⟩ := ih next others ends
      exact ⟨.cons ⟨rfl, resembles⟩ alike, final⟩

theorem Course.exists_destination {done : List Assignment} {outcomes : List Outcome} {last : Files}
    (course : site.Course files done outcomes last)
    (all : ∀ outcome ∈ outcomes, ∃ path, outcome.result = .ok path) :
    ∀ assignment ∈ done, ∃ path, assignment.destination = .ok path := by
  induction course with
  | nil => simp
  | cons settles _ ih =>
    obtain ⟨⟨path, ok⟩, others⟩ := List.forall_mem_cons.1 all
    obtain rfl := ok
    exact List.forall_mem_cons.2 ⟨⟨path, settles.chosen⟩, ih others⟩

/-- A row that is generated is filled into what the rows before it have left as the template. -/
theorem Course.visit_ok {policy : ErrorPolicy} {done rest : List Assignment}
    {outcomes : List Outcome} {last : Files} (course : site.Course files done outcomes last)
    (portrays : site.Portrays tree files) (comes : ∀ assignment ∈ done, site.Comes assignment)
    (ends : EndsOrStops policy rest outcomes) {position index : Nat} {path : Path}
    (found : outcomes[position]? = some ⟨index, .ok path⟩) :
    ∃ assignment content octets, done[position]? = some assignment ∧
      (Run.visit site.template policy tree (done.take position)).2.read site.template =
        .ok content ∧
      Template.render assignment.row content = .ok octets ∧
      (Run.visit site.template policy tree (done.take (position + 1))).2.read path = .ok octets ∧
      (site.before.location? path = some site.mark →
        (Run.visit site.template policy tree (done.take (position + 1))).2.read site.template =
          .ok octets) := by
  induction course generalizing tree position index with
  | nil => simp at found
  | @cons _ _ _ assignment _ result outcomes settles course ih =>
    obtain ⟨first, others⟩ := List.forall_mem_cons.1 comes
    obtain ⟨resembles, next⟩ := settles.attend first portrays
    cases position with
    | zero =>
      obtain ⟨rfl, rfl⟩ := Outcome.mk.inj (Option.some.inj found)
      obtain ⟨content, octets, read, rendered, there, also⟩ := settles.attend_ok first portrays
      rw [← Run.visit_singleton site.template policy] at there also
      exact ⟨assignment, content, octets, rfl, read, rendered, there, also⟩
    | succ position =>
      obtain ⟨_, rfl⟩ | ⟨goes, ends⟩ := ends.cases
      · simp at found
      · obtain ⟨other, content, octets, here, facts⟩ := ih next others ends found
        refine ⟨other, content, octets, here, ?_⟩
        simp only [List.take_succ_cons, Run.visit, resembles.stops_eq policy, goes]
        exact facts

end Site

/-! ## Requests -/

namespace Request

variable {request : Request} {tree : FileTree} {mark : Location}

/-- The directory of the generated files exists. -/
theorem reached_of_isDirectory (there : request.directory.isEmpty = true ∨
      tree.isDirectory request.directory = true) : (request.site tree mark).Reached tree := by
  intro path needed
  obtain ⟨rfl, named⟩ := Site.needed?_eq_some needed
  rcases there with empty | found
  · refine absurd (List.prefix_nil.1 ?_) named
    rw [← List.isEmpty_iff.1 empty]
    exact request.directory.trimmed_prefix
  · exact FileTree.isDirectory_trimmed found named

theorem nul_not_mem_of_planned (grounded : (request.site tree mark).Grounded)
    (there : request.directory.isEmpty = true ∨ tree.isDirectory request.directory = true)
    {assignment : Assignment} (member : assignment ∈ request.planned) {destination : Path}
    (chosen : assignment.destination = .ok destination) : 0 ∉ destination.bytes := by
  obtain ⟨position, found⟩ := List.getElem?_of_mem member
  refine Destination.nul_not_mem_of_resolve ?_ ?_ (resolve_of_planned found chosen)
  · exact FileTree.nul_not_mem_of_accepted (FileTree.refusal?_of_target grounded.target)
  · change 0 ∉ request.directory.bytes
    rcases there with empty | directory
    · rw [List.isEmpty_iff.1 empty]
      exact List.not_mem_nil
    · exact FileTree.nul_not_mem_of_accepted (FileTree.refusal?_of_isDirectory directory)

/-- The rows of a request in a directory that exists can each be attended to all at once. -/
theorem comes_of_planned (grounded : (request.site tree mark).Grounded)
    (vacant : request.VacantTemporaries tree)
    (there : request.directory.isEmpty = true ∨ tree.isDirectory request.directory = true)
    {assignment : Assignment} (member : assignment ∈ request.planned) :
    (request.site tree mark).Comes assignment where
  there := reached_of_isDirectory there
  grounded := grounded
  fits := fits_of_vacant vacant member
  noNul _ chosen := nul_not_mem_of_planned grounded there member chosen

/-- The template of a request that is not refused is a text, if there is any row for it. -/
theorem portrays_of_accepted (accepted : request.refusal? tree = none)
    (grounded : (request.site tree mark).Grounded) (some_ : request.rows ≠ [])
    (there : request.directory.isEmpty = true ∨ tree.isDirectory request.directory = true) :
    (request.site tree mark).Portrays tree tree.content? := by
  refine ⟨Site.amid_before, reached_of_isDirectory there, fun _ => rfl, ?_⟩
  obtain ⟨content, held⟩ := Option.ne_none_iff_exists'.1 grounded.content
  refine ⟨content, held, ?_⟩
  have read : tree.read request.template = .ok content :=
    FileTree.read_of_target grounded.target held
  unfold refusal? at accepted
  split at accepted
  case h_1 => simp at accepted
  case h_2 => split_ifs at accepted
  case h_3 =>
    rw [if_neg (by simpa using some_), read] at accepted
    simp only [unreadable?] at accepted
    unfold Utf8.isText
    split at accepted
    case h_1 => simp at accepted
    case h_2 decoded => rw [decoded]

/-- What a run leaves out that nobody interrupts is left out of the plan as well. -/
theorem exists_rest_of_ended {report : Report} {world : World}
    (ended : (request.site tree mark).Ended request.errorPolicy True request.assigned report
      world) :
    ∃ done rest, request.planned = done ++ rest ∧
      (request.site tree mark).Course tree.content? done report.outcomes world.tree.content? ∧
      Site.EndsOrStops request.errorPolicy rest report.outcomes := by
  obtain ⟨done, skipped, split, course, ends⟩ := ended.course_of_calm
  obtain ⟨rest, whole⟩ := Run.prefix_planned split
  refine ⟨done, rest, whole.symm, course, ?_⟩
  obtain ⟨rfl, all⟩ | stops := ends
  · rw [List.append_nil] at split
    have planned := assigned_eq_planned fun policy =>
      split ▸ course.exists_destination (all policy)
    have nothing : rest = [] := by
      rw [split, ← whole] at planned
      simpa using planned
    exact .inl ⟨nothing, all⟩
  · exact .inr stops

end Request

/-- A run whose rows are in the making one at a time, in a directory that exists, does what becomes
of them one after another: the outcomes are the same, up to the paths and the faults of operations
that have failed, and so are all files and directories in the end.  Whatever is generated is the
text that its row makes of the template as the rows before it have left it, and it is the template
for the rows behind it if it was put there. -/
theorem Run.process_visit {request : Request} {world : World} {schedule : Schedule}
    {report : Report} (one : request.concurrency = 1 ∨ request.plan.repetitions ≠ [])
    (there : request.directory.isEmpty = true ∨ world.tree.isDirectory request.directory = true)
    (fresh : request.FreshTemporaries world.tree) (silent : .interrupt ∉ schedule)
    (uncancelled : world.cancelled = false) (patient : world.patience = none)
    (ok : ((process schedule request).run world).1 = .ok report) :
    report.cancelled = false ∧
    List.Forall₂ ResemblesOutcome report.outcomes (request.visit world.tree).1 ∧
    ((process schedule request).run world).2.tree.base = (request.visit world.tree).2.base ∧
    (∀ location, FileTree.entry? ((process schedule request).run world).2.tree location =
      FileTree.entry? (request.visit world.tree).2 location) ∧
    ∀ (position : Nat) (path : Path), report.outcomes[position]? = some ⟨position, .ok path⟩ →
      ∃ row content octets, request.rows[position]? = some row ∧
        (request.visited world.tree position).read request.template = .ok content ∧
        Template.render row content = .ok octets ∧
        (request.visited world.tree (position + 1)).read path = .ok octets ∧
        (world.tree.location? path = world.tree.location? request.template →
          (request.visited world.tree (position + 1)).read request.template = .ok octets) := by
  have width : request.width = 1 := by
    rcases one with one | repeated
    · exact Request.width_of_concurrency_one one
    · rw [Request.width, if_neg (by simpa using repeated)]
  have accepted := accepted_of_process ok
  obtain ⟨mark, grounded⟩ := Request.exists_grounded_of_accepted accepted
  obtain ⟨_, ok', ended⟩ := @ended_process request world mark True schedule accepted grounded
    fresh (Request.keepsTemplate_of_width_one width world.tree) (fun _ => silent)
    fun _ => ⟨uncancelled, patient⟩
  obtain rfl := Except.ok.inj (ok.symm.trans ok')
  obtain ⟨done, rest, planned, course, ends⟩ := Request.exists_rest_of_ended ended
  have reached : (request.site world.tree mark).Reached world.tree :=
    Request.reached_of_isDirectory there
  have final := reached.mono ended.amid.base ended.amid.kept
  by_cases nothing : request.rows = []
  · have none : request.planned = [] := by
      rw [← List.length_eq_zero_iff, request.length_planned, nothing, List.length_nil]
    obtain ⟨rfl, rfl⟩ := List.append_eq_nil_iff.1 (planned.symm.trans none)
    have visited : request.visit world.tree = ([], world.tree) := by rw [Request.visit, none]; rfl
    have outcomes : report.outcomes = [] := List.length_eq_zero_iff.1 course.length_eq
    have files : ∀ location, _ = _ := fun location =>
      @Site.Course.eq_of_ne _ _ _ _ _ course location (by simp [outcomes])
    rw [visited, outcomes]
    exact ⟨ended.calm trivial, .nil, ended.amid.base,
      Site.entry?_eq ended.amid final Site.amid_before reached files, by simp⟩
  have comes : ∀ assignment ∈ done, (request.site world.tree mark).Comes assignment :=
    fun assignment member => Request.comes_of_planned grounded fresh.vacant there
      (planned ▸ List.mem_append_left _ member)
  have portrays := Request.portrays_of_accepted accepted grounded nothing there
  obtain ⟨alike, last⟩ := course.visit portrays comes ends
  rw [← planned] at alike last
  refine ⟨ended.calm trivial, alike, ended.amid.base.trans last.amid.base.symm, ?_, ?_⟩
  · exact Site.entry?_eq ended.amid final last.amid last.reached fun location =>
      (last.held location).symm
  · intro position path found
    obtain ⟨assignment, content, octets, here, read, rendered, put, also⟩ :=
      course.visit_ok portrays comes ends found
    have inside := (List.getElem?_eq_some_iff.1 here).1
    have first : ∀ count ≤ done.length, done.take count = request.planned.take count :=
      fun count few => by rw [planned, List.take_append_of_le_length few]
    rw [first position (Nat.le_of_lt inside)] at read
    rw [first (position + 1) inside] at put also
    have there : request.planned[position]? = some assignment := by
      rw [planned, List.getElem?_append_left inside, here]
    refine ⟨assignment.row, content, octets, (Request.getElem?_planned there).2.1, read, rendered,
      put, fun located => also ?_⟩
    exact located.trans (Request.location?_of_grounded grounded)

theorem Run.process_visit_couple :
    FileTree.entry? ((process [] (Request.couple (.named "pattern" "{{A}}{{A}}")
      (.named "b" "y")).oneByOne).run .pattern).2.tree [utf8 "b"] =
        some (.file (utf8 "yy")) := by
  have ok : ((process [] (Request.couple (.named "pattern" "{{A}}{{A}}")
      (.named "b" "y")).oneByOne).run .pattern).1 =
        .ok ⟨[⟨0, .ok ⟨utf8 "pattern"⟩⟩, ⟨1, .ok ⟨utf8 "b"⟩⟩], false⟩ := by decide +kernel
  obtain ⟨_, _, _, entries, _⟩ := process_visit (.inl rfl) (.inl (by decide +kernel))
    (by decide +kernel) (by simp) rfl rfl ok
  rw [entries]
  decide +kernel

/-- The request for one file in a directory whose path is nearly as long as paths may be. -/
def Request.distant : Request where
  template := ⟨utf8 "pattern"⟩
  rows := [.named "copy" "x"]
  outputDir := some ⟨utf8 "out" ++ (List.replicate 2044 [Path.slash, Path.dot]).flatten⟩

/-- The pattern beside an empty directory. -/
def World.spacious : World := { tree := World.pattern.tree.set [utf8 "out"] .directory }

/-- It is not enough that the temporary name is short: the path of the file may be too long while
that of the temporary file, which leaves out what can be left out, is not. -/
theorem Run.process_visit_distant :
    ¬ ∀ (request : Request) (world : World) (schedule : Schedule) (report : Report) (row : Row)
        (destination : Path), request.concurrency = 1 ∨ request.plan.repetitions ≠ [] →
      request.directory.isEmpty = true ∨ world.tree.isDirectory request.directory = true →
      request.FreshTemporaries world.tree → .interrupt ∉ schedule → world.cancelled = false →
      world.patience = none → ((process schedule request).run world).1 = .ok report →
      request.rows[0]? = some row → request.resolve row 0 = .ok destination →
      world.tree.isDirectory destination = false →
      ((Destination.temporary destination 0).fileName?.getD []).length ≤ FileTree.nameLimit →
        report.outcomes[0]? = some ⟨0, .ok destination⟩ := by
  intro all
  have failed : ((process [] .distant).run .spacious).1.map
      (fun report => report.outcomes[0]?.map fun outcome => outcome.result.toOption) =
        .ok (some none) := by decide +kernel
  have resolved : ∃ destination, Request.distant.resolve (.named "copy" "x") 0 = .ok destination ∧
      World.spacious.tree.isDirectory destination = false ∧
      ((Destination.temporary destination 0).fileName?.getD []).length ≤ FileTree.nameLimit :=
    ⟨_, rfl, by decide +kernel, by decide +kernel⟩
  obtain ⟨destination, resolved, vacant, short⟩ := resolved
  cases ran : ((process [] .distant).run .spacious).1 with
  | error failure => simp [ran, Except.map] at failed
  | ok report =>
    have generated := all .distant .spacious [] report (.named "copy" "x") destination (.inl rfl)
      (.inr (by decide +kernel)) (by decide +kernel) (by simp) rfl rfl ran rfl resolved vacant short
    simp [ran, Except.map, generated, Except.toOption] at failed

end MailMerge
