import MailMerge.Proofs.Run.Progress
import MailMerge.Proofs.Template.Lines

/-!
# Rows of a run that goes on

Suppose that a run is not cancelled, its directory is there, and its template stays the same text.
Then all that can keep a row from having its complete temporary file is the name of that file: it
may be too long, or there may be a directory of that name (`Site.Admits`).  Nothing else fails, as
long as others leave a file where the temporary file is (`Site.held_going`).

This does not ask of the other rows that they let the temporary file alone.  They may put something
else in its place, and then the row goes on with that; what it must be able to rely on is only that
there is some file (`Site.Supported`).
-/

namespace MailMerge

open Run (Assignment Staged)

set_option autoImplicit false

namespace Site

variable {site : Site} {assignment : Assignment} {destination : Path} {content : Bytes}

/-! ## Trees in which rows can be written -/

/-- A tree amid that has the directory and the given template. -/
structure Equipped (site : Site) (content : Bytes) (tree : FileTree) : Prop where
  amid : site.Amid tree
  reached : site.Reached tree
  template : tree.content? site.mark = some content

variable {tree : FileTree}

theorem Equipped.find_template (equipped : site.Equipped content tree) (grounded : site.Grounded) :
    tree.find site.template = .ok (site.mark, .file content) :=
  FileTree.find_of_target
    (FileTree.target_mono equipped.amid.base equipped.amid.kept grounded.target) equipped.template

/-- A file that is there can be found at an entry of the directory that lands at its location. -/
theorem Equipped.find (equipped : site.Equipped content tree) {path : Path}
    (entry : site.IsEntry path) {location : Location} {octets : Bytes}
    (landed : site.ready.landing path = .ok location)
    (file : tree.content? location = some octets) :
    tree.find path = .ok (location, .file octets) := by
  obtain ⟨found, _⟩ := FileTree.target_of_landing landed
  rw [entry.noSlash, ← equipped.amid.target_eq equipped.reached entry] at found
  exact FileTree.find_of_target found file

/-- Nothing is removed at an entry of the directory where no file can be. -/
theorem Equipped.remove (equipped : site.Equipped content tree) {path : Path}
    (entry : site.IsEntry path) (never : ∀ location, site.ready.landing path ≠ .ok location) :
    ∃ fault, tree.remove path = .error fault := by
  cases removed : tree.remove path with
  | error fault => exact ⟨fault, rfl⟩
  | ok next =>
    obtain ⟨location, octets, found, _⟩ := FileTree.exists_of_remove removed
    obtain ⟨target, file⟩ := FileTree.target_of_find found
    refine absurd ?_ (never location)
    rw [equipped.amid.target_eq equipped.reached entry] at target
    have noDirectory : ¬ site.ready.HasDirectory location := by
      intro directory
      simp [equipped.amid.free location directory] at file
    unfold FileTree.landing
    rw [target]
    exact if_neg noDirectory

/-- A file is written where it lands. -/
theorem Equipped.set_file (equipped : site.Equipped content tree) {path : Path}
    {location : Location} (landed : site.ready.landing path = .ok location)
    (other : location ≠ site.mark) (octets : Bytes) :
    site.Equipped content (tree.set location (.file octets)) ∧
      ∀ place, (tree.set location (.file octets)).content? place =
        if place = location then some octets else tree.content? place := by
  obtain ⟨found, vacant⟩ := FileTree.target_of_landing landed
  obtain ⟨name, above, rfl⟩ := FileTree.exists_cons_of_place found
  have contents := FileTree.content?_set_file tree name above octets
  refine ⟨⟨equipped.amid.set_file equipped.reached vacant octets, ?_, ?_⟩, contents⟩
  · refine equipped.reached.mono (FileTree.base_set ..) ?_
    intro place directory
    exact (FileTree.hasDirectory_set_file
      (fun here => vacant (equipped.amid.within _ here)) octets place).2 directory
  · rw [contents, if_neg other.symm, equipped.template]

/-- A file is removed where it lands. -/
theorem Equipped.erase (equipped : site.Equipped content tree) {path : Path} {location : Location}
    (landed : site.ready.landing path = .ok location) (other : location ≠ site.mark)
    (fresh : site.before.entry? location = none) :
    site.Equipped content (tree.erase location) ∧
      ∀ place, (tree.erase location).content? place =
        if place = location then none else tree.content? place := by
  obtain ⟨found, vacant⟩ := FileTree.target_of_landing landed
  obtain ⟨name, above, rfl⟩ := FileTree.exists_cons_of_place found
  have contents := FileTree.content?_erase tree name above
  have noDirectory : ¬ tree.HasDirectory (name :: above) :=
    fun here => vacant (equipped.amid.within _ here)
  refine ⟨⟨equipped.amid.erase equipped.reached noDirectory
    (FileTree.content?_eq_none.2 (.inl fresh)), ?_, ?_⟩, contents⟩
  · refine equipped.reached.mono (FileTree.base_erase ..) ?_
    intro place directory
    exact (FileTree.hasDirectory_erase noDirectory place).2 directory
  · rw [contents, if_neg other.symm, equipped.template]

/-! ## Terms -/

/-- A run that goes on, in a tree in which its rows can be written. -/
structure Going (site : Site) (content : Bytes) (scene : Scene) : Prop where
  equipped : site.Equipped content scene.tree
  running : scene.stopping = false

/-- What a row relies on the others to keep to: the run goes on, and a file under the row's
temporary name stays a file. -/
structure Supported (site : Site) (content : Bytes) (assignment : Assignment)
    (scene next : Scene) : Prop where
  going : site.Going content next
  own : ∀ location, site.spot? assignment = some location →
    scene.tree.content? location ≠ none → next.tree.content? location ≠ none

/-- What a row does with each of its operations: the run goes on, and no file is taken away but the
one under its own temporary name. -/
structure Proceeds (site : Site) (content : Bytes) (assignment : Assignment)
    (scene next : Scene) : Prop where
  going : site.Going content next
  others : ∀ location, site.spot? assignment ≠ some location →
    scene.tree.content? location ≠ none → next.tree.content? location ≠ none
  patience : next.world.patience = scene.world.patience

/-- A row whose temporary file can be created at a location. -/
def Admits (site : Site) (assignment : Assignment) (location : Location) : Prop :=
  ∃ destination, assignment.destination = .ok destination ∧
    site.ready.landing (Destination.temporary destination assignment.index) = .ok location

/-- A result that is a success if and only if the temporary file of a row can be created. -/
def Reveals {ε : Type} (site : Site) (assignment : Assignment) : Except ε Unit → Prop
  | .ok () => ∃ location, site.Admits assignment location
  | .error _ => ∀ location, ¬ site.Admits assignment location

/-- What is true when the work of an assignment is done: if its temporary file can be created it is
there, and otherwise the row has failed. -/
def Concludes (site : Site) (assignment : Assignment) : Except Failure Staged → Assertion
  | .ok staged => fun scene => ∃ destination location,
    assignment.destination = .ok destination ∧
      staged = ⟨Destination.temporary destination assignment.index, destination⟩ ∧
      site.ready.landing staged.temporary = .ok location ∧ scene.tree.content? location ≠ none
  | .error failure => fun _ => failure ≠ .cancelled ∧ ∀ location, ¬ site.Admits assignment location

/-- The terms on which rows can be written. -/
def writable (site : Site) (content : Bytes) : Run.Terms where
  rely := site.Supported content
  step := site.Proceeds content
  goal := site.Concludes

/-! ## Operations -/

theorem Going.of_core {scene next : Scene} (going : site.Going content scene)
    (halted : next.halted = scene.halted) (core : next.world.core = scene.world.core) :
    site.Going content next := by
  have tree : next.tree = scene.tree := congrArg (·.1) core
  have cancelled : next.world.cancelled = scene.world.cancelled := congrArg (·.2.1) core
  refine ⟨tree ▸ going.equipped, ?_⟩
  rw [Scene.stopping, cancelled, halted]
  exact going.running

theorem Proceeds.of_core {scene next : Scene} (going : site.Going content scene)
    (halted : next.halted = scene.halted) (core : next.world.core = scene.world.core) :
    site.Proceeds content assignment scene next := by
  have tree : next.tree = scene.tree := congrArg (·.1) core
  exact ⟨going.of_core halted core, fun _ _ file => tree ▸ file, congrArg (·.2.2) core⟩

theorem Proceeds.trans {scene middle next : Scene}
    (first : site.Proceeds content assignment scene middle)
    (second : site.Proceeds content assignment middle next) :
    site.Proceeds content assignment scene next where
  going := second.going
  others location elsewhere file :=
    second.others location elsewhere (first.others location elsewhere file)
  patience := second.patience.trans first.patience

/-- A file may be put anywhere but in the place of the template. -/
theorem proceeds_set {scene : Scene} (going : site.Going content scene) {path : Path}
    {location : Location} (landed : site.ready.landing path = .ok location)
    (other : location ≠ site.mark) (octets : Bytes) :
    site.Proceeds content assignment scene
      (scene.changed (.ok (scene.tree.set location (.file octets)))) := by
  obtain ⟨equipped, contents⟩ := going.equipped.set_file landed other octets
  refine ⟨⟨equipped, going.running⟩, fun place _ file => ?_, rfl⟩
  change (scene.tree.set location (.file octets)).content? place ≠ none
  rw [contents]
  split
  · simp
  · exact file

theorem spot?_of_admits {location : Location} (admits : site.Admits assignment location) :
    site.spot? assignment = some location := by
  obtain ⟨destination, chosen, landed⟩ := admits
  rw [spot?_of_chosen chosen]
  exact location?_of_landing landed

theorem Placed.admits_iff (placed : site.Placed assignment destination) {location : Location} :
    site.Admits assignment location ↔
      site.ready.landing (Destination.temporary destination assignment.index) = .ok location := by
  constructor
  · rintro ⟨other, chosen, landed⟩
    obtain rfl := Except.ok.inj (placed.chosen.symm.trans chosen)
    exact landed
  · intro landed
    exact ⟨destination, placed.chosen, landed⟩

/-- A row may take away its own temporary file. -/
theorem proceeds_erase (placed : site.Placed assignment destination) {location : Location}
    (admits : site.Admits assignment location) {scene : Scene}
    (going : site.Going content scene) :
    site.Proceeds content assignment scene (scene.changed (.ok (scene.tree.erase location))) := by
  have own := spot?_of_admits admits
  obtain ⟨equipped, contents⟩ := going.equipped.erase (placed.admits_iff.1 admits)
    (placed.ne_mark own) (placed.fits.fresh location own)
  refine ⟨⟨equipped, going.running⟩, fun place other file => ?_, rfl⟩
  change (scene.tree.erase location).content? place ≠ none
  rw [contents, if_neg (by rintro rfl; exact other own)]
  exact file

theorem steady_going :
    Assertion.Steady (site.Supported content assignment) (site.Going content) :=
  fun _ _ supported _ => supported.going

/-- A run that goes on, in which there is a file under the temporary name of a row. -/
def Underway (site : Site) (content : Bytes) (assignment : Assignment) : Assertion :=
  fun scene => site.Going content scene ∧
    ∀ location, site.Admits assignment location → scene.tree.content? location ≠ none

theorem steady_underway :
    Assertion.Steady (site.Supported content assignment) (site.Underway content assignment) := by
  intro scene next supported underway
  refine ⟨supported.going, ?_⟩
  intro location admits
  exact supported.own location (spot?_of_admits admits) (underway.2 location admits)

variable {now : Assertion}

/-- An operation that leaves everything as it is may be done at any time. -/
theorem secure_idle {operation : Operation} {fact : operation.Reply → Prop}
    (steady : now.Steady (site.Supported content assignment))
    (going : ∀ scene, now scene → site.Going content scene)
    (idle : ∀ scene, now scene → (scene.after operation).world.core = scene.world.core ∧
      fact (scene.reply operation)) :
    (Task.perform operation).Secure (site.Supported content assignment)
      (site.Proceeds content assignment) (fun reply scene => now scene ∧ fact reply) now := by
  refine .perform (fun reply => steady.and fun _ _ _ same => same) ?_
  intro scene start
  obtain ⟨core, holds⟩ := idle scene start
  have tree : (scene.after operation).tree = scene.tree := congrArg (·.1) core
  have proceeds : site.Proceeds content assignment scene (scene.after operation) :=
    .of_core (going scene start) rfl core
  refine ⟨proceeds, steady scene _ ⟨proceeds.going, fun _ _ file => ?_⟩ start, holds⟩
  exact tree ▸ file

/-- The run goes on, so an inquiry for cancellation is answered with no. -/
theorem secure_isCancelled_going (steady : now.Steady (site.Supported content assignment))
    (going : ∀ scene, now scene → site.Going content scene) (never : Assertion) :
    Task.isCancelled.Secure (site.Supported content assignment) (site.Proceeds content assignment)
      (fun reply scene => now scene ∧ (reply = true → never scene)) now := by
  have asked : Task.isCancelled.Secure (site.Supported content assignment)
      (site.Proceeds content assignment) (fun reply scene => now scene ∧ reply = false) now :=
    secure_idle steady going fun scene start => ⟨rfl, (going scene start).running⟩
  exact asked.weaken fun _ _ told => ⟨told.1, fun yes => by simp [told.2] at yes⟩

/-- The directory is there already. -/
theorem secure_ensureDirectory_going (placed : site.Placed assignment destination) :
    (Run.ensureDirectory destination).Secure (site.Supported content assignment)
      (site.Proceeds content assignment)
      (fun result scene => site.Going content scene ∧ result = .ok ()) (site.Going content) := by
  refine .ensureDirectory_of_destination (fun _ _ going => ⟨going, rfl⟩) fun path needed => ?_
  rw [placed.fits.neededDirectory? placed.chosen] at needed
  have made : (Task.createDirectories path).Secure (site.Supported content assignment)
      (site.Proceeds content assignment) _ (site.Going content) :=
    Task.secure_createDirectories (needed?_eq_some needed).2 steady_going
      (fun _ going => going.equipped.reached path needed) fun _ going => .of_core going rfl rfl
  refine made.weaken ?_
  rintro _ _ ⟨going, rfl⟩
  exact ⟨going, rfl⟩

/-- The temporary file may be written at any time. -/
theorem underway_set (placed : site.Placed assignment destination) {location : Location}
    (admits : site.Admits assignment location) {scene : Scene} (going : site.Going content scene)
    (octets : Bytes) :
    site.Proceeds content assignment scene
        (scene.changed (.ok (scene.tree.set location (.file octets)))) ∧
      site.Underway content assignment
        (scene.changed (.ok (scene.tree.set location (.file octets)))) := by
  have own := spot?_of_admits admits
  have landed := placed.admits_iff.1 admits
  have proceeds := @proceeds_set _ assignment _ _ going _ _ landed (placed.ne_mark own) octets
  refine ⟨proceeds, proceeds.going, ?_⟩
  intro place admits
  obtain rfl := Option.some.inj (own.symm.trans (spot?_of_admits admits))
  obtain ⟨_, contents⟩ := going.equipped.set_file landed (placed.ne_mark own) octets
  change (scene.tree.set location (.file octets)).content? location ≠ none
  simp [contents]

/-- The temporary file is created if its name allows for it. -/
theorem secure_create_going (placed : site.Placed assignment destination) :
    (Task.create (Destination.temporary destination assignment.index)).Secure
      (site.Supported content assignment) (site.Proceeds content assignment)
      (fun reply scene => site.Underway content assignment scene ∧ site.Reveals assignment reply)
      (site.Going content) := by
  have entry := placed.fits.isEntry_temporary placed.chosen
  refine .perform (fun _ => steady_underway.and fun _ _ _ same => same) ?_
  intro scene going
  have created : scene.tree.create _ = _ := FileTree.create_eq entry.noSlash
  rw [going.equipped.amid.landing_eq going.equipped.reached entry] at created
  rw [Scene.reply_create, Scene.after_create, created]
  cases landed : site.ready.landing (Destination.temporary destination assignment.index) with
  | ok location =>
    have admits := placed.admits_iff.2 landed
    obtain ⟨proceeds, underway⟩ := underway_set placed admits going []
    exact ⟨proceeds, underway, location, admits⟩
  | error fault =>
    have never : ∀ location, ¬ site.Admits assignment location := by
      intro location
      simp [placed.admits_iff, landed]
    exact ⟨.of_core going rfl rfl, ⟨going, fun location admits => absurd admits (never location)⟩,
      never⟩

/-- More is written to the temporary file, whatever is in it. -/
theorem secure_append_underway (placed : site.Placed assignment destination) {location : Location}
    (admits : site.Admits assignment location) (octets : Bytes) :
    (Task.append (Destination.temporary destination assignment.index) octets).Secure
      (site.Supported content assignment) (site.Proceeds content assignment)
      (fun reply scene => site.Underway content assignment scene ∧ reply = .ok ())
      (site.Underway content assignment) := by
  refine .perform (fun _ => steady_underway.and fun _ _ _ same => same) ?_
  intro scene underway
  -- nothing is known of what is in the file by now
  obtain ⟨written, file⟩ := Option.ne_none_iff_exists'.1 (underway.2 location admits)
  have found := underway.1.equipped.find (placed.fits.isEntry_temporary placed.chosen)
    (placed.admits_iff.1 admits) file
  have appended : scene.tree.append (Destination.temporary destination assignment.index) octets =
      .ok (scene.tree.set location (.file (written ++ octets))) := by
    rw [FileTree.append, found]
  rw [Scene.reply_append, Scene.after_append, appended]
  obtain ⟨proceeds, underway⟩ := underway_set placed admits underway.1 (written ++ octets)
  exact ⟨proceeds, underway, rfl⟩

/-- All lines of a text are written. -/
theorem secure_writeLines_underway (placed : site.Placed assignment destination)
    {location : Location} (admits : site.Admits assignment location) (lines : List Template.Line) :
    (Run.writeLines site.template assignment.row
        (Destination.temporary destination assignment.index) (lines.map .ok)).Secure
      (site.Supported content assignment) (site.Proceeds content assignment)
      (.either (fun _ => site.Underway content assignment) fun _ _ => False)
      (site.Underway content assignment) := by
  refine .writeLines_of_ok _ ?_ (fun line => ?_) lines
  · exact secure_isCancelled_going steady_underway (fun _ underway => underway.1) _
  · exact (secure_append_underway placed admits _).of_ok fun _ underway => underway

/-! ## The work of a row -/

/-- The temporary file of a row is written if its name allows for it. -/
theorem secure_writeTemporary_going (placed : site.Placed assignment destination)
    (text : Utf8.isText content = true) :
    (Run.writeTemporary site.template assignment.row
        (Destination.temporary destination assignment.index)).Secure
      (site.Supported content assignment) (site.Proceeds content assignment)
      (fun result scene => site.Underway content assignment scene ∧
        result ≠ .error .cancelled ∧ site.Reveals assignment result)
      (site.Going content) := by
  have looked : (Task.kind site.template).Secure (site.Supported content assignment)
      (site.Proceeds content assignment)
      (fun reply scene => site.Going content scene ∧ reply = .ok .file) (site.Going content) :=
    secure_idle steady_going (fun _ going => going) fun scene going => by
      refine ⟨rfl, ?_⟩
      change scene.tree.kind site.template = _
      rw [FileTree.kind, going.equipped.find_template placed.grounded]
      rfl
  have opened : (Task.read site.template).Secure (site.Supported content assignment)
      (site.Proceeds content assignment)
      (fun reply scene => site.Underway content assignment scene ∧ reply = .ok content)
      (site.Underway content assignment) :=
    secure_idle steady_underway (fun _ underway => underway.1) fun scene underway => by
      refine ⟨rfl, ?_⟩
      change scene.tree.read site.template = _
      rw [FileTree.read, underway.1.equipped.find_template placed.grounded]
  obtain ⟨lines, same, _⟩ := Template.exists_lines text
  refine .writeTemporary (site.Going content)
    (fun scene => site.Underway content assignment scene ∧ ∃ location, site.Admits assignment location)
    (fun read scene => (site.Underway content assignment scene ∧ read = content) ∧
      ∃ location, site.Admits assignment location)
    (looked.of_ok fun _ going => going)
    ((secure_create_going placed).either (fun _ _ told => told) fun fault scene told => ?_)
    (.assuming fun admits => opened.of_ok fun _ underway => ⟨⟨underway, rfl⟩, admits⟩)
    fun read => .assuming fun admits => .assuming ?_
  · refine ⟨told.1, ?_, told.2⟩
    rintro ⟨⟩
  · rintro rfl
    rw [same]
    obtain ⟨location, admits⟩ := admits
    refine (secure_writeLines_underway placed admits lines).weaken fun result scene told => ?_
    cases result with
    | ok _ =>
      refine ⟨told, ?_, location, admits⟩
      rintro ⟨⟩
    | error _ => exact told.elim

/-- Where no temporary file can be created there is none to be removed. -/
theorem secure_removeTemporary_going (placed : site.Placed assignment destination)
    (never : ∀ location, ¬ site.Admits assignment location) :
    (Run.removeTemporary (Destination.temporary destination assignment.index)).Secure
      (site.Supported content assignment) (site.Proceeds content assignment)
      (fun _ => site.Going content) (site.Going content) := by
  have entry := placed.fits.isEntry_temporary placed.chosen
  have removed : (Task.remove (Destination.temporary destination assignment.index)).Secure
      (site.Supported content assignment) (site.Proceeds content assignment)
      (fun _ => site.Going content) (site.Going content) := by
    refine .perform (fun _ => steady_going) fun scene going => ?_
    obtain ⟨fault, missed⟩ := going.equipped.remove entry fun location landed =>
      never location (placed.admits_iff.2 landed)
    rw [Scene.after_remove, missed]
    exact ⟨.of_core going rfl rfl, going⟩
  refine .removeTemporary removed fun message => .perform (fun _ => steady_going) fun _ going => ?_
  exact ⟨.of_core going rfl rfl, going.of_core rfl rfl⟩

theorem secure_stage_going (placed : site.Placed assignment destination)
    (text : Utf8.isText content = true) :
    (Run.stage site.template assignment.row destination assignment.index).Secure
      (site.Supported content assignment) (site.Proceeds content assignment)
      (site.Concludes assignment) (site.Going content) := by
  refine .stage ((secure_ensureDirectory_going placed).of_ok fun _ going => going)
    (secure_writeTemporary_going placed text) ?_ fun failure => .assuming fun told => ?_
  · rintro scene ⟨underway, _, location, admits⟩
    exact ⟨destination, location, placed.chosen, rfl, placed.admits_iff.1 admits,
      underway.2 location admits⟩
  · obtain ⟨other, never⟩ := told
    refine ((secure_removeTemporary_going placed never).strengthen fun _ underway =>
      underway.1).weaken fun _ _ _ => ⟨?_, never⟩
    rintro rfl
    exact other rfl

/-- A row that has not begun is on its way to be written. -/
theorem held_going (grounded : site.Grounded) (fits : site.Fits assignment)
    (text : Utf8.isText content = true) {scene : Scene} (going : site.Going content scene) :
    (site.writable content).Held assignment (assignment.pending site.template).work scene := by
  refine ⟨site.Going content, steady_going, going, .stagePlanned
    (secure_isCancelled_going steady_going (fun _ going => going) _) ?_
    fun destination chosen => secure_stage_going ⟨grounded, fits, chosen⟩ text⟩
  intro failure failed _ _
  refine ⟨fits.failure failure failed, ?_⟩
  rintro location ⟨destination, chosen, _⟩
  simp [failed] at chosen

end Site

end MailMerge
