import MailMerge.Proofs.Run.Terms

/-!
# What a row may change

Whatever a row does, it changes nothing but the file under its temporary name, or it makes a
directory that is needed (`Site.Keeps`).  So it keeps to the terms of the run (`Keeps.step`), and what
it knows about the template remains true (`Knows.keeps`).

Once its file is complete the row moves it to its destination.  Then there is the file, there is
nothing under the temporary name, and everything else is as it was (`Site.Carries`).
-/

namespace MailMerge

open Run (Assignment)

set_option autoImplicit false

namespace Site

variable {site : Site} {assignment : Assignment} {destination : Path}

/-- Where the temporary name leads anywhere, the directory is there. -/
theorem Fits.reached_of_target (fits : site.Fits assignment)
    (chosen : assignment.destination = .ok destination) {tree : FileTree} {goal : FileTree.Target}
    (found : tree.target (Destination.temporary destination assignment.index) = .ok goal) :
    site.Reached tree := by
  intro path needed
  obtain ⟨name, plain, rfl⟩ := fits.entry destination chosen
  obtain ⟨rfl, named⟩ := needed?_eq_some needed
  rw [Path.temporary_join site.directory plain] at found
  have parent := Path.hasParent_join site.directory.trimmed
    (Path.isPlain_temporaryName plain assignment.index)
  have accepted := (FileTree.refusal?_parent parent
    (FileTree.refusal?_of_target found)).resolve_left named
  exact (FileTree.isDirectory_iff tree accepted).2 (FileTree.walk_parent_of_target parent found)

/-- What a row's operation may do to a tree. -/
structure Keeps (site : Site) (assignment : Assignment) (tree next : FileTree) : Prop where
  amid : site.Amid next
  base : next.base = tree.base
  directories : ∀ location, tree.HasDirectory location → next.HasDirectory location
  others : ∀ location, site.spot? assignment ≠ some location →
    next.content? location = tree.content? location

theorem Keeps.step {scene : Scene} {next : FileTree}
    (keeps : site.Keeps assignment scene.tree next) :
    site.Step assignment scene (scene.changed (.ok next)) :=
  ⟨keeps.amid, keeps.base, keeps.directories, keeps.others, rfl, rfl, rfl⟩

theorem step_of_error {scene : Scene} (amid : site.Amid scene.tree) (fault : Fault) :
    site.Step assignment scene (scene.changed (.error fault)) :=
  step_of_tree amid rfl rfl rfl rfl

theorem step_of_keeps {scene : Scene} {change : Except Fault FileTree} (amid : site.Amid scene.tree)
    (keeps : ∀ next, change = .ok next → site.Keeps assignment scene.tree next) :
    site.Step assignment scene (scene.changed change) := by
  cases change with
  | ok next => exact (keeps next rfl).step
  | error fault => exact step_of_error amid fault

theorem Keeps.reached {tree next : FileTree} (keeps : site.Keeps assignment tree next)
    (reached : site.Reached tree) : site.Reached next :=
  reached.mono keeps.base keeps.directories

/-- The template is none of the files that a row may change. -/
theorem Knows.keeps (placed : site.Placed assignment destination) {content : Bytes}
    {own own' : Option Bytes} {scene : Scene} {next : FileTree}
    (knows : site.Knows assignment content own scene)
    (keeps : site.Keeps assignment scene.tree next)
    (file : ∀ location, site.spot? assignment = some location → next.content? location = own') :
    site.Knows assignment content own' (scene.changed (.ok next)) :=
  ⟨keeps.amid, (keeps.others site.mark fun spot => placed.ne_mark spot rfl).trans knows.template,
    file⟩

variable {tree next : FileTree} {location : Location}

theorem keeps_createDirectory (amid : site.Amid tree) {path : Path}
    (blocked : ∀ other, site.ready.createDirectory path ≠ .ok other)
    (created : tree.createDirectory path = .ok next) : site.Keeps assignment tree next ∧
      ∀ location, next.content? location = tree.content? location := by
  obtain ⟨amid', content, directories⟩ := amid.createDirectory blocked created
  exact ⟨⟨amid', amid'.base.trans amid.base.symm, directories, fun location _ => content location⟩,
    content⟩

/-! ## The temporary file -/

/-- A row may write to its temporary file. -/
theorem keeps_set (amid : site.Amid tree) (reached : site.Reached tree)
    (spot : site.spot? assignment = some location)
    (named : ∃ name above, location = name :: above) (vacant : ¬ tree.HasDirectory location)
    (octets : Bytes) : site.Keeps assignment tree (tree.set location (.file octets)) ∧
      (tree.set location (.file octets)).content? location = some octets := by
  obtain ⟨name, above, rfl⟩ := named
  refine ⟨⟨amid.set_file reached (mt (amid.directory_of_reached reached) vacant) octets, rfl,
    fun location => (FileTree.hasDirectory_set_file vacant octets location).2,
    fun location other => ?_⟩, ?_⟩
  · rw [FileTree.content?_set_file, if_neg (by rintro rfl; exact other spot)]
  · rw [FileTree.content?_set_file, if_pos rfl]

/-- A row may remove its temporary file. -/
theorem keeps_erase (fits : site.Fits assignment) (amid : site.Amid tree)
    (reached : site.Reached tree) (spot : site.spot? assignment = some location)
    (named : ∃ name above, location = name :: above) (vacant : ¬ tree.HasDirectory location) :
    site.Keeps assignment tree (tree.erase location) ∧
      (tree.erase location).content? location = none := by
  obtain ⟨name, above, rfl⟩ := named
  have none := FileTree.content?_eq_none.2 (.inl (fits.fresh _ spot))
  refine ⟨⟨amid.erase reached vacant none, rfl,
    fun location => (FileTree.hasDirectory_erase vacant location).2, fun location other => ?_⟩, ?_⟩
  · rw [FileTree.content?_erase, if_neg (by rintro rfl; exact other spot)]
  · rw [FileTree.content?_erase, if_pos rfl]

theorem keeps_create (fits : site.Fits assignment)
    (chosen : assignment.destination = .ok destination) (amid : site.Amid tree)
    (created : tree.create (Destination.temporary destination assignment.index) = .ok next) :
    site.Keeps assignment tree next ∧ site.Reached tree ∧
      ∃ location, site.spot? assignment = some location ∧ next.content? location = some [] := by
  rw [FileTree.create_eq (fits.isEntry_temporary chosen).noSlash] at created
  split at created
  case h_2 => simp at created
  case h_1 location landed =>
    obtain rfl := Except.ok.inj created
    obtain ⟨found, vacant⟩ := FileTree.target_of_landing landed
    have spot : site.spot? assignment = some location := by
      rw [spot?_of_chosen chosen]
      exact amid.location?_of_target found
    have reached := fits.reached_of_target chosen found
    obtain ⟨keeps, file⟩ :=
      keeps_set amid reached spot (FileTree.exists_cons_of_place found) vacant []
    exact ⟨keeps, reached, location, spot, file⟩

/-- What the temporary name leads to is the row's own file. -/
theorem spot?_of_find (fits : site.Fits assignment)
    (chosen : assignment.destination = .ok destination) (amid : site.Amid tree) {content : Bytes}
    (there : tree.find (Destination.temporary destination assignment.index) =
      .ok (location, .file content)) :
    site.Reached tree ∧ site.spot? assignment = some location ∧
      (∃ name above, location = name :: above) ∧ ¬ tree.HasDirectory location ∧
      tree.content? location = some content := by
  obtain ⟨found, file⟩ := FileTree.target_of_find there
  refine ⟨fits.reached_of_target chosen found, ?_, FileTree.exists_cons_of_place found, ?_, file⟩
  · rw [spot?_of_chosen chosen]
    exact amid.location?_of_target found
  · intro directory
    simp [directory.content?] at file

/-- A file at the place of the row's own is what the temporary name leads to. -/
theorem find_of_spot (fits : site.Fits assignment)
    (chosen : assignment.destination = .ok destination) (amid : site.Amid tree)
    (reached : site.Reached tree) (spot : site.spot? assignment = some location) {content : Bytes}
    (file : tree.content? location = some content) :
    tree.find (Destination.temporary destination assignment.index) =
      .ok (location, .file content) := by
  rw [spot?_of_chosen chosen] at spot
  have found := amid.target_of_location? reached (fits.isEntry_temporary chosen) spot
  exact FileTree.find_of_target found file

theorem keeps_append (fits : site.Fits assignment)
    (chosen : assignment.destination = .ok destination) (amid : site.Amid tree) {octets : Bytes}
    (appended : tree.append (Destination.temporary destination assignment.index) octets =
      .ok next) :
    site.Keeps assignment tree next ∧ ∀ location written, site.spot? assignment = some location →
      tree.content? location = some written →
        next.content? location = some (written ++ octets) := by
  obtain ⟨location, content, there, rfl⟩ := FileTree.exists_of_append appended
  obtain ⟨reached, spot, named, vacant, file⟩ := spot?_of_find fits chosen amid there
  obtain ⟨keeps, longer⟩ := keeps_set amid reached spot named vacant (content ++ octets)
  refine ⟨keeps, fun other written spot' file' => ?_⟩
  obtain rfl := Option.some.inj (spot.symm.trans spot')
  obtain rfl := Option.some.inj (file.symm.trans file')
  exact longer

/-- After the temporary file was removed it is not there. -/
theorem keeps_remove (fits : site.Fits assignment)
    (chosen : assignment.destination = .ok destination) (amid : site.Amid tree)
    (removed : tree.remove (Destination.temporary destination assignment.index) = .ok next) :
    site.Keeps assignment tree next ∧
      ∀ location, site.spot? assignment = some location → next.content? location = none := by
  obtain ⟨location, content, there, rfl⟩ := FileTree.exists_of_remove removed
  obtain ⟨reached, spot, named, vacant, _⟩ := spot?_of_find fits chosen amid there
  obtain ⟨keeps, gone⟩ := keeps_erase fits amid reached spot named vacant
  refine ⟨keeps, fun other spot' => ?_⟩
  obtain rfl := Option.some.inj (spot.symm.trans spot')
  exact gone

/-- If it cannot be removed it was not there. -/
theorem content?_of_unremoved (fits : site.Fits assignment)
    (chosen : assignment.destination = .ok destination) (amid : site.Amid tree)
    (reached : site.Reached tree) {fault : Fault}
    (failed : tree.remove (Destination.temporary destination assignment.index) = .error fault)
    (spot : site.spot? assignment = some location) : tree.content? location = none := by
  by_contra file
  obtain ⟨content, there⟩ := Option.ne_none_iff_exists'.1 file
  rw [FileTree.remove, find_of_spot fits chosen amid reached spot there] at failed
  simp at failed

/-! ## The complete file -/

/-- A row's file has been moved from its temporary name to some place. -/
structure Carries (site : Site) (assignment : Assignment) (octets : Bytes) (home : Location)
    (tree next : FileTree) : Prop where
  amid : site.Amid next
  base : next.base = tree.base
  directories : ∀ location, tree.HasDirectory location → next.HasDirectory location
  file : next.content? home = some octets
  own : ∀ location, location ≠ home → site.spot? assignment = some location →
    next.content? location = none
  others : ∀ location, location ≠ home → site.spot? assignment ≠ some location →
    next.content? location = tree.content? location

/-- What is found under the temporary name may be moved to where the destination leads. -/
theorem carries_rename (fits : site.Fits assignment)
    (chosen : assignment.destination = .ok destination) (amid : site.Amid tree) {octets : Bytes}
    (there : tree.find (Destination.temporary destination assignment.index) =
      .ok (location, .file octets))
    (renamed : tree.rename (Destination.temporary destination assignment.index) destination =
      .ok next) :
    ∃ home, tree.landing destination = .ok home ∧
      site.before.location? destination = some home ∧
      site.Carries assignment octets home tree next := by
  obtain ⟨reached, spot, named, noDirectory, _⟩ := spot?_of_find fits chosen amid there
  rw [FileTree.rename_eq there (fits.isEntry chosen).noSlash] at renamed
  split at renamed
  case h_2 => simp at renamed
  case h_1 home landed =>
    obtain rfl := Except.ok.inj renamed
    obtain ⟨found, vacant⟩ := FileTree.target_of_landing landed
    refine ⟨home, landed, amid.location?_of_target found, ?_⟩
    obtain ⟨keeps, gone⟩ := keeps_erase fits amid reached spot named noDirectory
    obtain ⟨name, above, rfl⟩ := FileTree.exists_cons_of_place found
    have empty : ¬ (tree.erase location).HasDirectory (name :: above) := by
      obtain ⟨_, _, rfl⟩ := named
      exact mt (FileTree.hasDirectory_erase noDirectory _).1 vacant
    have free := mt (keeps.amid.directory_of_reached (keeps.reached reached)) empty
    refine ⟨keeps.amid.set_file (keeps.reached reached) free octets, keeps.base,
      fun place directory => ?_, ?_, fun place away own => ?_, fun place away other => ?_⟩
    · exact (FileTree.hasDirectory_set_file empty octets place).2 (keeps.directories place directory)
    · rw [FileTree.content?_set_file, if_pos rfl]
    · obtain rfl := Option.some.inj (spot.symm.trans own)
      rw [FileTree.content?_set_file, if_neg away, gone]
    · rw [FileTree.content?_set_file, if_neg away, keeps.others place other]

end Site

end MailMerge
