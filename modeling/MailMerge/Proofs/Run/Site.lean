import MailMerge.Proofs.Plan
import MailMerge.Proofs.Tree.Making

/-!
# Where a run takes place

A run has a template, at some location, and a directory for all its files.  What the rows do to the
tree that they find is bounded by two trees: the one before the run, and the one that an attempt to
make the directory leaves behind (`Site.ready`).  Between these two (`Site.Amid`) no directory
disappears, none appears that the attempt would not make, and no file stands in the way of one.

As soon as the directory is there, nothing more of this is open: an entry of the directory leads to
the same place in every tree amid as in the ready one (`Amid.target_eq`).
-/

namespace MailMerge

open MailMerge.Path (IsPlain Lineage)

set_option autoImplicit false

/-- The regular files, by their locations. -/
abbrev Files := Location → Option Bytes

/-- The surroundings of a run. -/
structure Site where
  /-- The tree before the run. -/
  before : FileTree
  /-- The path of the template. -/
  template : Path
  /-- The location of the template. -/
  mark : Location
  /-- The directory for all files. -/
  directory : Path

namespace Site

variable (site : Site)

/-- The directory that has to be made, if its path names one. -/
def needed? : Option Path :=
  if site.directory.trimmed.isEmpty then none else some site.directory.trimmed

/-- The tree after an attempt to make the directory. -/
def ready : FileTree :=
  match site.needed? with
  | none => site.before
  | some path => (site.before.createDirectories path).1

/-- The directory is there. -/
def Reached (tree : FileTree) : Prop :=
  ∀ path, site.needed? = some path → tree.isDirectory path = true

/-- A tree between the one before the run and the ready one, but for regular files that were written
where none was and no directory will be. -/
structure Amid (tree : FileTree) : Prop where
  base : tree.base = site.before.base
  kept : ∀ location, site.before.HasDirectory location → tree.HasDirectory location
  within : ∀ location, tree.HasDirectory location → site.ready.HasDirectory location
  files : ∀ location, site.before.content? location ≠ none → tree.content? location ≠ none
  free : ∀ location, site.ready.HasDirectory location → tree.content? location = none
  still : ¬ site.Reached site.ready →
    ∀ location, tree.content? location = site.before.content? location

variable {site}

/-! ## The ready tree -/

theorem needed?_eq_some {path : Path} (needed : site.needed? = some path) :
    path = site.directory.trimmed ∧ path.bytes ≠ [] := by
  unfold needed? at needed
  split_ifs at needed with empty
  obtain rfl := Option.some.inj needed
  exact ⟨rfl, by simpa [Path.isEmpty] using empty⟩

/-- The paths at which directories may be made. -/
theorem exists_lineage {path : Path} (needed : site.needed? = some path) :
    ∃ above, FileTree.ancestors path.bytes.length path = path :: above ∧
      Lineage (path :: above) := by
  obtain ⟨rfl, _⟩ := needed?_eq_some needed
  obtain ⟨above, same⟩ := Path.ancestors_eq_cons site.directory.trimmed.bytes.length
    site.directory.trimmed
  exact ⟨above, same, same ▸ site.directory.lineage_trimmed⟩

theorem ready_of_needed {path : Path} (needed : site.needed? = some path) :
    site.ready = (site.before.createDirectories path).1 := by
  rw [ready, needed]

/-- What an attempt to make the directory leaves behind, if the path is accepted. -/
theorem made_ready {path : Path} {above : List Path} (needed : site.needed? = some path)
    (same : FileTree.ancestors path.bytes.length path = path :: above)
    (lineage : Lineage (path :: above)) (accepted : path.refusal? = none) :
    FileTree.Made site.before path above site.ready (site.before.createDirectories path).2 := by
  have made := FileTree.made_createAlong site.before lineage (.inr accepted)
  rw [ready_of_needed needed, FileTree.createDirectories, same]
  exact made

/-- A path that is refused is not even tried. -/
theorem ready_of_refused {path : Path} {fault : Fault} (needed : site.needed? = some path)
    (refused : path.refusal? = some fault) : site.ready = site.before := by
  obtain ⟨above, same, _⟩ := exists_lineage needed
  have named := (needed?_eq_some needed).2
  have failed : site.before.createDirectory path = .error fault := by
    rw [FileTree.createDirectory, FileTree.target_of_refused _ refused]
  have other := Path.ne_notFound_of_refused named refused
  rw [ready_of_needed needed, FileTree.createDirectories, same, FileTree.createAlong]
  rw [if_neg fun empty => named (FileTree.components_isEmpty_iff.1 empty), failed]
  split
  case h_1 next created => simp at created
  case h_2 created => exact absurd (Except.error.inj created) other
  case h_3 => rfl

/-- The ready tree is the tree before the run with directories added, all of them on the way to the
directory. -/
theorem grown_ready (site : Site) : ∃ paths, FileTree.Grown site.before paths site.ready ∧
    ∀ path ∈ paths, ∀ tree, site.Reached tree → ∃ passed, tree.walk path = .ok passed := by
  cases needed : site.needed? with
  | none =>
    refine ⟨[], ?_, by simp⟩
    rw [ready, needed]
    exact .refl _ _
  | some path =>
    obtain ⟨above, same, lineage⟩ := exists_lineage needed
    refine ⟨path :: above, ?_, fun other member tree reached => ?_⟩
    · cases refused : path.refusal? with
      | none => exact (made_ready needed same lineage refused).grown
      | some fault =>
        rw [ready_of_refused needed refused]
        exact .refl _ _
    · have directory := reached path needed
      have accepted := FileTree.refusal?_of_isDirectory directory
      obtain ⟨location, walked⟩ := (FileTree.isDirectory_iff tree accepted).1 directory
      exact FileTree.walk_of_lineage lineage accepted walked member

theorem base_ready : site.ready.base = site.before.base := by
  obtain ⟨_, grown, _⟩ := site.grown_ready
  exact grown.base

theorem content?_ready (location : Location) :
    site.ready.content? location = site.before.content? location := by
  obtain ⟨_, grown, _⟩ := site.grown_ready
  exact grown.content? location

theorem hasDirectory_ready {location : Location} (directory : site.before.HasDirectory location) :
    site.ready.HasDirectory location := by
  obtain ⟨_, grown, _⟩ := site.grown_ready
  exact grown.directories location directory

/-- Where the ready tree has a directory there was no regular file. -/
theorem free_of_ready {location : Location} (directory : site.ready.HasDirectory location) :
    site.before.content? location = none := by
  rw [← content?_ready]
  exact directory.content?

theorem amid_before : site.Amid site.before where
  base := rfl
  kept _ directory := directory
  within _ directory := hasDirectory_ready directory
  files _ file := file
  free _ directory := free_of_ready directory
  still _ _ := rfl

/-! ## The directory is there -/

theorem Amid.walk_mono {tree : FileTree} (amid : site.Amid tree) {path : Path} {location : Location}
    (walked : tree.walk path = .ok location) : site.ready.walk path = .ok location := by
  have same : site.ready.start path = tree.start path := by
    simp only [FileTree.start, base_ready, amid.base]
  rw [FileTree.walk, same]
  exact FileTree.enterAll_mono amid.within walked

theorem Amid.target_mono {tree : FileTree} (amid : site.Amid tree) {path : Path}
    {goal : FileTree.Target} (found : tree.target path = .ok goal) :
    site.ready.target path = .ok goal :=
  FileTree.target_mono (base_ready.trans amid.base.symm) amid.within found

theorem Amid.isDirectory_mono {tree : FileTree} (amid : site.Amid tree) {path : Path}
    (directory : tree.isDirectory path = true) : site.ready.isDirectory path = true :=
  FileTree.isDirectory_mono (base_ready.trans amid.base.symm) amid.within directory

theorem Amid.reached_ready {tree : FileTree} (amid : site.Amid tree) (reached : site.Reached tree) :
    site.Reached site.ready :=
  fun path needed => amid.isDirectory_mono (reached path needed)

theorem Reached.mono {tree later : FileTree} (base : later.base = tree.base)
    (more : ∀ location, tree.HasDirectory location → later.HasDirectory location)
    (reached : site.Reached tree) : site.Reached later :=
  fun path needed => FileTree.isDirectory_mono base more (reached path needed)

/-- When the directory is there, a walk to it arrives. -/
theorem Reached.walk {tree : FileTree} (reached : site.Reached tree) :
    ∃ home, tree.walk site.directory = .ok home := by
  cases needed : site.needed? with
  | none =>
    have empty : site.directory.trimmed.bytes = [] := by
      unfold needed? at needed
      split_ifs at needed with empty
      simpa [Path.isEmpty] using empty
    refine ⟨tree.start site.directory.trimmed, ?_⟩
    rw [← FileTree.walk_trimmed, FileTree.walk, FileTree.names_of_bytes_eq_nil empty]
    rfl
  | some path =>
    have directory := reached path needed
    obtain ⟨home, walked⟩ :=
      (FileTree.isDirectory_iff tree (FileTree.refusal?_of_isDirectory directory)).1 directory
    obtain ⟨rfl, _⟩ := needed?_eq_some needed
    exact ⟨home, FileTree.walk_trimmed tree site.directory ▸ walked⟩

/-- The directory is reached under its trimmed path as well. -/
theorem Reached.walk_parent {tree : FileTree} (reached : site.Reached tree) :
    ∃ home, ∀ parent, parent = site.directory ∨ parent = site.directory.trimmed →
      tree.walk parent = .ok home := by
  obtain ⟨home, walked⟩ := reached.walk
  refine ⟨home, fun parent same => ?_⟩
  rcases same with rfl | rfl
  · exact walked
  · rw [FileTree.walk_trimmed, walked]

/-- A directory of the ready tree that is no new one is there all along, and the new ones are on the
way to the directory. -/
theorem Amid.directory_of_reached {tree : FileTree} (amid : site.Amid tree)
    (reached : site.Reached tree) {location : Location}
    (directory : site.ready.HasDirectory location) : tree.HasDirectory location := by
  obtain ⟨paths, grown, passed⟩ := site.grown_ready
  cases occupied : site.before.entry? location with
  | some entry =>
    have same := grown.kept location (by simp [occupied])
    exact amid.kept location (same.symm.trans directory)
  | none =>
    rcases grown.added location occupied with free | ⟨_, path, member, wanted, found⟩
    · simp [FileTree.HasDirectory, free] at directory
    · obtain ⟨place, walked⟩ := passed path member tree reached
      have accepted := FileTree.refusal?_of_target found
      rw [FileTree.walk_eq tree accepted] at walked
      cases target : tree.target path with
      | error fault => simp [target] at walked
      | ok goal =>
        rw [amid.target_mono target] at found
        obtain rfl := Except.ok.inj found
        rw [target] at walked
        simp only at walked
        split at walked
        · assumption
        · simp at walked
        · simp at walked

theorem Amid.hasDirectory_iff {tree : FileTree} (amid : site.Amid tree)
    (reached : site.Reached tree) (location : Location) :
    tree.HasDirectory location ↔ site.ready.HasDirectory location :=
  ⟨amid.within location, amid.directory_of_reached reached⟩

/-! ## Entries of the directory -/

/-- A path of an entry of the directory. -/
def IsEntry (site : Site) (path : Path) : Prop :=
  ∃ parent name, IsPlain name ∧ path = Path.join parent ⟨name⟩ ∧
    (parent = site.directory ∨ parent = site.directory.trimmed)

theorem IsEntry.noSlash {path : Path} (entry : site.IsEntry path) :
    FileTree.endsInSlash path = false := by
  obtain ⟨parent, name, plain, rfl, _⟩ := entry
  exact FileTree.endsInSlash_join parent plain

/-- An entry of the directory leads to the same place in every tree amid. -/
theorem Amid.target_eq {tree : FileTree} (amid : site.Amid tree) (reached : site.Reached tree)
    {path : Path} (entry : site.IsEntry path) : tree.target path = site.ready.target path := by
  obtain ⟨parent, name, plain, rfl, same⟩ := entry
  obtain ⟨home, walks⟩ := reached.walk_parent
  have here := walks parent same
  rw [FileTree.target_join here plain, FileTree.target_join (amid.walk_mono here) plain]

/-- A file that is an entry of the directory lands at the same place in every tree amid. -/
theorem Amid.landing_eq {tree : FileTree} (amid : site.Amid tree) (reached : site.Reached tree)
    {path : Path} (entry : site.IsEntry path) : tree.landing path = site.ready.landing path := by
  unfold FileTree.landing
  rw [amid.target_eq reached entry]
  split
  · rfl
  · rfl
  · next location _ _ =>
    have same := amid.hasDirectory_iff reached location
    unfold FileTree.HasDirectory at same
    simp only [same]

/-- Whatever a path leads to in a tree amid, its location was known before. -/
theorem Amid.location?_of_target {tree : FileTree} (amid : site.Amid tree) {path : Path}
    {location : Location} {wanted : Bool}
    (found : tree.target path = .ok (.place location wanted)) :
    site.before.location? path = some location :=
  FileTree.location?_of_target amid.base
    (fun other directory => free_of_ready (amid.within other directory)) found

/-- An entry of the directory has a location only if the path leads there. -/
theorem Amid.target_of_location? {tree : FileTree} (amid : site.Amid tree)
    (reached : site.Reached tree) {path : Path} (entry : site.IsEntry path) {location : Location}
    (located : site.before.location? path = some location) :
    tree.target path = .ok (.place location false) := by
  obtain ⟨parent, name, plain, rfl, same⟩ := entry
  obtain ⟨home, walks⟩ := reached.walk_parent
  have here := walks parent same
  have target := FileTree.target_join here plain
  cases found : tree.target (parent.join ⟨name⟩) with
  | ok goal =>
    rw [found] at target
    split at target
    · simp at target
    · split_ifs at target
      rw [Except.ok.inj target] at found ⊢
      rw [amid.location?_of_target found] at located
      rw [Option.some.inj located]
  | error fault =>
    rw [found] at target
    unfold FileTree.location? at located
    rw [Path.names_join parent plain, List.reverse_append, List.reverse_singleton,
      List.singleton_append] at located
    split at target
    case h_1 refused => simp [refused] at located
    case h_2 =>
      split_ifs at target with long
      · split_ifs at located
        simp only [long, decide_true, Bool.or_true, if_true] at located
        split at located <;> simp at located

/-! ## What may be done to a tree amid -/

/-- A directory that could not be created in the ready tree is one that is there in it. -/
theorem Amid.createDirectory {tree next : FileTree} (amid : site.Amid tree) {path : Path}
    (blocked : ∀ other, site.ready.createDirectory path ≠ .ok other)
    (created : tree.createDirectory path = .ok next) :
    site.Amid next ∧ (∀ location, next.content? location = tree.content? location) ∧
      ∀ location, tree.HasDirectory location → next.HasDirectory location := by
  obtain ⟨name, above, wanted, found, vacant, rfl⟩ := FileTree.createDirectory_eq_ok created
  have content : ∀ location, (tree.set (name :: above) .directory).content? location =
      tree.content? location := FileTree.content?_set_directory vacant
  have more : ∀ location, tree.HasDirectory location →
      (tree.set (name :: above) .directory).HasDirectory location :=
    fun location directory => (FileTree.hasDirectory_set_directory ..).2 (.inr directory)
  have there : site.ready.HasDirectory (name :: above) := by
    cases entry : site.ready.entry? (name :: above) with
    | none =>
      refine absurd ?_ (blocked (site.ready.set (name :: above) .directory))
      rw [FileTree.createDirectory, amid.target_mono found]
      simp [entry]
    | some found =>
      cases found with
      | directory => exact entry
      | file octets =>
        have before := @content?_ready site (name :: above)
        rw [FileTree.content?_eq_some.2 entry] at before
        have file := amid.files (name :: above) (by simp [← before])
        exact absurd (FileTree.content?_eq_none.2 (.inl vacant)) file
  refine ⟨⟨amid.base, fun location directory => more _ (amid.kept location directory),
    ?_, ?_, ?_, ?_⟩,
    content, more⟩
  · intro location directory
    rcases (FileTree.hasDirectory_set_directory ..).1 directory with rfl | directory
    · exact there
    · exact amid.within location directory
  · exact fun location file => content location ▸ amid.files location file
  · exact fun location directory => (content location).trans (amid.free location directory)
  · exact fun missed location => (content location).trans (amid.still missed location)

/-- A file may be written where there is no directory in the ready tree. -/
theorem Amid.set_file {tree : FileTree} (amid : site.Amid tree) (reached : site.Reached tree)
    {name : Bytes} {above : Location} (vacant : ¬ site.ready.HasDirectory (name :: above))
    (content : Bytes) : site.Amid (tree.set (name :: above) (.file content)) := by
  have same := FileTree.hasDirectory_set_file
    (fun directory => vacant (amid.within _ directory)) content
  refine ⟨amid.base, ?_, ?_, ?_, ?_, fun missed => absurd (amid.reached_ready reached) missed⟩
  · exact fun location directory => (same location).2 (amid.kept location directory)
  · exact fun location directory => amid.within location ((same location).1 directory)
  · intro location file
    rw [FileTree.content?_set_file]
    split
    · simp
    · exact amid.files location file
  · intro location directory
    rw [FileTree.content?_set_file, if_neg (by rintro rfl; exact vacant directory)]
    exact amid.free location directory

/-- A file may be removed where there was none before the run. -/
theorem Amid.erase {tree : FileTree} (amid : site.Amid tree) (reached : site.Reached tree)
    {name : Bytes} {above : Location} (noDirectory : ¬ tree.HasDirectory (name :: above))
    (vacant : site.before.content? (name :: above) = none) :
    site.Amid (tree.erase (name :: above)) := by
  have same := FileTree.hasDirectory_erase noDirectory
  refine ⟨amid.base, ?_, ?_, ?_, ?_, fun missed => absurd (amid.reached_ready reached) missed⟩
  · exact fun location directory => (same location).2 (amid.kept location directory)
  · exact fun location directory => amid.within location ((same location).1 directory)
  · intro location file
    rw [FileTree.content?_erase, if_neg (by rintro rfl; exact file vacant)]
    exact amid.files location file
  · intro location directory
    rw [FileTree.content?_erase]
    split
    · rfl
    · exact amid.free location directory

/-! ## Attempts to make the directory -/

/-- Where a walk arrives in the ready tree, a walk in a tree amid arrives as well or finds that
something is missing. -/
theorem Amid.enterAll {tree : FileTree} (amid : site.Amid tree) {location last : Location}
    {names : List Bytes} (walked : site.ready.enterAll location names = .ok last) :
    tree.enterAll location names = .ok last ∨ tree.enterAll location names = .error .notFound := by
  induction names generalizing location with
  | nil => exact .inl walked
  | cons name rest ih =>
    simp only [FileTree.enterAll, FileTree.enter] at walked ⊢
    split_ifs at walked ⊢ with here up long
    · exact ih walked
    · exact ih walked
    · cases entry : tree.entry? (name :: location) with
      | none => exact .inr rfl
      | some found =>
        split at walked
        case h_2 => simp at walked
        case h_1 next entered =>
          split at entered
          case h_2 => simp at entered
          case h_3 => simp at entered
          case h_1 directory =>
            obtain rfl := Except.ok.inj entered
            cases found with
            | directory => exact ih walked
            | file content =>
              have := amid.free _ directory
              simp [FileTree.content?_eq_some.2 entry] at this

/-- A path that leads somewhere, but not to a directory, is none of the directories to make. -/
theorem Amid.attempt_of_target {tree : FileTree} (amid : site.Amid tree) {path : Path}
    {fault : Fault} {goal : FileTree.Target} (found : tree.target path = .ok goal)
    (failed : tree.createDirectory path = .error fault) :
    tree.isDirectory path = true ∨ site.ready.isDirectory path = false := by
  have accepted := FileTree.refusal?_of_target found
  rw [FileTree.isDirectory_iff tree accepted, FileTree.walk_eq tree accepted, found,
    ← Bool.not_eq_true, FileTree.isDirectory_iff _ accepted, FileTree.walk_eq _ accepted,
    amid.target_mono found]
  cases goal with
  | here location => exact .inl ⟨location, rfl⟩
  | place location wanted =>
    cases entry : tree.entry? location with
    | none => simp [FileTree.createDirectory, found, entry] at failed
    | some there =>
      cases there with
      | directory => exact .inl ⟨location, by simp [entry]⟩
      | file content =>
        refine .inr ?_
        have other : site.ready.entry? location ≠ some .directory := by
          intro directory
          have := amid.free location directory
          simp [FileTree.content?_eq_some.2 entry] at this
        rintro ⟨last, walked⟩
        simp only at walked
        split at walked
        · exact other ‹_›
        · simp at walked
        · simp at walked

/-- An attempt that fails, and not because something is missing, tells whether the directory is
there or cannot be. -/
theorem Amid.attempt {tree : FileTree} (amid : site.Amid tree) {path : Path} {fault : Fault}
    (failed : tree.createDirectory path = .error fault) (other : fault ≠ .notFound) :
    tree.isDirectory path = true ∨ site.ready.isDirectory path = false := by
  cases found : tree.target path with
  | ok goal => exact amid.attempt_of_target found failed
  | error fault' =>
    obtain rfl : fault' = fault := by
      rw [FileTree.createDirectory, found] at failed
      exact Except.error.inj failed
    refine .inr (Bool.not_eq_true _ ▸ fun directory => ?_)
    have accepted := FileTree.refusal?_of_isDirectory directory
    obtain ⟨location, walked⟩ := (FileTree.isDirectory_iff _ accepted).1 directory
    have missed := FileTree.walk_of_target accepted found
    have same : site.ready.start path = tree.start path := by
      simp only [FileTree.start, base_ready, amid.base]
    rw [FileTree.walk, same] at walked
    rcases amid.enterAll walked with arrives | missing
    · rw [FileTree.walk, arrives] at missed
      simp at missed
    · rw [FileTree.walk, missing] at missed
      exact other (Except.error.inj missed).symm

/-- Behind a directory that can be entered a path leads where it leads in the ready tree. -/
theorem Amid.target_of_parent {tree : FileTree} (amid : site.Amid tree) {path parent : Path}
    (relation : Path.HasParent path parent) (accepted : path.refusal? = none) {passed : Location}
    (walked : tree.walk parent = .ok passed) : tree.target path = site.ready.target path := by
  obtain ⟨last, targets⟩ := FileTree.target_of_parent relation accepted
  rw [targets, targets, walked, amid.walk_mono walked]

end Site

end MailMerge
