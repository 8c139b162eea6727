import MailMerge.Proofs.Template.Lines
import MailMerge.Proofs.Tree.Resolution

/-!
# Texts in a tree

Which operations can put something that is no text where only text was: none, as long as what is
added to files is text and what is moved is text (`FileTree.KeepsTexts`).  A path that leads to a
place where no file is but of text (`FileTree.Legible`) stays such a path, and what is read there is
text.

An operation on a tree fails for a reason that the file system gives.  It never judges contents
(`FileTree.SystemOnly`).
-/

namespace MailMerge

set_option autoImplicit false

/-- Whether a fault is that a content is not text. -/
def Fault.concernsText : Fault → Bool
  | .notText | .lineNotText _ => true
  | .system _ | .nulInPath | .other _ => false

/-- Text behind text is text. -/
theorem Utf8.isText_append {left right : Bytes} (first : isText left = true)
    (second : isText right = true) : isText (left ++ right) = true := by
  obtain ⟨text, rfl⟩ := exists_encode_of_isText first
  obtain ⟨more, rfl⟩ := exists_encode_of_isText second
  rw [← encode_append]
  exact isText_encode _

namespace FileTree

variable {tree next : FileTree} {path : Path} {location : Location}

/-! ## Faults -/

/-- If there is no reply but a fault, it does not concern texts. -/
def SystemOnly {α : Type} (reply : Except Fault α) : Prop :=
  ∀ fault, reply = .error fault → fault.concernsText = false

theorem systemOnly_enter (tree : FileTree) (location : Location) (name : Bytes) :
    SystemOnly (tree.enter location name) := by
  intro fault failed
  unfold enter at failed
  grind [Fault.concernsText]

theorem systemOnly_enterAll (tree : FileTree) (location : Location) (names : List Bytes) :
    SystemOnly (tree.enterAll location names) := by
  induction names generalizing location with
  | nil => exact fun _ failed => absurd failed (by simp [enterAll])
  | cons name rest ih =>
    intro fault failed
    rw [enterAll] at failed
    split at failed
    case h_1 => exact ih _ fault failed
    case h_2 entered => exact systemOnly_enter tree location name fault (entered.trans failed)

theorem systemOnly_target (tree : FileTree) (path : Path) : SystemOnly (tree.target path) := by
  intro fault failed
  unfold target targetOf at failed
  have below := systemOnly_enterAll tree (if path.isAbsolute then [] else tree.base)
  unfold SystemOnly at below
  grind [Fault.concernsText]

theorem systemOnly_find (tree : FileTree) (path : Path) : SystemOnly (tree.find path) := by
  intro fault failed
  have above := systemOnly_target tree path fault
  unfold find at failed
  grind [Fault.concernsText]

theorem systemOnly_kind (tree : FileTree) (path : Path) : SystemOnly (tree.kind path) := by
  intro fault failed
  have above := systemOnly_find tree path fault
  unfold kind at failed
  grind

theorem systemOnly_read (tree : FileTree) (path : Path) : SystemOnly (tree.read path) := by
  intro fault failed
  have above := systemOnly_find tree path fault
  unfold read at failed
  grind [Fault.concernsText]

theorem systemOnly_createDirectory (tree : FileTree) (path : Path) :
    SystemOnly (tree.createDirectory path) := by
  intro fault failed
  have above := systemOnly_target tree path fault
  unfold createDirectory at failed
  grind [Fault.concernsText]

theorem systemOnly_create (tree : FileTree) (path : Path) : SystemOnly (tree.create path) := by
  intro fault failed
  have above := systemOnly_target tree path fault
  unfold create at failed
  grind [Fault.concernsText]

theorem systemOnly_append (tree : FileTree) (path : Path) (octets : Bytes) :
    SystemOnly (tree.append path octets) := by
  intro fault failed
  have above := systemOnly_find tree path fault
  unfold append at failed
  grind [Fault.concernsText]

theorem systemOnly_rename (tree : FileTree) (source destination : Path) :
    SystemOnly (tree.rename source destination) := by
  intro fault failed
  have above := systemOnly_find tree source fault
  have beyond := systemOnly_target tree destination fault
  unfold rename at failed
  grind [Fault.concernsText]

/-! ## Places of texts -/

/-- There is no file at a location but of text. -/
def HasText (tree : FileTree) (location : Location) : Prop :=
  ∀ content, tree.content? location = some content → Utf8.isText content = true

/-- A tree has become another one in which all directories are still there, and no file is but of
text where no file was but of text. -/
structure KeepsTexts (tree next : FileTree) : Prop where
  base : next.base = tree.base
  directories : ∀ location, tree.HasDirectory location → next.HasDirectory location
  texts : ∀ location, tree.HasText location → next.HasText location

theorem KeepsTexts.refl (tree : FileTree) : tree.KeepsTexts tree :=
  ⟨rfl, fun _ directory => directory, fun _ text => text⟩

theorem KeepsTexts.trans {last : FileTree} (first : tree.KeepsTexts next)
    (second : next.KeepsTexts last) : tree.KeepsTexts last :=
  ⟨second.base.trans first.base,
    fun location directory => second.directories location (first.directories location directory),
    fun location text => second.texts location (first.texts location text)⟩

/-- A path leads to a place where no file is but of text. -/
def Legible (tree : FileTree) (path : Path) : Prop :=
  ∃ location, tree.target path = .ok (.place location false) ∧ tree.HasText location

theorem Legible.keeps (legible : tree.Legible path) (keeps : tree.KeepsTexts next) :
    next.Legible path := by
  obtain ⟨location, target, text⟩ := legible
  exact ⟨location, target_mono keeps.base keeps.directories target, keeps.texts location text⟩

/-- What is read at such a path is text. -/
theorem Legible.isText (legible : tree.Legible path) {content : Bytes}
    (there : tree.read path = .ok content) : Utf8.isText content = true := by
  obtain ⟨location, target, text⟩ := legible
  obtain ⟨location', found⟩ := exists_find_of_read there
  obtain ⟨target', file⟩ := target_of_find found
  obtain ⟨rfl, -⟩ := Target.place.inj (Except.ok.inj (target.symm.trans target'))
  exact text content file

/-- A path at which a text is read is such a path. -/
theorem legible_of_read {content : Bytes} (there : tree.read path = .ok content)
    (text : Utf8.isText content = true) : tree.Legible path := by
  obtain ⟨location, found⟩ := exists_find_of_read there
  obtain ⟨target, file⟩ := target_of_find found
  exact ⟨location, target, fun other same => Option.some.inj (file.symm.trans same) ▸ text⟩

/-! ## Operations -/

theorem keepsTexts_createDirectory (created : tree.createDirectory path = .ok next) :
    tree.KeepsTexts next := by
  obtain ⟨name, above, _, _, free, rfl⟩ := createDirectory_eq_ok created
  refine ⟨rfl, fun location directory => ?_, fun location text => ?_⟩
  · exact (hasDirectory_set_directory ..).2 (.inr directory)
  · intro content there
    rw [content?_set_directory free] at there
    exact text content there

/-- A file is put where no directory is. -/
theorem keepsTexts_set_file {name : Bytes} {above : Location}
    (noDirectory : ¬ tree.HasDirectory (name :: above)) {content : Bytes}
    (text : tree.HasText (name :: above) → Utf8.isText content = true) :
    tree.KeepsTexts (tree.set (name :: above) (.file content)) := by
  refine ⟨rfl, fun location directory => ?_, fun location known other there => ?_⟩
  · exact (hasDirectory_set_file noDirectory ..).2 directory
  · rw [content?_set_file] at there
    split at there
    case isTrue here => exact Option.some.inj there ▸ text (here ▸ known)
    case isFalse => exact known other there

theorem keepsTexts_erase {name : Bytes} {above : Location}
    (noDirectory : ¬ tree.HasDirectory (name :: above)) :
    tree.KeepsTexts (tree.erase (name :: above)) := by
  refine ⟨rfl, fun location directory => ?_, fun location known other there => ?_⟩
  · exact (hasDirectory_erase noDirectory _).2 directory
  · rw [content?_erase] at there
    split at there
    case isTrue => simp at there
    case isFalse => exact known other there

/-- An empty file is a text. -/
theorem keepsTexts_create (created : tree.create path = .ok next) :
    tree.KeepsTexts next ∧ next.Legible path := by
  have empty : Utf8.isText [] = true := Utf8.isText_encode []
  obtain ⟨name, above, target, noDirectory, rfl⟩ := exists_of_create created
  have keeps : tree.KeepsTexts (tree.set (name :: above) (.file [])) :=
    keepsTexts_set_file noDirectory fun _ => empty
  refine ⟨keeps, name :: above, target_mono keeps.base keeps.directories target, ?_⟩
  intro content there
  rw [content?_set_file, if_pos rfl] at there
  exact Option.some.inj there ▸ empty

theorem keepsTexts_append {octets : Bytes} (text : Utf8.isText octets = true)
    (appended : tree.append path octets = .ok next) : tree.KeepsTexts next := by
  obtain ⟨_, content, found, rfl⟩ := exists_of_append appended
  obtain ⟨name, above, rfl, -, file, noDirectory⟩ := exists_cons_of_find found
  exact keepsTexts_set_file noDirectory fun known => Utf8.isText_append (known content file) text

theorem keepsTexts_remove (removed : tree.remove path = .ok next) : tree.KeepsTexts next := by
  obtain ⟨_, _, found, rfl⟩ := exists_of_remove removed
  obtain ⟨name, above, rfl, -, -, noDirectory⟩ := exists_cons_of_find found
  exact keepsTexts_erase noDirectory

/-- A text that is moved is a text where it arrives. -/
theorem keepsTexts_rename {source destination : Path} (legible : tree.Legible source)
    (renamed : tree.rename source destination = .ok next) : tree.KeepsTexts next := by
  obtain ⟨_, content, last, directory, found, _, other, rfl⟩ := exists_of_rename renamed
  obtain ⟨name, above, rfl, target, file, noDirectory⟩ := exists_cons_of_find found
  have text : Utf8.isText content = true := by
    obtain ⟨location, target', known⟩ := legible
    obtain ⟨rfl, -⟩ := Target.place.inj (Except.ok.inj (target.symm.trans target'))
    exact known content file
  have free : ¬ (tree.erase (name :: above)).HasDirectory (last :: directory) :=
    mt (hasDirectory_erase noDirectory _).1 other
  exact (keepsTexts_erase noDirectory).trans (keepsTexts_set_file free fun _ => text)

end FileTree

end MailMerge
