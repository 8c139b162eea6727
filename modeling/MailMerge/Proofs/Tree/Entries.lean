import Mathlib.Tactic.Common
import MailMerge.FileTree

/-!
# What the operations do to the entries

A file tree is seen through `entry?`: two trees that agree in it are told apart by nothing.  This
module says for each change of a tree what is found afterwards, at the changed location and
elsewhere. The root is a directory whatever the tree holds, so a change is only ever made at a
location with a name in front.

Directories and regular files are then looked at apart.  `HasDirectory` is all that the resolution
of a path depends on, and `content?` is what a run is judged by.
-/

namespace MailMerge.FileTree

set_option autoImplicit false

/-- There is a directory at a location. -/
def HasDirectory (tree : FileTree) (location : Location) : Prop :=
  tree.entry? location = some .directory

/-! ## Entries -/

theorem lookup_filter_ne (entries : List (Location × Entry)) {changed location : Location}
    (other : location ≠ changed) :
    (entries.filter (·.1 != changed)).lookup location = entries.lookup location := by
  induction entries with
  | nil => rfl
  | cons first rest ih =>
    obtain ⟨key, entry⟩ := first
    by_cases here : key = changed
    · have skip : (location == key) = false := beq_eq_false_iff_ne.2 (here ▸ other)
      simp only [here, bne_self_eq_false, Bool.false_eq_true, not_false_eq_true,
        List.filter_cons_of_neg, ih]
      rw [List.lookup_cons, ← here, skip]
    · simp only [bne_iff_ne, ne_eq, here, not_false_eq_true, List.filter_cons_of_pos,
        List.lookup_cons, ih]

theorem lookup_filter_self (entries : List (Location × Entry)) (changed : Location) :
    (entries.filter (·.1 != changed)).lookup changed = none := by
  induction entries with
  | nil => rfl
  | cons first rest ih =>
    obtain ⟨key, entry⟩ := first
    by_cases here : key = changed
    · simp only [here, bne_self_eq_false, Bool.false_eq_true, not_false_eq_true,
        List.filter_cons_of_neg, ih]
    · have skip : (changed == key) = false := beq_eq_false_iff_ne.2 (Ne.symm here)
      simp only [bne_iff_ne, ne_eq, here, not_false_eq_true, List.filter_cons_of_pos,
        List.lookup_cons, skip, ih]

@[simp] theorem entry?_root (tree : FileTree) : tree.entry? [] = some .directory := rfl

/-- After an entry is set it is found at its location, and elsewhere everything is as before. -/
theorem entry?_set (tree : FileTree) (name : Bytes) (above : Location) (entry : Entry)
    (location : Location) :
    FileTree.entry? (tree.set (name :: above) entry) location =
      if location = name :: above then some entry else tree.entry? location := by
  cases location with
  | nil => simp
  | cons first rest =>
    by_cases here : first :: rest = name :: above
    · simp only [here, entry?, set, List.lookup_cons_self, if_true]
    · have skip : ((first :: rest) == name :: above) = false := beq_eq_false_iff_ne.2 here
      simp only [ entry?, set, List.lookup_cons, skip, if_neg here]
      exact lookup_filter_ne _ here

/-- After an entry is erased nothing is found at its location, and elsewhere everything is as
before. -/
theorem entry?_erase (tree : FileTree) (name : Bytes) (above location : Location) :
    FileTree.entry? (tree.erase (name :: above)) location =
      if location = name :: above then none else tree.entry? location := by
  cases location with
  | nil => simp
  | cons first rest =>
    by_cases here : first :: rest = name :: above
    · simp only [here, entry?, erase, if_true]
      exact lookup_filter_self _ _
    · simp only [ entry?, erase, if_neg here]
      exact lookup_filter_ne _ here

@[simp] theorem base_set (tree : FileTree) (location : Location) (entry : Entry) :
    (tree.set location entry).base = tree.base := rfl

@[simp] theorem base_erase (tree : FileTree) (location : Location) :
    (tree.erase location).base = tree.base := rfl

/-! ## Contents -/

theorem content?_eq_some {tree : FileTree} {location : Location} {content : Bytes} :
    tree.content? location = some content ↔ tree.entry? location = some (.file content) := by
  unfold content?
  split <;> simp_all

theorem content?_eq_none {tree : FileTree} {location : Location} :
    tree.content? location = none ↔
      tree.entry? location = none ∨ tree.HasDirectory location := by
  unfold content? HasDirectory
  cases tree.entry? location with
  | none => simp
  | some entry => cases entry <;> simp

theorem HasDirectory.content? {tree : FileTree} {location : Location}
    (directory : tree.HasDirectory location) : tree.content? location = none :=
  content?_eq_none.2 (.inr directory)

theorem content?_set_file (tree : FileTree) (name : Bytes) (above : Location) (content : Bytes)
    (location : Location) :
    (tree.set (name :: above) (.file content)).content? location =
      if location = name :: above then some content else tree.content? location := by
  by_cases here : location = name :: above
  · simp [content?, entry?_set, here]
  · simp [content?, entry?_set, here]

/-- A new directory changes no regular file. -/
theorem content?_set_directory {tree : FileTree} {name : Bytes} {above : Location}
    (free : tree.entry? (name :: above) = none) (location : Location) :
    (tree.set (name :: above) .directory).content? location = tree.content? location := by
  by_cases here : location = name :: above
  · simp [content?, entry?_set, here, free]
  · simp [content?, entry?_set, here]

theorem content?_erase (tree : FileTree) (name : Bytes) (above location : Location) :
    (tree.erase (name :: above)).content? location =
      if location = name :: above then none else tree.content? location := by
  by_cases here : location = name :: above
  · simp [content?, entry?_erase, here]
  · simp [content?, entry?_erase, here]

/-! ## Directories -/

theorem hasDirectory_set_directory (tree : FileTree) (name : Bytes) (above location : Location) :
    (tree.set (name :: above) .directory).HasDirectory location ↔
      location = name :: above ∨ tree.HasDirectory location := by
  by_cases here : location = name :: above
  · simp [HasDirectory, entry?_set, here]
  · simp [HasDirectory, entry?_set, here]

/-- Where there is no directory, a file takes none away. -/
theorem hasDirectory_set_file {tree : FileTree} {name : Bytes} {above : Location}
    (noDirectory : ¬ tree.HasDirectory (name :: above)) (content : Bytes) (location : Location) :
    (tree.set (name :: above) (.file content)).HasDirectory location ↔
      tree.HasDirectory location := by
  by_cases here : location = name :: above
  · rw [here]
    simp only [noDirectory, iff_false]
    simp [HasDirectory, entry?_set]
  · simp [HasDirectory, entry?_set, here]

theorem hasDirectory_erase {tree : FileTree} {name : Bytes} {above : Location}
    (noDirectory : ¬ tree.HasDirectory (name :: above)) (location : Location) :
    (tree.erase (name :: above)).HasDirectory location ↔ tree.HasDirectory location := by
  by_cases here : location = name :: above
  · rw [here]
    simp only [noDirectory, iff_false]
    simp [HasDirectory, entry?_erase]
  · simp [HasDirectory, entry?_erase, here]

end MailMerge.FileTree
