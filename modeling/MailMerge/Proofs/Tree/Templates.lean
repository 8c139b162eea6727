import MailMerge.Proofs.Destination
import MailMerge.Proofs.Tree.Resolution

/-!
# The template's own name

In fixed mode every row's file has the name of the template, in the template's directory.  The path
is made anew from the parts of the template's path, so it need not be the same text, and it is the
same name only if the template's name is text (`resolve_fixed`).  Then it leads where the template's
path leads (`FileTree.location?_trimmed`).
-/

namespace MailMerge

open MailMerge.Path (IsPlain)

set_option autoImplicit false

/-! ## Paths of files -/

namespace Path

/-- Octets are cut behind their last slash. -/
theorem exists_cut (octets : Bytes) : ∃ front name, octets = front ++ name ∧ slash ∉ name ∧
    (front = [] ∨ front.getLast? = some slash) := by
  induction octets with
  | nil => exact ⟨[], [], rfl, by simp, .inl rfl⟩
  | cons b octets ih =>
    obtain ⟨front, name, rfl, plain, cut⟩ := ih
    cases front with
    | cons d front =>
      refine ⟨b :: d :: front, name, rfl, plain, .inr ?_⟩
      rw [List.getLast?_cons_cons]
      exact cut.resolve_left (List.cons_ne_nil d front)
    | nil =>
      by_cases here : b = slash
      · exact ⟨[slash], name, by simp [here], plain, .inr rfl⟩
      · exact ⟨[], b :: name, rfl, by simp [Ne.symm here, plain], .inl rfl⟩

/-- A path that leads to a file is that of an entry of some directory. -/
theorem exists_join_of_place {tree : FileTree} {path : Path} {location : Location}
    (found : tree.target path = .ok (.place location false)) :
    ∃ (directory : Path) (name : Bytes), IsPlain name ∧ path = directory.join ⟨name⟩ := by
  obtain ⟨before, last, home, names, _, rfl, notHere, notAbove, _, noSlash⟩ :=
    FileTree.names_of_place found
  obtain ⟨front, name, octets, plain, cut⟩ := exists_cut path.bytes
  have joined : path.bytes = if front.isEmpty || front.getLast? == some slash then front ++ name
      else front ++ slash :: name := by
    rw [if_pos (by rcases cut with rfl | slashed <;> simp [*]), octets]
  -- the name behind the last slash is not empty, since the path does not end in a slash
  have nonempty : name ≠ [] := by
    rintro rfl
    rw [List.append_nil] at octets
    rcases cut with empty | slashed
    · rw [Path.names, octets, empty] at names
      simp [splitSlashes] at names
    · simp [FileTree.endsInSlash, octets, slashed] at noSlash
  obtain ⟨segments, split, _⟩ := splitSlashes_attach front plain
  have last_ : last = name := by
    rw [Path.names, joined, split, List.filter_append, List.filter_cons_of_pos (by simpa),
      List.filter_nil] at names
    exact (List.append_inj_right' names rfl |> List.cons.inj).1.symm
  have isPlain : IsPlain name := ⟨nonempty, plain, last_ ▸ notHere, last_ ▸ notAbove⟩
  refine ⟨⟨front⟩, name, isPlain, ?_⟩
  rw [join, isPlain.isAbsolute, if_neg (by simp)]
  obtain ⟨bytes⟩ := path
  simp only at joined
  rw [joined]
  exact apply_ite Path.mk _ _ _

end Path

/-! ## The name in fixed mode -/

/-- In fixed mode the file of every row has the template's name, if this is text. -/
theorem Destination.resolve_fixed {tree : FileTree} {template : Path} {location : Location}
    (found : tree.target template = .ok (.place location false)) {name : String}
    (named : template.fileName? = some (utf8 name)) :
    ∃ home : Path, IsPlain (utf8 name) ∧ template = home.join ⟨utf8 name⟩ ∧
      directory template none = home.trimmed ∧ ∀ (row : Row) (index : Nat),
        resolve template row .fixed none index = .ok (home.trimmed.join ⟨utf8 name⟩) := by
  obtain ⟨home, last, plain, joined⟩ := Path.exists_join_of_place found
  obtain rfl : utf8 name = last := by
    rw [joined, Path.fileName?_join home plain] at named
    exact (Option.some.inj named).symm
  have parent : directory template none = home.trimmed := by
    rw [directory, joined, Path.parent?_join home plain]
    rfl
  refine ⟨home, plain, joined, parent, ?_⟩
  intro row index
  rw [resolve_of_fileName? named, parent, utf8, cleaned_encode]

/-! ## Locations -/

/-- Dots are passed without going anywhere. -/
theorem FileTree.passAll_dots (tree : FileTree) (location : Location) (names : List Bytes)
    {dots : List Bytes} (all : ∀ name ∈ dots, name = [Path.dot]) :
    tree.passAll location (names ++ dots) = tree.passAll location names := by
  induction names generalizing location with
  | nil =>
    induction dots with
    | nil => rfl
    | cons name dots ih =>
      simp only [List.nil_append, passAll, all name List.mem_cons_self, if_true]
      exact ih fun other member => all other (List.mem_cons_of_mem _ member)
  | cons name names ih => simp only [List.cons_append, passAll, ih]

/-- An entry of a directory has the same location under the trimmed path of the directory. -/
theorem FileTree.location?_trimmed {tree : FileTree} {directory : Path} {name : Bytes}
    (plain : IsPlain name) {left right : Location}
    (found : tree.location? (directory.join ⟨name⟩) = some left)
    (found' : tree.location? (directory.trimmed.join ⟨name⟩) = some right) : left = right := by
  obtain ⟨dots, names, all⟩ := directory.names_trimmed
  have accepted := (exists_of_location?_join plain found).1
  have accepted' := (exists_of_location?_join plain found').1
  have start : tree.start (directory.trimmed.join ⟨name⟩) = tree.start (directory.join ⟨name⟩) := by
    simp only [FileTree.start, Path.isAbsolute_join _ plain, Path.isAbsolute_trimmed]
  rw [location?, accepted, Path.names_join directory plain] at found
  rw [location?, accepted', Path.names_join directory.trimmed plain, start] at found'
  simp only [Option.isSome_none, Bool.false_eq_true, if_false, List.reverse_append,
    List.reverse_singleton, List.singleton_append, List.reverse_reverse] at found found'
  rw [names, tree.passAll_dots _ _ all, found'] at found
  exact (Option.some.inj found).symm

end MailMerge
