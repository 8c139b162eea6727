import MailMerge.Proofs.Path.Siblings

/-!
# Paths by their components

Two paths with the same components are taken for the same place, however they are written.  Putting an
entry behind a directory adds one component and leaves those of the directory as they are
(`components_join`).  The parent of the entry has again the components of the directory
(`exists_parent_join`): what is cut off at the end of a path is no component (`components_trimmed`).
Conversely, a path with a file name has the components of its parent and this one more
(`exists_parent_of_fileName?`).

The one case in which this takes care is the dot.  Everywhere but at the start it is no component, so
that it may be dropped at the end of a path, but not if it is all that the path consists of.
-/

namespace MailMerge.Path

set_option autoImplicit false

/-! ## Segments that are no component -/

theorem component?_eq_none {segment : Bytes} (filler : isFiller segment = true) :
    component? segment = none := by
  rw [component?, if_pos filler]

theorem filterMap_component?_fillers {fillers : List Bytes}
    (all : ∀ segment ∈ fillers, isFiller segment = true) : fillers.filterMap component? = [] :=
  List.filterMap_eq_nil_iff.2 fun segment member => component?_eq_none (all segment member)

/-! ## Entries -/

/-- An entry of a directory starts as the directory does. -/
theorem startComponents_join (directory : Path) {name : Bytes} (plain : IsPlain name) :
    (directory.join ⟨name⟩).startComponents = directory.startComponents := by
  obtain ⟨start, before, entry, same⟩ := segments_join directory plain
  have nonempty : directory.segments ≠ [] := splitSlashes_ne_nil _
  rw [startComponents, startComponents, start, entry]
  cases before with
  | cons segment more =>
    rcases same with same | same
    · rw [same]
      rfl
    · rw [same]
      rfl
  | nil =>
    rcases same with same | same
    · exact absurd same nonempty
    · -- the directory has no text, and the entry is a single name
      have other : name ≠ [dot] := plain.notHere
      simp [same, other]

/-- An entry of a directory has one more component than the directory. -/
theorem components_join (directory : Path) {name : Bytes} (plain : IsPlain name) :
    (directory.join ⟨name⟩).components = directory.components ++ [.name name] := by
  obtain ⟨-, before, entry, same⟩ := segments_join directory plain
  have added : (directory.join ⟨name⟩).segments.filterMap component? =
      directory.segments.filterMap component? ++ [.name name] := by
    have blank : component? [] = none := component?_eq_none rfl
    rcases same with same | same
    · simp [entry, same, plain.component?]
    · simp [entry, same, plain.component?, blank]
  rw [components, components, startComponents_join directory plain, added, List.append_assoc]

/-! ## Parents -/

/-- The components of segments that are given last first. -/
def componentsOf (absolute : Bool) (backwards : List Bytes) : List Component :=
  (if absolute then [.root] else if backwards.getLast? = some [dot] then [.current] else []) ++
    (backwards.filterMap component?).reverse

theorem components_eq (path : Path) :
    path.components = componentsOf path.isAbsolute path.segments.reverse := by
  rw [componentsOf, List.getLast?_reverse, List.filterMap_reverse, List.reverse_reverse]
  rfl

/-- What is dropped at the end is no component. -/
theorem componentsOf_dropFiller (absolute : Bool) (backwards : List Bytes) :
    componentsOf absolute (dropFiller absolute backwards) = componentsOf absolute backwards := by
  obtain ⟨fillers, whole, all⟩ := dropFiller_spec absolute backwards
  have named : (dropFiller absolute backwards).filterMap component? =
      backwards.filterMap component? := by
    conv_rhs => rw [whole]
    rw [List.filterMap_append, filterMap_component?_fillers all, List.nil_append]
  rw [componentsOf, componentsOf, named]
  cases absolute with
  | true => rfl
  | false =>
    congr 1
    cases rest : dropFiller false backwards with
    | nil =>
      -- a single dot at the start would not have been dropped
      have first : backwards.getLast? ≠ some [dot] := by
        intro start
        unfold dropFiller at rest
        split at rest
        · simp [start] at rest
        · next kept => exact kept rest
      simp [first]
    | cons last before =>
      rw [rest] at whole
      rw [whole, List.getLast?_append, List.getLast?_cons]
      rfl

/-- A segment behind others that is none of those dropped adds a component. -/
theorem exists_componentsOf_cons (absolute : Bool) (before : List Bytes) {last : Bytes}
    (real : isFiller last = false) : ∃ component,
      componentsOf absolute (last :: before) = componentsOf absolute before ++ [component] := by
  have first : (last :: before).getLast? = some [dot] ↔ before.getLast? = some [dot] := by
    cases before with
    | cons next more => rw [List.getLast?_cons_cons]
    | nil =>
      have other : last ≠ [dot] := fun same => by simp [same, isFiller] at real
      simp [other]
  obtain ⟨component, counts⟩ : ∃ component, component? last = some component := by
    rw [component?, real]
    by_cases up : last = [dot, dot] <;> simp [up]
  refine ⟨component, ?_⟩
  rw [componentsOf, componentsOf, if_congr first rfl rfl, List.filterMap_cons_some counts,
    List.reverse_cons, List.append_assoc]

theorem components_ofBackwards {absolute : Bool} {backwards : List Bytes}
    (kept : Kept absolute backwards) :
    (ofBackwards absolute backwards).components = componentsOf absolute backwards := by
  rw [components_eq]
  cases backwards with
  | nil =>
    rw [(ofBackwards_nil absolute).1, (ofBackwards_nil absolute).2]
    cases absolute <;> rfl
  | cons last before =>
    obtain ⟨start, segments⟩ := segments_ofBackwards kept (List.cons_ne_nil _ _)
    rw [start, segments, List.reverse_reverse]

/-- What is cut off at the end of a path is no component. -/
theorem components_trimmed (path : Path) : path.trimmed.components = path.components := by
  rw [trimmed, components_ofBackwards (kept_trimmed path), componentsOf_dropFiller, components_eq]

/-- A path that ends in a name has a parent, and one component more than the parent. -/
theorem exists_parent_of_fileName? {path : Path} {name : Bytes}
    (named : path.fileName? = some name) :
    ∃ parent, path.parent? = some parent ∧
      path.components = parent.components ++ [.name name] := by
  have kept := kept_trimmed path
  have whole : path.components = componentsOf path.isAbsolute
      (dropFiller path.isAbsolute path.segments.reverse) := by
    rw [componentsOf_dropFiller, components_eq]
  have ends : path.components.getLast? = some (.name name) := by
    unfold fileName? at named
    split at named
    · next octets last => rw [last, Option.some.inj named]
    · nomatch named
  rw [parent?]
  cases rest : dropFiller path.isAbsolute path.segments.reverse with
  | nil =>
    rw [whole, rest] at ends
    cases start : path.isAbsolute <;> simp [start, componentsOf] at ends
  | cons last before =>
    rw [rest] at whole kept
    rcases dropFiller_cons rest with real | ⟨start, rfl, rfl⟩
    · obtain ⟨component, added⟩ := exists_componentsOf_cons path.isAbsolute before real
      rw [← whole] at added
      rw [added, List.getLast?_concat] at ends
      refine ⟨_, rfl, ?_⟩
      rw [added, Option.some.inj ends, components_ofBackwards (kept_parent kept),
        componentsOf_dropFiller]
    · rw [whole, start] at ends
      simp [componentsOf, component?, isFiller] at ends

/-- The parent of an entry has the components of its directory. -/
theorem exists_parent_join (directory : Path) {name : Bytes} (plain : IsPlain name) :
    ∃ parent, (directory.join ⟨name⟩).parent? = some parent ∧
      parent.components = directory.components :=
  ⟨directory.trimmed, parent?_join directory plain, components_trimmed directory⟩

end MailMerge.Path
