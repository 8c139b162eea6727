import MailMerge.Proofs.Tree.Resolution

/-!
# Making directories

To make a directory with all its ancestors is to try them from the longest on until one can be
created, and then to create the others on the way back.  What comes of it is described for a lineage
of paths (`Made`): entries that were there stay as they are, new ones are directories at the places
of the paths, and afterwards no directory can be created at any of the paths, whether the attempt
went well or not.  So every further attempt, also one that is made in turns with others, finds
nothing left to create.
-/

namespace MailMerge.FileTree

open MailMerge.Path (HasParent Lineage)

set_option autoImplicit false

/-! ## A path and its parent -/

theorem components_isEmpty_iff {path : Path} :
    path.components.isEmpty = true ↔ path.bytes = [] := by
  constructor
  · intro none
    cases start : path.isAbsolute with
    | true => simp [Path.components, Path.startComponents, start] at none
    | false =>
      refine Path.bytes_eq_nil_of_head_segments start ?_
      obtain ⟨first, rest, segments⟩ := List.exists_cons_of_ne_nil
        (Path.segments_of_relative start ▸ Path.splitSlashes_ne_nil path.bytes)
      simp only [Path.components, Path.startComponents, start, segments, List.head?_cons,
        Bool.false_eq_true, if_false, Option.some.injEq, List.isEmpty_iff,
        List.append_eq_nil_iff] at none ⊢
      obtain ⟨notCurrent, noName⟩ := none
      by_cases current : first = [Path.dot]
      · simp [current] at notCurrent
      · by_contra nonempty
        have real : Path.isFiller first = false := by simp [Path.isFiller, nonempty, current]
        simp only [List.filterMap_cons, Path.component?, real, Bool.false_eq_true,
          if_false] at noName
        split_ifs at noName
  · rintro none
    obtain ⟨bytes⟩ := path
    obtain rfl : bytes = [] := none
    rfl

theorem names_of_bytes_eq_nil {path : Path} (none : path.bytes = []) : path.names = [] := by
  simp [Path.names, none, Path.splitSlashes]

theorem bytes_ne_nil_of_accepted {path : Path} (accepted : path.refusal? = none) :
    path.bytes ≠ [] := by
  intro none
  simp [Path.refusal?, Path.hasNul, Path.isEmpty, none] at accepted

/-- The parent of a path that is accepted is empty or accepted as well. -/
theorem refusal?_parent {path parent : Path} (above : HasParent path parent)
    (accepted : path.refusal? = none) : parent.bytes = [] ∨ parent.refusal? = none := by
  by_cases none : parent.bytes = []
  · exact .inl none
  · refine .inr ?_
    unfold Path.refusal? at accepted ⊢
    split_ifs at accepted with nul empty long
    have noNul : ¬ parent.hasNul = true := by
      intro inside
      refine nul ?_
      simp only [Path.hasNul, List.contains_iff_mem] at inside ⊢
      exact above.octets _ inside
    have short : ¬ pathLimit < parent.bytes.length :=
      fun longer => long (Nat.lt_trans longer above.shorter)
    rw [if_neg noNul, if_neg (by simpa [Path.isEmpty] using none), if_neg short]

/-- What a path leads to is decided by one more step from its parent. -/
theorem target_of_parent {path parent : Path} (above : HasParent path parent)
    (accepted : path.refusal? = none) :
    ∃ last, ∀ tree : FileTree, tree.target path =
      match tree.walk parent with
      | .error fault => .error fault
      | .ok directory => arrive directory (endsInSlash path) last := by
  obtain ⟨dots, last, names, all⟩ := above.names
  refine ⟨last, fun tree => ?_⟩
  have same : tree.start path = tree.start parent := by simp only [start, above.start]
  rw [target_of_append tree accepted names, enterAll_append, same, ← walk]
  cases tree.walk parent with
  | error fault => rfl
  | ok directory => simp only [enterAll_dots tree directory all]

theorem walk_of_target {tree : FileTree} {path : Path} (accepted : path.refusal? = none)
    {fault : Fault} (missed : tree.target path = .error fault) : tree.walk path = .error fault := by
  rw [walk_eq tree accepted, missed]

/-- A path under which a name can be looked up has a directory as its parent. -/
theorem walk_parent_of_target {tree : FileTree} {path parent : Path} (above : HasParent path parent)
    {goal : Target} (found : tree.target path = .ok goal) :
    ∃ directory, tree.walk parent = .ok directory := by
  obtain ⟨last, targets⟩ := target_of_parent above (refusal?_of_target found)
  have target := targets tree
  cases walked : tree.walk parent with
  | ok directory => exact ⟨directory, rfl⟩
  | error fault => simp [walked, found] at target

theorem walk_parent {tree : FileTree} {path parent : Path} (above : HasParent path parent)
    (directory : tree.isDirectory path = true) : ∃ location, tree.walk parent = .ok location := by
  have accepted := refusal?_of_isDirectory directory
  obtain ⟨location, walked⟩ := (isDirectory_iff tree accepted).1 directory
  cases target : tree.target path with
  | ok goal => exact walk_parent_of_target above target
  | error fault => simp [walk_of_target accepted target] at walked

/-! ## Lineages -/

/-- All paths of a lineage but the last have names. -/
theorem names_ne_nil_of_lineage {path : Path} {above : List Path}
    (lineage : Lineage (path :: above)) (more : above ≠ []) : path.names ≠ [] := by
  cases lineage with
  | top _ => exact absurd rfl more
  | step relation _ =>
    obtain ⟨_, _, names, _⟩ := relation.names
    simp [names]

/-- When an ancestor of a path can be created, the path leads nowhere. -/
theorem target_of_creatable {tree next : FileTree} {path ancestor : Path} {above : List Path}
    (lineage : Lineage (path :: above)) (accepted : path.refusal? = none)
    (member : ancestor ∈ above)
    (created : tree.createDirectory ancestor = .ok next) : tree.target path = .error .notFound := by
  induction above generalizing path with
  | nil => simp at member
  | cons parent further ih =>
    cases lineage with
    | step relation rest =>
      obtain ⟨last, targets⟩ := target_of_parent relation accepted
      have missed : tree.walk parent = .error .notFound := by
        rcases List.mem_cons.1 member with rfl | later
        · exact walk_of_createDirectory created
        · have named := names_ne_nil_of_lineage rest (List.ne_nil_of_mem later)
          have acceptedParent := (refusal?_parent relation accepted).resolve_left
            fun none => named (names_of_bytes_eq_nil none)
          exact walk_of_target acceptedParent (ih rest acceptedParent later)
      rw [targets, missed]

/-- On the way to a path all its ancestors are passed. -/
theorem walk_of_lineage {tree : FileTree} {path ancestor : Path} {above : List Path}
    {location : Location} (lineage : Lineage (path :: above)) (accepted : path.refusal? = none)
    (walked : tree.walk path = .ok location) (member : ancestor ∈ path :: above) :
    ∃ passed, tree.walk ancestor = .ok passed := by
  induction above generalizing path location with
  | nil =>
    obtain rfl := List.mem_singleton.1 member
    exact ⟨location, walked⟩
  | cons parent further ih =>
    rcases List.mem_cons.1 member with rfl | later
    · exact ⟨location, walked⟩
    · cases lineage with
      | step relation rest =>
        obtain ⟨passed, through⟩ :=
          walk_parent relation ((isDirectory_iff tree accepted).2 ⟨location, walked⟩)
        rcases refusal?_parent relation accepted with none | acceptedParent
        · have alone : further = [] := by
            by_contra more
            exact names_ne_nil_of_lineage rest more (names_of_bytes_eq_nil none)
          obtain rfl : ancestor = parent := by simpa [alone] using later
          exact ⟨passed, through⟩
        · exact ih rest acceptedParent through later

/-- No directory can be created at any of some paths. -/
def Saturated (tree : FileTree) (paths : List Path) : Prop :=
  ∀ path ∈ paths, ∀ next, tree.createDirectory path ≠ .ok next

/-- Nothing can be created above a path that leads somewhere. -/
theorem saturated_above {tree : FileTree} {path : Path} {above : List Path}
    (lineage : Lineage (path :: above)) (accepted : path.refusal? = none)
    (found : tree.target path ≠ .error .notFound) : tree.Saturated above :=
  fun _ member _ created => found (target_of_creatable lineage accepted member created)

/-! ## Growing trees -/

/-- A tree with nothing but directories added, all of them at places of some paths. -/
structure Grown (tree : FileTree) (paths : List Path) (next : FileTree) : Prop where
  base : next.base = tree.base
  kept : ∀ location, tree.entry? location ≠ none → next.entry? location = tree.entry? location
  added : ∀ location, tree.entry? location = none → next.entry? location = none ∨
    next.HasDirectory location ∧
      ∃ path ∈ paths, ∃ wanted, next.target path = .ok (.place location wanted)

theorem Grown.refl (tree : FileTree) (paths : List Path) : Grown tree paths tree :=
  ⟨rfl, fun _ _ => rfl, fun _ free => .inl free⟩

theorem Grown.directories {tree next : FileTree} {paths : List Path} (grown : Grown tree paths next)
    (location : Location) (directory : tree.HasDirectory location) : next.HasDirectory location :=
  (grown.kept location (by simp [show tree.entry? location = _ from directory])).trans directory

/-- Growing changes no regular file. -/
theorem Grown.content? {tree next : FileTree} {paths : List Path} (grown : Grown tree paths next)
    (location : Location) : next.content? location = tree.content? location := by
  cases entry : tree.entry? location with
  | some found =>
    have := grown.kept location (by simp [entry])
    simp only [FileTree.content?, this]
  | none =>
    rw [content?_eq_none.2 (.inl entry)]
    rcases grown.added location entry with free | ⟨directory, _⟩
    · exact content?_eq_none.2 (.inl free)
    · exact directory.content?

theorem Grown.trans {tree middle last : FileTree} {paths more : List Path}
    (first : Grown tree paths middle) (second : Grown middle more last)
    (inside : ∀ path ∈ paths, path ∈ more) : Grown tree more last := by
  refine ⟨second.base.trans first.base, fun location occupied => ?_, fun location free => ?_⟩
  · have same := first.kept location occupied
    rw [second.kept location (same ▸ occupied), same]
  · rcases first.added location free with still | ⟨directory, path, member, wanted, found⟩
    · exact second.added location still
    · exact .inr ⟨second.directories location directory, path, inside path member, wanted,
        target_mono second.base second.directories found⟩

theorem grown_createDirectory {tree next : FileTree} {path : Path} {paths : List Path}
    (member : path ∈ paths) (created : tree.createDirectory path = .ok next) :
    Grown tree paths next := by
  obtain ⟨name, above, wanted, found, free, rfl⟩ := createDirectory_eq_ok created
  have more : ∀ location, tree.HasDirectory location →
      (tree.set (name :: above) .directory).HasDirectory location :=
    fun location directory => (hasDirectory_set_directory ..).2 (.inr directory)
  refine ⟨rfl, fun location occupied => ?_, fun location vacant => ?_⟩
  · have other : location ≠ name :: above := fun same => occupied (same ▸ free)
    rw [entry?_set, if_neg other]
  · by_cases here : location = name :: above
    · refine .inr ⟨(hasDirectory_set_directory ..).2 (.inl here), path, member, wanted, ?_⟩
      rw [here]
      exact target_mono (base_set ..) more found
    · exact .inl (by rw [entry?_set, if_neg here, vacant])

/-! ## Making directories along a lineage -/

/-- What has come of an attempt to make directories at a path and its ancestors. -/
structure Made (tree : FileTree) (path : Path) (above : List Path) (next : FileTree)
    (result : Except Fault Unit) : Prop where
  grown : Grown tree (path :: above) next
  saturated : next.Saturated (path :: above)
  reached : result = .ok () → path.bytes = [] ∨ next.isDirectory path = true
  missed : ∀ fault, result = .error fault → next.isDirectory path = false

theorem made_of_createDirectory {tree middle next : FileTree} {path : Path} {above : List Path}
    (lineage : Lineage (path :: above)) (before : Grown tree (path :: above) middle)
    (created : middle.createDirectory path = .ok next) : Made tree path above next (.ok ()) := by
  have directory := isDirectory_of_createDirectory created
  have accepted := refusal?_of_isDirectory directory
  have found : next.target path ≠ .error .notFound := by
    intro missed
    obtain ⟨location, walked⟩ := (isDirectory_iff next accepted).1 directory
    simp [walk_of_target accepted missed] at walked
  refine ⟨before.trans (grown_createDirectory List.mem_cons_self created) fun _ member => member,
    fun other member => ?_, fun _ => .inr directory, by simp⟩
  rcases List.mem_cons.1 member with rfl | later
  · simp [createDirectory_of_isDirectory directory]
  · exact saturated_above lineage accepted found other later

/-- When the path itself cannot be created, it matters only whether it is there. -/
theorem made_of_failed {tree next : FileTree} {path : Path} {above : List Path} {fault : Fault}
    (grown : Grown tree (path :: above) next) (saturated : next.Saturated above)
    (failed : next.createDirectory path = .error fault) :
    Made tree path above next (if next.isDirectory path then .ok () else .error fault) := by
  refine ⟨grown, fun other member => ?_, fun ok => .inr ?_, fun fault' error => ?_⟩
  · rcases List.mem_cons.1 member with rfl | later
    · simp [failed]
    · exact saturated other later
  · by_contra other
    simp [other] at ok
  · by_contra directory
    rw [Bool.not_eq_false] at directory
    simp [directory] at error

theorem Grown.widen {tree next : FileTree} {paths more : List Path} (grown : Grown tree paths next)
    (inside : ∀ path ∈ paths, path ∈ more) : Grown tree more next :=
  grown.trans (.refl next more) inside

/-- The empty path needs no directory. -/
theorem createAlong_of_empty (tree : FileTree) {path : Path} {above : List Path}
    (none : path.bytes = []) : tree.createAlong (path :: above) = (tree, .ok ()) := by
  rw [createAlong, if_pos (components_isEmpty_iff.2 none)]

theorem made_of_empty (tree : FileTree) {path : Path} {above : List Path}
    (lineage : Lineage (path :: above)) (none : path.bytes = []) :
    Made tree path above tree (.ok ()) := by
  have alone : above = [] := by
    by_contra more
    exact names_ne_nil_of_lineage lineage more (names_of_bytes_eq_nil none)
  refine ⟨.refl .., fun other member next created => ?_, fun _ => .inl none, by simp⟩
  obtain rfl : other = path := by simpa [alone] using member
  obtain ⟨_, _, _, found, _⟩ := createDirectory_eq_ok created
  exact bytes_ne_nil_of_accepted (refusal?_of_target found) none

/-- Once everything above it has been tried, the path is created or it is found out that it cannot
be. -/
theorem made_ensureDirectory {tree next : FileTree} {path : Path} {above : List Path}
    (lineage : Lineage (path :: above)) (grown : Grown tree (path :: above) next)
    (saturated : next.Saturated above) :
    Made tree path above (next.ensureDirectory path).1 (next.ensureDirectory path).2 := by
  unfold ensureDirectory
  cases created : next.createDirectory path with
  | ok last => exact made_of_createDirectory lineage grown created
  | error fault => exact made_of_failed grown saturated created

theorem target_of_createDirectory {tree : FileTree} {path : Path} {fault : Fault}
    (failed : tree.createDirectory path = .error fault) (other : fault ≠ .notFound) :
    tree.target path ≠ .error .notFound := by
  intro missed
  rw [createDirectory, missed] at failed
  exact other (Except.error.inj failed).symm

/-- A path that leads nowhere is no directory, and none can be created there. -/
theorem made_of_missed {tree next : FileTree} {path : Path} {above : List Path} {fault : Fault}
    (accepted : path.refusal? = none) (grown : Grown tree (path :: above) next)
    (saturated : next.Saturated above) (missed : ∀ goal, next.target path ≠ .ok goal) :
    Made tree path above next (.error fault) := by
  refine ⟨grown, fun other member last created => ?_, by simp, fun _ _ => ?_⟩
  · rcases List.mem_cons.1 member with rfl | later
    · obtain ⟨_, _, _, found, _⟩ := createDirectory_eq_ok created
      exact missed _ found
    · exact saturated other later last created
  · by_contra directory
    rw [Bool.not_eq_false] at directory
    obtain ⟨location, walked⟩ := (isDirectory_iff next accepted).1 directory
    cases target : next.target path with
    | ok goal => exact missed goal target
    | error fault => simp [walk_of_target accepted target] at walked

/-- What becomes of a path, given what has become of the paths above it. -/
theorem made_of_above {tree : FileTree} {path : Path} {above : List Path}
    (lineage : Lineage (path :: above)) (accepted : path.refusal? = none)
    (grown : Grown tree above (tree.createAlong above).1)
    (saturated : (tree.createAlong above).1.Saturated above)
    (blocked : ∀ fault, (tree.createAlong above).2 = .error fault →
      ∀ goal, (tree.createAlong above).1.target path ≠ .ok goal) :
    Made tree path above (tree.createAlong (path :: above)).1
      (tree.createAlong (path :: above)).2 := by
  have named := bytes_ne_nil_of_accepted accepted
  have inside : ∀ other ∈ above, other ∈ path :: above := fun _ => List.mem_cons_of_mem _
  rw [createAlong, if_neg fun empty => named (components_isEmpty_iff.1 empty)]
  split
  case h_1 next created => exact made_of_createDirectory lineage (.refl ..) created
  case h_2 missing =>
    split
    case h_1 next attempt =>
      rw [attempt] at grown saturated
      exact made_ensureDirectory lineage (grown.widen inside) saturated
    case h_2 next fault attempt =>
      rw [attempt] at grown saturated blocked
      exact made_of_missed accepted (grown.widen inside) saturated (blocked fault rfl)
  case h_3 fault other created =>
    have found := target_of_createDirectory created other
    exact made_of_failed (.refl ..) (saturated_above lineage accepted found) created

theorem made_createAlong (tree : FileTree) {path : Path} {above : List Path}
    (lineage : Lineage (path :: above)) (accepted : path.bytes = [] ∨ path.refusal? = none) :
    Made tree path above (tree.createAlong (path :: above)).1
      (tree.createAlong (path :: above)).2 := by
  induction above generalizing path with
  | nil =>
    rcases accepted with none | accepted
    · rw [createAlong_of_empty tree none]
      exact made_of_empty tree lineage none
    · exact made_of_above lineage accepted (.refl ..) (by simp [Saturated]) (by simp [createAlong])
  | cons parent further ih =>
    cases lineage with
    | step relation rest =>
      have accepted := accepted.resolve_left fun none =>
        names_ne_nil_of_lineage (.step relation rest) (by simp) (names_of_bytes_eq_nil none)
      have acceptedParent := refusal?_parent relation accepted
      have made := ih rest acceptedParent
      refine made_of_above (.step relation rest) accepted made.grown made.saturated ?_
      intro fault failed goal found
      rcases acceptedParent with none | acceptedParent
      · simp [createAlong_of_empty tree none] at failed
      · have reached := (isDirectory_iff _ acceptedParent).2 (walk_parent_of_target relation found)
        simp [made.missed fault failed] at reached

/-- An attempt that fails, and not because something is missing, is not carried on. -/
theorem createAlong_of_failed {tree : FileTree} {path : Path} {above : List Path} {fault : Fault}
    (named : path.bytes ≠ []) (failed : tree.createDirectory path = .error fault)
    (other : fault ≠ .notFound) : tree.createAlong (path :: above) =
      (tree, if tree.isDirectory path then .ok () else .error fault) := by
  rw [createAlong, if_neg fun empty => named (components_isEmpty_iff.1 empty), failed]
  split
  case h_1 => contradiction
  case h_2 missing => exact absurd (Except.error.inj missing) other
  case h_3 same => rw [Except.error.inj same]

/-- Where something is missing the attempt is carried on above. -/
theorem createAlong_of_missing {tree : FileTree} {path : Path} {above : List Path}
    (named : path.bytes ≠ []) (missing : tree.createDirectory path = .error .notFound)
    (unchanged : (tree.createAlong above).1 = tree) : (tree.createAlong (path :: above)).2 =
      match (tree.createAlong above).2 with
      | .ok () => (tree.ensureDirectory path).2
      | .error fault => .error fault := by
  rw [createAlong, if_neg fun empty => named (components_isEmpty_iff.1 empty), missing]
  cases attempt : tree.createAlong above with
  | mk next result =>
    obtain rfl : next = tree := by rw [← unchanged, attempt]
    cases result <;> rfl

/-- Where nothing can be created an attempt leaves the tree as it is. -/
theorem createAlong_of_saturated {tree : FileTree} {paths : List Path}
    (saturated : tree.Saturated paths) : (tree.createAlong paths).1 = tree := by
  induction paths with
  | nil => rfl
  | cons path above ih =>
    have blocked := saturated path List.mem_cons_self
    have rest := ih fun other member => saturated other (List.mem_cons_of_mem _ member)
    unfold createAlong
    split
    · rfl
    · split
      case h_1 next created => exact absurd created (blocked next)
      case h_3 => rfl
      case h_2 missing =>
        cases attempt : tree.createAlong above with
        | mk next result =>
          obtain rfl : next = tree := by rw [← rest, attempt]
          cases result with
          | ok _ => simp only [ensureDirectory, missing]
          | error fault => rfl

end MailMerge.FileTree
