import MailMerge.Proofs.Path.Siblings
import MailMerge.Proofs.Tree.Entries

/-!
# Where a path leads

A path that is not refused as such is resolved by a walk through directories (`walk`) and one more
step for its last name.  So what it leads to depends on the directories alone: in a tree with more
directories every path still leads to where it led before (`enterAll_mono`), and the entries of a
directory lead to places in the directory once it can be reached (`target_join`).

A path has a location even before all directories on its way are there: the one that it leads to
when they are made (`location?`).  Nothing that a run does makes a path lead anywhere else
(`location?_of_target`).
-/

namespace MailMerge

set_option autoImplicit false

/-- Why a path is refused before anything is looked up. -/
def Path.refusal? (path : Path) : Option Fault :=
  if path.hasNul then some .nulInPath
  else if path.isEmpty then some .notFound
  else if FileTree.pathLimit < path.bytes.length then some .nameTooLong
  else none

/-- A path that is refused is not refused because something is missing. -/
theorem Path.ne_notFound_of_refused {path : Path} {fault : Fault} (named : path.bytes ≠ [])
    (refused : path.refusal? = some fault) : fault ≠ .notFound := by
  unfold Path.refusal? at refused
  split_ifs at refused with _ empty
  · rw [← Option.some.inj refused]
    simp
  · exact absurd (by simpa [Path.isEmpty] using empty) named
  · rw [← Option.some.inj refused]
    simp

namespace FileTree

/-! ## Walks -/

/-- The directory in which a path starts. -/
def start (tree : FileTree) (path : Path) : Location :=
  if path.isAbsolute then [] else tree.base

/-- The directory that all names of a path lead to. -/
def walk (tree : FileTree) (path : Path) : Except Fault Location :=
  tree.enterAll (tree.start path) path.names

theorem enterAll_append (tree : FileTree) (location : Location) (first second : List Bytes) :
    tree.enterAll location (first ++ second) =
      match tree.enterAll location first with
      | .ok next => tree.enterAll next second
      | .error fault => .error fault := by
  induction first generalizing location with
  | nil => rfl
  | cons name rest ih =>
    simp only [List.cons_append, enterAll]
    cases tree.enter location name with
    | ok next => exact ih next
    | error fault => rfl

/-- Dots lead nowhere. -/
theorem enterAll_dots (tree : FileTree) (location : Location) {dots : List Bytes}
    (all : ∀ name ∈ dots, name = [Path.dot]) : tree.enterAll location dots = .ok location := by
  induction dots with
  | nil => rfl
  | cons name rest ih =>
    simp only [enterAll, enter, all name List.mem_cons_self, if_true]
    exact ih fun other member => all other (List.mem_cons_of_mem _ member)

theorem enter_mono {tree later : FileTree}
    (more : ∀ location, tree.HasDirectory location → later.HasDirectory location)
    {location next : Location} {name : Bytes} (entered : tree.enter location name = .ok next) :
    later.enter location name = .ok next := by
  unfold enter at entered ⊢
  split
  case isTrue here => rwa [if_pos here] at entered
  case isFalse notHere =>
    rw [if_neg notHere] at entered
    split
    case isTrue up => rwa [if_pos up] at entered
    case isFalse notUp =>
      rw [if_neg notUp] at entered
      split
      case isTrue long => simp [long] at entered
      case isFalse short =>
        rw [if_neg short] at entered
        split at entered
        case h_1 directory =>
          have : later.entry? (name :: location) = some .directory := more _ directory
          rwa [this]
        case h_2 => simp at entered
        case h_3 => simp at entered

/-- A walk through directories that a later tree has as well leads to the same place there. -/
theorem enterAll_mono {tree later : FileTree}
    (more : ∀ location, tree.HasDirectory location → later.HasDirectory location)
    {location last : Location} {names : List Bytes}
    (walked : tree.enterAll location names = .ok last) :
    later.enterAll location names = .ok last := by
  induction names generalizing location with
  | nil => exact walked
  | cons name rest ih =>
    simp only [enterAll] at walked ⊢
    split at walked
    case h_1 next entered =>
      rw [enter_mono more entered]
      exact ih walked
    case h_2 => simp at walked

/-! ## The last name -/

/-- What the last name of a path leads to from the directory reached before it. -/
def arrive (directory : Location) (slashAtEnd : Bool) (last : Bytes) : Except Fault Target :=
  if last = [Path.dot] then .ok (.here directory)
  else if last = [Path.dot, Path.dot] then .ok (.here directory.tail)
  else if nameLimit < last.length then .error .nameTooLong
  else .ok (.place (last :: directory) slashAtEnd)

/-- Whether a path ends in a slash. -/
def endsInSlash (path : Path) : Bool := path.bytes.getLast? == some Path.slash

theorem target_of_refused (tree : FileTree) {path : Path} {fault : Fault}
    (refused : path.refusal? = some fault) : tree.target path = .error fault := by
  unfold Path.refusal? at refused
  unfold target
  split at refused
  case isTrue nul =>
    obtain rfl := Option.some.inj refused
    rw [if_pos nul]
  case isFalse noNul =>
    rw [if_neg noNul]
    split at refused
    case isTrue empty =>
      obtain rfl := Option.some.inj refused
      rw [if_pos empty]
    case isFalse nonempty =>
      rw [if_neg nonempty]
      split at refused
      case isTrue long =>
        obtain rfl := Option.some.inj refused
        rw [if_pos long]
      case isFalse => simp at refused

theorem target_of_accepted (tree : FileTree) {path : Path} (accepted : path.refusal? = none) :
    tree.target path =
      tree.targetOf (tree.start path) (endsInSlash path) path.names.reverse := by
  unfold Path.refusal? at accepted
  unfold target
  split at accepted
  case isTrue => simp at accepted
  case isFalse noNul =>
    rw [if_neg noNul]
    split at accepted
    case isTrue => simp at accepted
    case isFalse nonempty =>
      rw [if_neg nonempty]
      split at accepted
      case isTrue => simp at accepted
      case isFalse short =>
        rw [if_neg short]
        rfl

/-- Whatever the tree, a path without names leads to where it starts. -/
theorem target_of_nil (tree : FileTree) {path : Path} (accepted : path.refusal? = none)
    (names : path.names = []) : tree.target path = .ok (.here (tree.start path)) := by
  rw [target_of_accepted tree accepted, names]
  rfl

theorem target_of_append (tree : FileTree) {path : Path} (accepted : path.refusal? = none)
    {before : List Bytes} {last : Bytes} (names : path.names = before ++ [last]) :
    tree.target path =
      match tree.enterAll (tree.start path) before with
      | .error fault => .error fault
      | .ok directory => arrive directory (endsInSlash path) last := by
  rw [target_of_accepted tree accepted, names, List.reverse_append, List.reverse_singleton,
    List.singleton_append, targetOf, List.reverse_reverse]
  rfl

theorem refusal?_of_target {tree : FileTree} {path : Path} {goal : Target}
    (found : tree.target path = .ok goal) : path.refusal? = none := by
  cases refused : path.refusal? with
  | none => rfl
  | some fault => simp [target_of_refused tree refused] at found

/-- The target of a path is a place only behind its last name. -/
theorem names_of_place {tree : FileTree} {path : Path} {location : Location} {wanted : Bool}
    (found : tree.target path = .ok (.place location wanted)) :
    ∃ before last directory, path.names = before ++ [last] ∧
      tree.enterAll (tree.start path) before = .ok directory ∧ location = last :: directory ∧
      last ≠ [Path.dot] ∧ last ≠ [Path.dot, Path.dot] ∧ last.length ≤ nameLimit ∧
      wanted = endsInSlash path := by
  have accepted := refusal?_of_target found
  rcases List.eq_nil_or_concat path.names with none | ⟨before, last, names⟩
  · rw [target_of_nil tree accepted none] at found
    simp at found
  · rw [List.concat_eq_append] at names
    rw [target_of_append tree accepted names] at found
    split at found
    case h_1 => simp at found
    case h_2 directory walked =>
      unfold arrive at found
      split_ifs at found with here up long
      · simp at found
      · simp at found
      · obtain ⟨rfl, rfl⟩ := Target.place.inj (Except.ok.inj found)
        exact ⟨before, last, directory, names, walked, rfl, here, up, Nat.le_of_not_lt long, rfl⟩

theorem exists_cons_of_place {tree : FileTree} {path : Path} {location : Location} {wanted : Bool}
    (found : tree.target path = .ok (.place location wanted)) :
    ∃ name above, location = name :: above := by
  obtain ⟨_, last, directory, _, _, rfl, _⟩ := names_of_place found
  exact ⟨last, directory, rfl⟩

/-- A later tree with at least the same directories agrees on what a path leads to. -/
theorem target_mono {tree later : FileTree} (base : later.base = tree.base)
    (more : ∀ location, tree.HasDirectory location → later.HasDirectory location) {path : Path}
    {goal : Target} (found : tree.target path = .ok goal) : later.target path = .ok goal := by
  have accepted := refusal?_of_target found
  have same : later.start path = tree.start path := by simp only [start, base]
  rcases List.eq_nil_or_concat path.names with none | ⟨before, last, names⟩
  · rw [target_of_nil tree accepted none] at found
    rw [target_of_nil later accepted none, same, found]
  · rw [List.concat_eq_append] at names
    rw [target_of_append tree accepted names] at found
    rw [target_of_append later accepted names, same]
    split at found
    case h_1 => simp at found
    case h_2 directory walked =>
      rw [enterAll_mono more walked]
      exact found

/-! ## Directories -/

/-- The last name of a path is entered where the path arrives. -/
theorem enter_eq_arrive (tree : FileTree) (directory : Location) (slashAtEnd : Bool)
    (last : Bytes) :
    tree.enter directory last =
      match arrive directory slashAtEnd last with
      | .error fault => .error fault
      | .ok (.here location) => .ok location
      | .ok (.place location _) =>
        match tree.entry? location with
        | some .directory => .ok location
        | some (.file _) => .error .notADirectory
        | none => .error .notFound := by
  unfold enter arrive
  split_ifs <;> rfl

/-- A walk over all names of a path goes one step further than its target if there is an entry. -/
theorem walk_eq (tree : FileTree) {path : Path} (accepted : path.refusal? = none) :
    tree.walk path =
      match tree.target path with
      | .error fault => .error fault
      | .ok (.here location) => .ok location
      | .ok (.place location _) =>
        match tree.entry? location with
        | some .directory => .ok location
        | some (.file _) => .error .notADirectory
        | none => .error .notFound := by
  rcases List.eq_nil_or_concat path.names with none | ⟨before, last, names⟩
  · rw [target_of_nil tree accepted none, walk, none]
    rfl
  · rw [List.concat_eq_append] at names
    rw [target_of_append tree accepted names, walk, names, enterAll_append]
    cases tree.enterAll (tree.start path) before with
    | error fault => rfl
    | ok directory =>
      simp only [enterAll, enter_eq_arrive tree directory (endsInSlash path) last]
      cases arrive directory (endsInSlash path) last with
      | error fault => rfl
      | ok goal =>
        cases goal with
        | here location => rfl
        | place location wanted =>
          simp only
          cases tree.entry? location with
          | none => rfl
          | some entry => cases entry <;> rfl

/-- A path leads to a directory when a walk over all its names arrives. -/
theorem isDirectory_iff (tree : FileTree) {path : Path} (accepted : path.refusal? = none) :
    tree.isDirectory path = true ↔ ∃ location, tree.walk path = .ok location := by
  rw [walk_eq tree accepted, isDirectory, kind, find]
  cases tree.target path with
  | error fault => simp
  | ok goal =>
    cases goal with
    | here location => simp [Entry.kind]
    | place location wanted =>
      cases entry : tree.entry? location with
      | none => simp [entry]
      | some entry' =>
        cases entry' with
        | directory => simp [entry, Entry.kind]
        | file content => cases wanted <;> simp [entry, Entry.kind]

theorem kind_of_isDirectory {tree : FileTree} {path : Path}
    (directory : tree.isDirectory path = true) : tree.kind path = .ok .directory := by
  unfold isDirectory at directory
  split at directory
  · assumption
  · simp at directory

theorem isDirectory_of_kind {tree : FileTree} {path : Path}
    (directory : tree.kind path = .ok .directory) : tree.isDirectory path = true := by
  rw [isDirectory, directory]

theorem refusal?_of_isDirectory {tree : FileTree} {path : Path}
    (directory : tree.isDirectory path = true) : path.refusal? = none := by
  cases refused : path.refusal? with
  | none => rfl
  | some fault =>
    simp [isDirectory, kind, find, target_of_refused tree refused] at directory

theorem isDirectory_mono {tree later : FileTree} (base : later.base = tree.base)
    (more : ∀ location, tree.HasDirectory location → later.HasDirectory location) {path : Path}
    (directory : tree.isDirectory path = true) : later.isDirectory path = true := by
  have accepted := refusal?_of_isDirectory directory
  obtain ⟨location, walked⟩ := (isDirectory_iff tree accepted).1 directory
  refine (isDirectory_iff later accepted).2 ⟨location, ?_⟩
  have same : later.start path = tree.start path := by simp only [start, base]
  rw [walk, same]
  exact enterAll_mono more walked

/-- A directory is created at a place where nothing is. -/
theorem createDirectory_eq_ok {tree next : FileTree} {path : Path}
    (created : tree.createDirectory path = .ok next) :
    ∃ name above wanted, tree.target path = .ok (.place (name :: above) wanted) ∧
      tree.entry? (name :: above) = none ∧ next = tree.set (name :: above) .directory := by
  unfold createDirectory at created
  split at created
  case h_1 => simp at created
  case h_2 => simp at created
  case h_3 location wanted found =>
    obtain ⟨name, above, rfl⟩ := exists_cons_of_place found
    split at created
    case h_1 => simp at created
    case h_2 free =>
      exact ⟨name, above, wanted, found, free, (Except.ok.inj created).symm⟩

theorem createDirectory_of_isDirectory {tree : FileTree} {path : Path}
    (directory : tree.isDirectory path = true) :
    tree.createDirectory path = .error .alreadyExists := by
  have accepted := refusal?_of_isDirectory directory
  obtain ⟨location, walked⟩ := (isDirectory_iff tree accepted).1 directory
  rw [walk_eq tree accepted] at walked
  unfold createDirectory
  cases target : tree.target path with
  | error fault => simp [target] at walked
  | ok goal =>
    cases goal with
    | here location => rfl
    | place place wanted =>
      cases entry : tree.entry? place with
      | none => simp [target, entry] at walked
      | some _ => simp [entry]

/-- Where a directory can be created, a walk finds nothing to enter. -/
theorem walk_of_createDirectory {tree next : FileTree} {path : Path}
    (created : tree.createDirectory path = .ok next) : tree.walk path = .error .notFound := by
  obtain ⟨name, above, wanted, found, free, _⟩ := createDirectory_eq_ok created
  rw [walk_eq tree (refusal?_of_target found), found]
  simp [free]

theorem isDirectory_of_createDirectory {tree next : FileTree} {path : Path}
    (created : tree.createDirectory path = .ok next) : next.isDirectory path = true := by
  obtain ⟨name, above, wanted, found, free, rfl⟩ := createDirectory_eq_ok created
  have accepted := refusal?_of_target found
  have later : (tree.set (name :: above) .directory).target path =
      .ok (.place (name :: above) wanted) :=
    target_mono (base_set ..)
      (fun location directory => (hasDirectory_set_directory ..).2 (.inr directory)) found
  refine (isDirectory_iff _ accepted).2 ⟨name :: above, ?_⟩
  rw [walk_eq _ accepted, later]
  simp [entry?_set]

/-! ## Entries of a directory -/

theorem walk_trimmed (tree : FileTree) (directory : Path) :
    tree.walk directory.trimmed = tree.walk directory := by
  obtain ⟨dots, names, all⟩ := directory.names_trimmed
  have same : tree.start directory.trimmed = tree.start directory := by
    simp only [start, Path.isAbsolute_trimmed]
  rw [walk, walk, names, enterAll_append, same]
  cases tree.enterAll (tree.start directory) directory.trimmed.names with
  | error fault => rfl
  | ok location => exact (enterAll_dots tree location all).symm

theorem endsInSlash_join (directory : Path) {name : Bytes} (plain : Path.IsPlain name) :
    endsInSlash (directory.join ⟨name⟩) = false := by
  obtain ⟨before, last, rfl⟩ : ∃ before last, name = before ++ [last] := by
    rcases List.eq_nil_or_concat name with none | ⟨before, last, concat⟩
    · exact absurd none plain.nonempty
    · exact ⟨before, last, by rw [concat, List.concat_eq_append]⟩
  have other : last ≠ Path.slash := fun same => plain.noSlash (by simp [same])
  have relative := plain.isAbsolute
  unfold Path.join
  rw [relative, if_neg (by simp)]
  split
  · simp [endsInSlash, List.getLast?_append, other]
  · simp [endsInSlash, List.getLast?_append, List.getLast?_cons, other]

/-- An entry of a directory that can be reached leads to a place in it, if its path is accepted. -/
theorem target_join {tree : FileTree} {directory : Path} {home : Location}
    (reached : tree.walk directory = .ok home) {name : Bytes} (plain : Path.IsPlain name) :
    tree.target (directory.join ⟨name⟩) =
      match (directory.join ⟨name⟩).refusal? with
      | some fault => .error fault
      | none =>
        if nameLimit < name.length then .error .nameTooLong
        else .ok (.place (name :: home) false) := by
  cases refused : (directory.join ⟨name⟩).refusal? with
  | some fault => exact target_of_refused tree refused
  | none =>
    have same : tree.start (directory.join ⟨name⟩) = tree.start directory := by
      simp only [start, Path.isAbsolute_join directory plain]
    rw [target_of_append tree refused (Path.names_join directory plain), same]
    change tree.enterAll (tree.start directory) directory.names = .ok home at reached
    simp only [reached, arrive, plain.notHere, plain.notAbove, if_false,
      endsInSlash_join directory plain]

/-- Whatever the tree, an entry of a directory leads to a place with its name. -/
theorem head?_of_place_join {tree : FileTree} {directory : Path} {name : Bytes}
    (plain : Path.IsPlain name) {location : Location} {wanted : Bool}
    (found : tree.target (directory.join ⟨name⟩) = .ok (.place location wanted)) :
    location.head? = some name := by
  obtain ⟨before, last, home, names, -, rfl, -⟩ := names_of_place found
  rw [Path.names_join directory plain] at names
  exact congrArg some (List.append_singleton_inj.1 names).2.symm

/-! ## Locations -/

/-- The location that some names lead to when what is missing on the way is taken for a directory.
-/
def passAll (tree : FileTree) (location : Location) : List Bytes → Option Location
  | [] => some location
  | name :: rest =>
    if name = [Path.dot] then tree.passAll location rest
    else if name = [Path.dot, Path.dot] then tree.passAll location.tail rest
    else if nameLimit < name.length then none
    else
      match tree.entry? (name :: location) with
      | some (.file _) => none
      | _ => tree.passAll (name :: location) rest

/-- The location of the entry that a path leads to, or will lead to when the directories that are
missing on its way have been made. -/
def location? (tree : FileTree) (path : Path) : Option Location :=
  if path.refusal?.isSome then none
  else
    match path.names.reverse with
    | [] => none
    | last :: before =>
      match tree.passAll (tree.start path) before.reverse with
      | none => none
      | some directory =>
        if last = [Path.dot] || last = [Path.dot, Path.dot] || nameLimit < last.length then none
        else some (last :: directory)

/-- Whoever walks through directories that are no files before could pass there before. -/
theorem passAll_of_enterAll {before later : FileTree}
    (free : ∀ location, later.HasDirectory location → before.content? location = none)
    {location last : Location} {names : List Bytes}
    (walked : later.enterAll location names = .ok last) :
    before.passAll location names = some last := by
  induction names generalizing location with
  | nil => simpa [enterAll, passAll] using walked
  | cons name rest ih =>
    simp only [enterAll, enter] at walked
    simp only [passAll]
    split_ifs at walked ⊢ with here up long
    · exact ih walked
    · exact ih walked
    · split at walked
      case h_2 => simp at walked
      case h_1 next entered =>
        split at entered
        case h_1 directory =>
          obtain rfl := Except.ok.inj entered
          have noFile := content?_eq_none.1 (free _ directory)
          split
          case h_1 content file => simp [HasDirectory, file] at noFile
          case h_2 => exact ih walked
        case h_2 => simp at entered
        case h_3 => simp at entered

/-- Whatever directories are made, a path leads to its location or to none. -/
theorem location?_of_target {before later : FileTree} (base : later.base = before.base)
    (free : ∀ location, later.HasDirectory location → before.content? location = none)
    {path : Path} {location : Location} {wanted : Bool}
    (found : later.target path = .ok (.place location wanted)) :
    before.location? path = some location := by
  obtain ⟨names, last, directory, split, walked, rfl, here, up, short, _⟩ := names_of_place found
  have same : later.start path = before.start path := by simp only [start, base]
  rw [same] at walked
  simp [location?, refusal?_of_target found, split, passAll_of_enterAll free walked, here, up,
    Nat.not_lt.2 short]

/-- The last name of a path is the first one of its location, and nothing speaks against the path.
-/
theorem exists_of_location?_join {tree : FileTree} {directory : Path} {name : Bytes}
    (plain : Path.IsPlain name) {location : Location}
    (found : tree.location? (directory.join ⟨name⟩) = some location) :
    (directory.join ⟨name⟩).refusal? = none ∧ name.length ≤ nameLimit ∧
      ∃ above, location = name :: above := by
  unfold location? at found
  split_ifs at found with refused
  rw [Path.names_join directory plain, List.reverse_append, List.reverse_singleton,
    List.singleton_append] at found
  split at found
  case h_1 => simp at found
  case h_2 last before names =>
    obtain ⟨rfl, rfl⟩ := List.cons.inj names
    split at found
    case h_1 => simp at found
    case h_2 above _ =>
      split_ifs at found with unfit
      refine ⟨by simpa using refused, ?_, above, (Option.some.inj found).symm⟩
      simp only [Bool.or_eq_true, decide_eq_true_eq, not_or, Nat.not_lt] at unfit
      exact unfit.2

/-- Different entries of a directory have different locations. -/
theorem eq_of_location?_join {tree : FileTree} {directory : Path} {left right : Bytes}
    (plain : Path.IsPlain left) (plain' : Path.IsPlain right) {location : Location}
    (found : tree.location? (directory.join ⟨left⟩) = some location)
    (found' : tree.location? (directory.join ⟨right⟩) = some location) : left = right := by
  obtain ⟨_, _, above, rfl⟩ := exists_of_location?_join plain found
  obtain ⟨_, _, above', same⟩ := exists_of_location?_join plain' found'
  exact (List.cons.inj same).1

/-- Whatever directories are made, an entry of a directory that can be reached leads to its
location. -/
theorem target_of_location?_join {before later : FileTree} (base : later.base = before.base)
    (free : ∀ location, later.HasDirectory location → before.content? location = none)
    {directory : Path} {home location : Location} (reached : later.walk directory = .ok home)
    {name : Bytes} (plain : Path.IsPlain name)
    (found : before.location? (directory.join ⟨name⟩) = some location) :
    later.target (directory.join ⟨name⟩) = .ok (.place location false) := by
  obtain ⟨accepted, short, _⟩ := exists_of_location?_join plain found
  have target := target_join reached plain
  simp only [accepted, if_neg (Nat.not_lt.2 short)] at target
  rw [target, Option.some.inj ((location?_of_target base free target).symm.trans found)]

/-! ## Where a file lands -/

/-- The location where a file of the given path comes to stand, or why it cannot. -/
def landing (tree : FileTree) (path : Path) : Except Fault Location :=
  match tree.target path with
  | .error fault => .error fault
  | .ok (.here _) => .error .isADirectory
  | .ok (.place location _) =>
    if tree.entry? location = some .directory then .error .isADirectory else .ok location

theorem target_of_landing {tree : FileTree} {path : Path} {location : Location}
    (landed : tree.landing path = .ok location) :
    tree.target path = .ok (.place location (endsInSlash path)) ∧ ¬ tree.HasDirectory location := by
  unfold landing at landed
  split at landed
  case h_1 => simp at landed
  case h_2 => simp at landed
  case h_3 place wanted found =>
    split_ifs at landed with directory
    obtain rfl := Except.ok.inj landed
    obtain ⟨_, _, _, _, _, _, _, _, _, rfl⟩ := names_of_place found
    exact ⟨found, directory⟩

/-- A file is created where it lands. -/
theorem create_eq {tree : FileTree} {path : Path} (noSlash : endsInSlash path = false) :
    tree.create path =
      match tree.landing path with
      | .ok location => .ok (tree.set location (.file []))
      | .error fault => .error fault := by
  unfold create landing
  cases found : tree.target path with
  | error fault => rfl
  | ok goal =>
    cases goal with
    | here location => rfl
    | place location wanted =>
      obtain ⟨_, _, _, _, _, _, _, _, _, rfl⟩ := names_of_place found
      simp only [noSlash, Bool.false_eq_true, if_false]
      split
      case h_1 directory => simp [directory]
      case h_2 other => rw [if_neg other]

/-- A file is moved to where it lands. -/
theorem rename_eq {tree : FileTree} {source destination : Path} {origin : Location}
    {content : Bytes} (there : tree.find source = .ok (origin, .file content))
    (noSlash : endsInSlash destination = false) :
    tree.rename source destination =
      match tree.landing destination with
      | .ok location => .ok ((tree.erase origin).set location (.file content))
      | .error fault => .error fault := by
  unfold rename landing
  rw [there]
  cases found : tree.target destination with
  | error fault => rfl
  | ok goal =>
    cases goal with
    | here location => rfl
    | place location wanted =>
      obtain ⟨_, _, _, _, _, _, _, _, _, rfl⟩ := names_of_place found
      simp only [noSlash, Bool.false_eq_true, if_false]
      split
      case h_1 directory => simp [directory]
      case h_2 other => rw [if_neg other]

theorem find_of_target {tree : FileTree} {path : Path} {location : Location} {content : Bytes}
    (found : tree.target path = .ok (.place location false))
    (there : tree.content? location = some content) :
    tree.find path = .ok (location, .file content) := by
  simp [find, found, content?_eq_some.1 there]

theorem read_of_target {tree : FileTree} {path : Path} {location : Location} {content : Bytes}
    (found : tree.target path = .ok (.place location false))
    (there : tree.content? location = some content) : tree.read path = .ok content := by
  rw [read, find_of_target found there]

/-- A file is found at the location that its path leads to. -/
theorem target_of_find {tree : FileTree} {path : Path} {location : Location} {content : Bytes}
    (there : tree.find path = .ok (location, .file content)) :
    tree.target path = .ok (.place location false) ∧ tree.content? location = some content := by
  unfold find at there
  split at there
  case h_1 => simp at there
  case h_2 => simp at there
  case h_3 place wanted found =>
    split at there
    case h_1 => simp at there
    case h_2 octets entry =>
      split_ifs at there with slashed
      simp only [Except.ok.injEq, Prod.mk.injEq, Entry.file.injEq] at there
      obtain ⟨rfl, rfl⟩ := there
      exact ⟨by simpa [slashed] using found, content?_eq_some.2 entry⟩
    case h_3 => simp at there

/-- A file that is found has a name, and is no directory. -/
theorem exists_cons_of_find {tree : FileTree} {path : Path} {location : Location} {content : Bytes}
    (found : tree.find path = .ok (location, .file content)) :
    ∃ name above, location = name :: above ∧ tree.target path = .ok (.place (name :: above) false) ∧
      tree.content? (name :: above) = some content ∧ ¬ tree.HasDirectory (name :: above) := by
  obtain ⟨target, file⟩ := target_of_find found
  obtain ⟨name, above, rfl⟩ := exists_cons_of_place target
  exact ⟨name, above, rfl, target, file, fun directory => by simp [directory.content?] at file⟩

theorem exists_find_of_read {tree : FileTree} {path : Path} {content : Bytes}
    (there : tree.read path = .ok content) :
    ∃ location, tree.find path = .ok (location, .file content) := by
  unfold read at there
  split at there
  case h_1 location _ found => exact ⟨location, found.trans (by rw [Except.ok.inj there])⟩
  case h_2 => simp at there
  case h_3 => simp at there

/-- A file can be read. -/
theorem exists_read_of_kind {tree : FileTree} {path : Path} (file : tree.kind path = .ok .file) :
    ∃ content, tree.read path = .ok content := by
  unfold kind at file
  split at file
  case h_1 location entry found =>
    cases entry with
    | file content => exact ⟨content, by rw [read, found]⟩
    | directory => simp [Entry.kind] at file
  case h_2 => simp at file

/-! ## What file operations do -/

section Operations

variable {tree next : FileTree} {path : Path}

/-- To create a file is to set an empty one where no directory is. -/
theorem exists_of_create (created : tree.create path = .ok next) : ∃ name above,
    tree.target path = .ok (.place (name :: above) false) ∧ ¬ tree.HasDirectory (name :: above) ∧
      next = tree.set (name :: above) (.file []) := by
  unfold create at created
  split at created
  case h_1 => simp at created
  case h_2 => simp at created
  case h_3 place wanted target =>
    obtain ⟨name, above, rfl⟩ := exists_cons_of_place target
    split_ifs at created with slashed
    split at created
    case h_1 => simp at created
    case h_2 noDirectory =>
      obtain rfl := Bool.eq_false_iff.2 slashed
      exact ⟨name, above, target, noDirectory, (Except.ok.inj created).symm⟩

theorem exists_of_append {octets : Bytes} (appended : tree.append path octets = .ok next) :
    ∃ location content, tree.find path = .ok (location, .file content) ∧
      next = tree.set location (.file (content ++ octets)) := by
  unfold append at appended
  split at appended
  case h_1 location content found => exact ⟨location, content, found, (Except.ok.inj appended).symm⟩
  case h_2 => simp at appended
  case h_3 => simp at appended

theorem exists_of_remove (removed : tree.remove path = .ok next) :
    ∃ location content, tree.find path = .ok (location, .file content) ∧
      next = tree.erase location := by
  unfold remove at removed
  split at removed
  case h_1 location content found => exact ⟨location, content, found, (Except.ok.inj removed).symm⟩
  case h_2 => simp at removed
  case h_3 => simp at removed

/-- To move a file is to take it away and to set it where no directory is. -/
theorem exists_of_rename {destination : Path} (renamed : tree.rename path destination = .ok next) :
    ∃ origin content name above, tree.find path = .ok (origin, .file content) ∧
      tree.target destination = .ok (.place (name :: above) false) ∧
      ¬ tree.HasDirectory (name :: above) ∧
      next = (tree.erase origin).set (name :: above) (.file content) := by
  unfold rename at renamed
  split at renamed
  case h_1 => simp at renamed
  case h_2 => simp at renamed
  case h_3 origin content found =>
    split at renamed
    case h_1 => simp at renamed
    case h_2 => simp at renamed
    case h_3 place wanted target =>
      obtain ⟨name, above, rfl⟩ := exists_cons_of_place target
      split_ifs at renamed with slashed
      split at renamed
      case h_1 => simp at renamed
      case h_2 noDirectory =>
        obtain rfl := Bool.eq_false_iff.2 slashed
        exact ⟨origin, content, name, above, found, target, noDirectory,
          (Except.ok.inj renamed).symm⟩

end Operations

/-! ## Trees with the same entries -/

section Same

variable {tree other : FileTree} (base : other.base = tree.base)
  (same : ∀ location, other.entry? location = tree.entry? location)

include same

theorem enterAll_congr (location : Location) (names : List Bytes) :
    other.enterAll location names = tree.enterAll location names := by
  induction names generalizing location with
  | nil => rfl
  | cons name rest ih =>
    simp only [enterAll, enter, same]
    split
    · exact ih _
    · rfl

include base

theorem target_congr (path : Path) : other.target path = tree.target path := by
  simp only [target, targetOf, base, enterAll_congr same]

theorem kind_congr (path : Path) : other.kind path = tree.kind path := by
  simp only [kind, find, target_congr base same, same]

/-- Where one directory cannot be created, it cannot be created in a tree with the same entries. -/
theorem createDirectory_congr {path : Path} {fault : Fault}
    (failed : tree.createDirectory path = .error fault) :
    other.createDirectory path = .error fault := by
  unfold createDirectory at failed ⊢
  simp only [target_congr base same, same]
  split at failed
  case h_1 => exact failed
  case h_2 => exact failed
  case h_3 location wanted found =>
    split at failed
    case h_1 => simp only [failed]
    case h_2 => simp at failed

end Same

end FileTree

end MailMerge
