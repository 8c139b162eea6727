import MailMerge.Proofs.Run.Changes
import MailMerge.Proofs.Run.Rules

/-!
# Making the directory in turns

All rows of a run try to make the same directory, each with a sequence of operations that others
come in between.  Whether such an attempt succeeds does not depend on that: it does exactly if the
ready tree has the directory (`Site.secure_createAlong`).  Only the reason given for a failure may
be another one, and even this is the same when there is nothing that an attempt could create
(`Still.secure_createAlong`).
-/

namespace MailMerge

open MailMerge.Path (Lineage)
open Run (Assignment)

set_option autoImplicit false

/-! ## A directory that is there -/

/-- Nothing is done to make a directory that is there, on whatever terms. -/
theorem Task.secure_createDirectories {rely step : Scene → Scene → Prop} {now : Assertion}
    {path : Path} (named : path.bytes ≠ []) (steady : now.Steady rely)
    (there : ∀ scene, now scene → scene.tree.isDirectory path = true)
    (idle : ∀ scene, now scene → step scene scene) :
    (Task.createDirectories path).Secure rely step
      (fun result scene => now scene ∧ result = .ok ()) now := by
  have tried : (Task.createDirectory path).Secure rely step
      (fun reply scene => now scene ∧ reply = .error .alreadyExists) now := by
    refine .perform (fun _ => steady.and fun _ _ _ same => same) fun scene start => ?_
    have failed := FileTree.createDirectory_of_isDirectory (there scene start)
    rw [Scene.reply_createDirectory, Scene.after_createDirectory, failed]
    exact ⟨idle scene start, start, rfl⟩
  have looked : (Task.kind path).Secure rely step
      (fun reply scene => now scene ∧ reply = .ok .directory) now :=
    .perform (fun _ => steady.and fun _ _ _ same => same) fun scene start =>
      ⟨idle scene start, start, FileTree.kind_of_isDirectory (there scene start)⟩
  obtain ⟨above, same⟩ := Path.ancestors_eq_cons path.bytes.length path
  rw [Task.createDirectories, same]
  refine .createAlong_cons_of_failed named tried nofun (.unlessDirectory looked ?_ ?_)
  · exact fun _ told => ⟨told.1, rfl⟩
  · exact fun _ _ other told => absurd told.2 other

namespace Site

variable {site : Site} {assignment : Assignment} {destination : Path} {content : Bytes}
  {own : Option Bytes} {now : Assertion}

/-! ## One directory -/

/-- A path leads somewhere as soon as it could be a directory at all. -/
def Prepared (site : Site) (path : Path) (tree : FileTree) : Prop :=
  site.ready.isDirectory path = true → ∃ goal, tree.target path = .ok goal

/-- What is known after an attempt to create a directory. -/
def Attempted (site : Site) (path : Path) (sure : Prop) (know : Assertion) :
    Except Fault Unit → Assertion
  | .ok () => fun scene => know scene ∧ scene.tree.isDirectory path = true
  | .error fault => fun scene => know scene ∧ (sure ∨ fault ≠ .notFound →
      scene.tree.isDirectory path = true ∨ site.ready.isDirectory path = false)

theorem secure_createDirectory (placed : site.Placed assignment destination) {path : Path}
    (sure : Prop) (blocked : ∀ other, site.ready.createDirectory path ≠ .ok other)
    (holds : ∀ scene, now scene → site.Knows assignment content own scene ∧
      (sure → site.Prepared path scene.tree)) :
    (Task.createDirectory path).Secure (site.Relied assignment) (site.Step assignment)
      (site.Attempted path sure (site.Knows assignment content own)) now := by
  have steady := Knows.steady placed content own
  refine .perform (fun reply => ?_) fun scene start => ?_
  · cases reply with
    | ok _ => exact steady.and (steady_isDirectory assignment path)
    | error fault => exact steady.and (steady_isDirectory assignment path).or_const.of_imp
  · obtain ⟨knows, prepared⟩ := holds scene start
    rw [Scene.reply_createDirectory, Scene.after_createDirectory]
    cases created : scene.tree.createDirectory path with
    | ok tree =>
      obtain ⟨keeps, same⟩ :=
        @keeps_createDirectory _ assignment _ _ knows.amid _ blocked created
      refine ⟨keeps.step, knows.keeps placed keeps fun location spot => ?_,
        FileTree.isDirectory_of_createDirectory created⟩
      exact (same location).trans (knows.own location spot)
    | error fault =>
      refine ⟨step_of_error knows.amid fault, knows, fun certain => ?_⟩
      by_cases missing : fault = .notFound
      · by_cases possible : site.ready.isDirectory path = true
        · obtain ⟨goal, found⟩ :=
            prepared (certain.resolve_right fun other => other missing) possible
          exact knows.amid.attempt_of_target found created
        · exact .inr (Bool.not_eq_true _ ▸ possible)
      · exact knows.amid.attempt created missing

/-- What is known after an attempt to make a directory with its ancestors. -/
def Attained (site : Site) (path : Path) (know : Assertion) : Except Fault Unit → Assertion
  | .ok () => fun scene => know scene ∧ (path.bytes = [] ∨ scene.tree.isDirectory path = true)
  | .error _ => fun scene => know scene ∧ path.bytes ≠ [] ∧ site.ready.isDirectory path = false

theorem secure_unlessDirectory (placed : site.Placed assignment destination) {path : Path}
    {fault : Fault} (named : path.bytes ≠ [])
    (holds : ∀ scene, now scene → site.Knows assignment content own scene ∧
      (scene.tree.isDirectory path = true ∨ site.ready.isDirectory path = false)) :
    (Task.unlessDirectory path fault).Secure (site.Relied assignment) (site.Step assignment)
      (site.Attained path (site.Knows assignment content own)) now := by
  have steady := Knows.steady placed content own
  have looked : (Task.kind path).Secure (site.Relied assignment) (site.Step assignment)
      (fun reply scene => site.Knows assignment content own scene ∧
        (reply = .ok .directory → scene.tree.isDirectory path = true) ∧
        (reply ≠ .ok .directory → site.ready.isDirectory path = false)) now := by
    refine secure_kind (fun reply => ?_) fun scene start => ?_
    · exact steady.and ((steady_isDirectory assignment path).of_imp.and fun _ _ _ same => same)
    · obtain ⟨knows, known⟩ := holds scene start
      refine ⟨knows.amid, knows, FileTree.isDirectory_of_kind, fun other => ?_⟩
      exact known.resolve_left fun directory => other (FileTree.kind_of_isDirectory directory)
  exact .unlessDirectory looked (fun _ holds => ⟨holds.1, .inr (holds.2.1 rfl)⟩)
    fun _ _ other holds => ⟨holds.1, named, holds.2.2 other⟩

theorem secure_ensureDirectory (placed : site.Placed assignment destination) {path : Path}
    (named : path.bytes ≠ []) (blocked : ∀ other, site.ready.createDirectory path ≠ .ok other)
    (holds : ∀ scene, now scene → site.Knows assignment content own scene ∧
      site.Prepared path scene.tree) :
    (Task.ensureDirectory path).Secure (site.Relied assignment) (site.Step assignment)
      (site.Attained path (site.Knows assignment content own)) now := by
  have created := secure_createDirectory placed True blocked fun scene start =>
    ⟨(holds scene start).1, fun _ => (holds scene start).2⟩
  exact .ensureDirectory created (fun _ holds => ⟨holds.1, .inr holds.2⟩) fun fault =>
    secure_unlessDirectory placed named fun _ holds => ⟨holds.1, holds.2 (.inl trivial)⟩

/-- What is known when the directories above a path have been made. -/
def Ascended (site : Site) (path : Path) (know : Assertion) : Except Fault Unit → Assertion
  | .ok () => fun scene => know scene ∧ site.Prepared path scene.tree
  | .error _ => fun scene => know scene ∧ site.ready.isDirectory path = false

/-- A directory is made, given that those above it can be. -/
theorem secure_createAlong_cons (placed : site.Placed assignment destination) {path : Path}
    {above : List Path} (named : path.bytes ≠ [])
    (blocked : ∀ other, site.ready.createDirectory path ≠ .ok other)
    (rest : (Task.createAlong above).Secure (site.Relied assignment) (site.Step assignment)
      (site.Ascended path (site.Knows assignment content own))
      (site.Knows assignment content own)) :
    (Task.createAlong (path :: above)).Secure (site.Relied assignment) (site.Step assignment)
      (site.Attained path (site.Knows assignment content own))
      (site.Knows assignment content own) := by
  have created := secure_createDirectory placed False blocked
    fun scene (knows : site.Knows assignment content own scene) => ⟨knows, False.elim⟩
  exact .createAlong_cons
    (fun empty => absurd (FileTree.components_isEmpty_iff.1 empty) named) created
    (fun _ holds => ⟨holds.1, .inr holds.2⟩) (rest.strengthen fun _ tried => tried.1)
    (secure_ensureDirectory placed named blocked fun _ holds => holds)
    (fun _ _ failed => ⟨failed.1, named, failed.2⟩)
    fun fault other => secure_unlessDirectory placed named fun _ holds =>
      ⟨holds.1, holds.2 (.inr other)⟩

/-- Once the parent is there, a path that could be a directory leads somewhere. -/
theorem prepared_of_parent {tree : FileTree} (amid : site.Amid tree) {path parent : Path}
    (relation : Path.HasParent path parent) (accepted : path.refusal? = none)
    (reached : parent.bytes = [] ∨ tree.isDirectory parent = true) : site.Prepared path tree := by
  intro directory
  obtain ⟨passed, walked⟩ : ∃ passed, tree.walk parent = .ok passed := by
    rcases reached with none | there
    · refine ⟨tree.start parent, ?_⟩
      rw [FileTree.walk, FileTree.names_of_bytes_eq_nil none]
      rfl
    · exact (FileTree.isDirectory_iff tree (FileTree.refusal?_of_isDirectory there)).1 there
  rw [amid.target_of_parent relation accepted walked]
  obtain ⟨location, arrived⟩ := (FileTree.isDirectory_iff _ accepted).1 directory
  cases found : site.ready.target path with
  | ok goal => exact ⟨goal, rfl⟩
  | error fault => simp [FileTree.walk_of_target accepted found] at arrived

theorem isDirectory_parent {tree : FileTree} {path parent : Path}
    (relation : Path.HasParent path parent) (accepted : parent.bytes = [] ∨ parent.refusal? = none)
    (named : parent.bytes ≠ []) (missed : tree.isDirectory parent = false) :
    tree.isDirectory path = false := by
  refine Bool.not_eq_true _ ▸ fun directory => ?_
  have there := (FileTree.isDirectory_iff tree (accepted.resolve_left named)).2
    (FileTree.walk_parent relation directory)
  simp [missed] at there

theorem secure_createAlong (placed : site.Placed assignment destination) {path : Path}
    {above : List Path} (lineage : Lineage (path :: above))
    (accepted : path.bytes = [] ∨ path.refusal? = none)
    (saturated : site.ready.Saturated (path :: above)) :
    (Task.createAlong (path :: above)).Secure (site.Relied assignment) (site.Step assignment)
      (site.Attained path (site.Knows assignment content own))
      (site.Knows assignment content own) := by
  induction above generalizing path with
  | nil =>
    rcases accepted with empty | accepted
    · rw [Task.createAlong, if_pos (FileTree.components_isEmpty_iff.2 empty)]
      exact .pure fun scene knows => ⟨knows, .inl empty⟩
    · have names : path.names = [] := by
        cases lineage
        assumption
      refine secure_createAlong_cons placed (FileTree.bytes_ne_nil_of_accepted accepted)
        (saturated path List.mem_cons_self) (.pure fun scene knows => ⟨knows, fun _ => ?_⟩)
      exact ⟨_, FileTree.target_of_nil scene.tree accepted names⟩
  | cons parent further ih =>
    cases lineage with
    | step relation rest =>
      have accepted := accepted.resolve_left fun none =>
        FileTree.names_ne_nil_of_lineage (.step relation rest) (by simp)
          (FileTree.names_of_bytes_eq_nil none)
      have acceptedParent := FileTree.refusal?_parent relation accepted
      have above := ih rest acceptedParent fun other member =>
        saturated other (List.mem_cons_of_mem _ member)
      refine secure_createAlong_cons placed (FileTree.bytes_ne_nil_of_accepted accepted)
        (saturated path List.mem_cons_self) (above.weaken fun result scene holds => ?_)
      cases result with
      | ok _ => exact ⟨holds.1, prepared_of_parent holds.1.amid relation accepted holds.2⟩
      | error fault =>
        exact ⟨holds.1, isDirectory_parent relation acceptedParent holds.2.1 holds.2.2⟩

/-! ## Attempts that create nothing -/

/-- A run that cannot make its directory, and in which an attempt to do so creates nothing. -/
structure Still (site : Site) : Prop where
  unreached : ¬ site.Reached site.ready
  same : ∀ location, site.ready.entry? location = site.before.entry? location

/-- In such a run the tree stays as it was. -/
theorem Still.entries (still : site.Still) {tree : FileTree} (amid : site.Amid tree)
    (location : Location) : tree.entry? location = site.before.entry? location := by
  have content := amid.still still.unreached location
  cases entry : site.before.entry? location with
  | none =>
    rw [FileTree.content?_eq_none.2 (.inl entry)] at content
    refine (FileTree.content?_eq_none.1 content).resolve_right fun directory => ?_
    have := (still.same location).symm.trans (amid.within location directory)
    simp [entry] at this
  | some found =>
    cases found with
    | directory => exact amid.kept location entry
    | file octets =>
      rw [FileTree.content?_eq_some.2 entry] at content
      exact FileTree.content?_eq_some.1 content

variable (still : site.Still) (placed : site.Placed assignment destination)

include still placed

/-- An operation fails as it would have failed before the run. -/
theorem Still.secure_createDirectory {path : Path} {fault : Fault}
    (failed : site.before.createDirectory path = .error fault) :
    (Task.createDirectory path).Secure (site.Relied assignment) (site.Step assignment)
      (fun reply scene => site.Knows assignment content own scene ∧ reply = .error fault)
      (site.Knows assignment content own) := by
  refine .perform (fun reply => ?_) fun scene knows => ?_
  · exact (Knows.steady placed content own).and fun _ _ _ same => same
  · have same := FileTree.createDirectory_congr knows.amid.base (still.entries knows.amid) failed
    rw [Scene.reply_createDirectory, Scene.after_createDirectory, same]
    exact ⟨step_of_error knows.amid fault, knows, rfl⟩

theorem Still.secure_unlessDirectory (path : Path) (fault : Fault) :
    (Task.unlessDirectory path fault).Secure (site.Relied assignment) (site.Step assignment)
      (fun result scene => site.Knows assignment content own scene ∧
        result = if site.before.isDirectory path then .ok () else .error fault)
      (site.Knows assignment content own) := by
  have looked : (Task.kind path).Secure (site.Relied assignment) (site.Step assignment)
      (fun reply scene => site.Knows assignment content own scene ∧
        reply = site.before.kind path) (site.Knows assignment content own) := by
    refine secure_kind (fun reply => ?_) fun scene knows => ?_
    · exact (Knows.steady placed content own).and fun _ _ _ same => same
    · exact ⟨knows.amid, knows, FileTree.kind_congr knows.amid.base (still.entries knows.amid) path⟩
  refine .unlessDirectory looked (fun _ told => ⟨told.1, ?_⟩) fun reply _ other told => ⟨told.1, ?_⟩
  · rw [if_pos (FileTree.isDirectory_of_kind told.2.symm)]
  · rw [if_neg fun directory => other (told.2.trans (FileTree.kind_of_isDirectory directory))]

theorem Still.secure_ensureDirectory {path : Path}
    (blocked : ∀ next, site.before.createDirectory path ≠ .ok next) :
    (Task.ensureDirectory path).Secure (site.Relied assignment) (site.Step assignment)
      (fun result scene => site.Knows assignment content own scene ∧
        result = (site.before.ensureDirectory path).2)
      (site.Knows assignment content own) := by
  unfold Task.ensureDirectory FileTree.ensureDirectory
  cases failed : site.before.createDirectory path with
  | ok next => exact absurd failed (blocked next)
  | error fault =>
    refine .ensureDirectory (still.secure_createDirectory placed failed)
      (fun _ told => nomatch told.2) fun other => .assuming fun same => ?_
    obtain rfl := Except.error.inj same
    exact still.secure_unlessDirectory placed path other

/-- An attempt has the result that an attempt before the run would have had, given that this is so
for the paths above. -/
theorem Still.secure_createAlong_cons {path : Path} {above : List Path}
    (blocked : ∀ next, site.before.createDirectory path ≠ .ok next)
    (rest : site.before.createDirectory path = .error .notFound →
      (site.before.createAlong above).1 = site.before ∧
      (Task.createAlong above).Secure (site.Relied assignment) (site.Step assignment)
        (fun result scene => site.Knows assignment content own scene ∧
          result = (site.before.createAlong above).2) (site.Knows assignment content own)) :
    (Task.createAlong (path :: above)).Secure (site.Relied assignment) (site.Step assignment)
      (fun result scene => site.Knows assignment content own scene ∧
        result = (site.before.createAlong (path :: above)).2)
      (site.Knows assignment content own) := by
  by_cases empty : path.bytes = []
  · rw [Task.createAlong, if_pos (FileTree.components_isEmpty_iff.2 empty),
      FileTree.createAlong_of_empty _ empty]
    exact .pure fun _ knows => ⟨knows, rfl⟩
  · cases failed : site.before.createDirectory path with
    | ok next => exact absurd failed (blocked next)
    | error fault =>
      have tried : (Task.createDirectory path).Secure _ _ _ (site.Knows assignment content own) :=
        still.secure_createDirectory placed failed
      by_cases missing : fault = .notFound
      · subst missing
        obtain ⟨unchanged, ascent⟩ := rest failed
        refine .createAlong_cons (fun none => absurd (FileTree.components_isEmpty_iff.1 none) empty)
          tried ?_ (ascent.strengthen fun _ told => told.1) (.assuming fun done => ?_)
          (fun other scene told => ⟨told.1, ?_⟩)
          fun other different => .assuming fun same => absurd (Except.error.inj same) different
        · rintro _ ⟨_, ⟨⟩⟩
        · rw [FileTree.createAlong_of_missing empty failed unchanged, ← done]
          exact still.secure_ensureDirectory placed blocked
        · rw [FileTree.createAlong_of_missing empty failed unchanged, ← told.2]
      · rw [FileTree.createAlong_of_failed empty failed missing]
        exact .createAlong_cons_of_failed empty tried missing
          (still.secure_unlessDirectory placed path fault)

theorem Still.secure_createAlong {paths : List Path} (saturated : site.before.Saturated paths) :
    (Task.createAlong paths).Secure (site.Relied assignment) (site.Step assignment)
      (fun result scene => site.Knows assignment content own scene ∧
        result = (site.before.createAlong paths).2) (site.Knows assignment content own) := by
  induction paths with
  | nil => exact .pure fun _ knows => ⟨knows, rfl⟩
  | cons path above ih =>
    have rest : site.before.Saturated above :=
      fun other member => saturated other (List.mem_cons_of_mem _ member)
    exact still.secure_createAlong_cons placed (saturated path List.mem_cons_self) fun _ =>
      ⟨FileTree.createAlong_of_saturated rest, ih rest⟩

omit still

/-! ## All attempts -/

/-- What is known after an attempt to make the directory. -/
def Arrived (site : Site) (path : Path) (know : Assertion) : Except Fault Unit → Assertion
  | .ok () => fun scene => know scene ∧ site.Reached scene.tree
  | .error fault => fun scene =>
    know scene ∧ site.ready.isDirectory path = false ∧ site.Refuses path fault

/-- A path that is refused is refused every time. -/
theorem secure_createDirectories_of_refused {path : Path} (needed : site.needed? = some path)
    {fault : Fault} (refused : path.refusal? = some fault) :
    (Task.createDirectories path).Secure (site.Relied assignment) (site.Step assignment)
      (site.Arrived path (site.Knows assignment content own))
      (site.Knows assignment content own) := by
  obtain ⟨above, same, _⟩ := exists_lineage needed
  have named := (needed?_eq_some needed).2
  have missed : ∀ tree : FileTree, tree.isDirectory path = false := fun tree =>
    Bool.not_eq_true _ ▸ fun directory => by
      simp [FileTree.refusal?_of_isDirectory directory] at refused
  have failed : ∀ tree : FileTree, tree.createDirectory path = .error fault := fun tree => by
    rw [FileTree.createDirectory, FileTree.target_of_refused tree refused]
  have other := Path.ne_notFound_of_refused named refused
  have still : site.Still := by
    refine ⟨fun reached => ?_, fun _ => by rw [ready_of_refused needed refused]⟩
    simpa [missed] using reached path needed
  have attempt : site.before.createAlong (path :: above) = (site.before, .error fault) := by
    rw [FileTree.createAlong_of_failed named (failed site.before) other, missed, if_neg (by simp)]
  rw [Task.createDirectories, same]
  refine (still.secure_createAlong_cons placed (by simp [failed]) ?_).weaken ?_
  · intro missing
    exact absurd (Except.error.inj ((failed site.before).symm.trans missing)) other
  · rintro result scene ⟨knows, rfl⟩
    rw [attempt]
    refine ⟨knows, missed _, fun _ => ?_⟩
    rw [FileTree.createDirectories, same, attempt]

/-- Every attempt to make the directory succeeds if the ready tree has it, and fails otherwise. -/
theorem secure_createDirectories {path : Path} (needed : site.needed? = some path) :
    (Task.createDirectories path).Secure (site.Relied assignment) (site.Step assignment)
      (site.Arrived path (site.Knows assignment content own))
      (site.Knows assignment content own) := by
  cases refused : path.refusal? with
  | some fault => exact secure_createDirectories_of_refused placed needed refused
  | none =>
    obtain ⟨above, same, lineage⟩ := exists_lineage needed
    have saturated := (made_ready needed same lineage refused).saturated
    have named := (needed?_eq_some needed).2
    have attained : (Task.createAlong (path :: above)).Secure _ _ _
        (site.Knows assignment content own) :=
      secure_createAlong placed lineage (.inr refused) saturated
    have reached : ∀ scene : Scene, path.bytes = [] ∨ scene.tree.isDirectory path = true →
        site.Reached scene.tree := by
      rintro scene there _ other
      obtain rfl := Option.some.inj (needed.symm.trans other)
      exact there.resolve_left named
    rw [Task.createDirectories, same]
    by_cases still : site.Still
    · have nothing : site.before.Saturated (path :: above) := by
        intro other member next created
        cases failed : site.ready.createDirectory other with
        | ok next => exact saturated other member next failed
        | error fault =>
          have := FileTree.createDirectory_congr base_ready.symm
            (fun _ => (still.same _).symm) failed
          simp [created] at this
      refine ((attained.and (still.secure_createAlong placed nothing)).strengthen
        fun _ knows => ⟨knows, knows⟩).weaken fun result scene both => ?_
      obtain ⟨holds, knows, value⟩ := both
      cases result with
      | ok _ => exact ⟨knows, reached scene holds.2⟩
      | error fault =>
        refine ⟨knows, holds.2.2, fun _ => ?_⟩
        rw [FileTree.createDirectories, same, ← value]
    · refine attained.weaken fun result scene holds => ?_
      cases result with
      | ok _ => exact ⟨holds.1, reached scene holds.2⟩
      | error fault =>
        refine ⟨holds.1, holds.2.2, fun unchanged => absurd ⟨fun arrived => ?_, unchanged⟩ still⟩
        simpa [holds.2.2] using arrived path needed

end Site

end MailMerge
