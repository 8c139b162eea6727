import MailMerge.Proofs.Run.Making

/-!
# What staging achieves

The work of a row is followed operation by operation, in whatever way other rows come in between.
Once the directory is there, where the temporary file lands is settled, and so is what the file will
hold as long as nobody touches the template: the lines of the template filled with the row's values.
So staging achieves its goal (`Site.held_pending`): the complete file, or no file and a
failure that can be accounted for.
-/

namespace MailMerge

open Run (Assignment Staged)

set_option autoImplicit false

namespace Site

variable {site : Site} {assignment : Assignment} {destination : Path} {content : Bytes}
  {own : Option Bytes} {now : Assertion}

/-! ## The directory of a destination -/

/-- All files need the directory of the run. -/
theorem neededDirectory?_join (site : Site) {name : Bytes} (plain : Path.IsPlain name) :
    Run.neededDirectory? (site.directory.join ⟨name⟩) = site.needed? := by
  rw [Run.neededDirectory?, Path.parent?_join site.directory plain]
  rfl

theorem Fits.neededDirectory? (fits : site.Fits assignment)
    (chosen : assignment.destination = .ok destination) :
    Run.neededDirectory? destination = site.needed? := by
  obtain ⟨name, plain, rfl⟩ := fits.entry destination chosen
  exact neededDirectory?_join site plain

/-- What a row knows as soon as the directory is there. -/
def Settled (site : Site) (assignment : Assignment) (content : Bytes) (own : Option Bytes) :
    Assertion :=
  fun scene => site.Knows assignment content own scene ∧ site.Reached scene.tree

theorem Settled.steady (placed : site.Placed assignment destination) (content : Bytes)
    (own : Option Bytes) :
    Assertion.Steady (site.Relied assignment) (site.Settled assignment content own) :=
  (Knows.steady placed content own).and (steady_reached assignment)

/-- What is known when a row has seen to its directory. -/
def Housed (site : Site) (assignment : Assignment) (content : Bytes) (own : Option Bytes) :
    Except Failure Unit → Assertion
  | .ok () => site.Settled assignment content own
  | .error failure => fun scene => site.Knows assignment content own scene ∧
      failure ≠ .cancelled ∧ site.Rejected assignment (some content) failure

theorem secure_ensureDirectory_of_destination (placed : site.Placed assignment destination) :
    (Run.ensureDirectory destination).Secure (site.Relied assignment) (site.Step assignment)
      (site.Housed assignment content own) (site.Knows assignment content own) := by
  have only := placed.fits.neededDirectory? placed.chosen
  refine .ensureDirectory_of_destination (fun home scene knows => ⟨knows, fun path needed => ?_⟩)
    fun path needed => (secure_createDirectories placed (only ▸ needed)).weaken
      fun result scene holds => ?_
  · simp [only, needed] at home
  · cases result with
    | ok _ => exact holds
    | error fault =>
      exact ⟨holds.1, nofun, .unreachable placed.chosen (only ▸ needed) holds.2.1 holds.2.2⟩

/-! ## The temporary file -/

/-- A tree amid that has the directory, after a file was written where the temporary file lands. -/
theorem settled_set (placed : site.Placed assignment destination) {scene : Scene}
    {location : Location} (settled : site.Settled assignment content own scene)
    (landed : site.ready.landing (Destination.temporary destination assignment.index) =
      .ok location) (octets : Bytes) :
    site.Step assignment scene (scene.changed (.ok (scene.tree.set location (.file octets)))) ∧
      site.Settled assignment content (some octets)
        (scene.changed (.ok (scene.tree.set location (.file octets)))) := by
  obtain ⟨knows, reached⟩ := settled
  obtain ⟨found, vacant⟩ := FileTree.target_of_landing landed
  have spot : site.spot? assignment = some location := by
    rw [spot?_of_chosen placed.chosen]
    have entry := placed.fits.isEntry_temporary placed.chosen
    exact knows.amid.location?_of_target ((knows.amid.target_eq reached entry).trans found)
  obtain ⟨keeps, file⟩ := keeps_set knows.amid reached spot (FileTree.exists_cons_of_place found)
    (mt (knows.amid.within location) vacant) octets
  refine ⟨keeps.step, knows.keeps placed keeps fun other own => ?_, keeps.reached reached⟩
  obtain rfl := Option.some.inj (spot.symm.trans own)
  exact file

/-- The file under the temporary name is the one at the row's spot. -/
theorem find_temporary (placed : site.Placed assignment destination) {scene : Scene}
    {location : Location} {octets : Bytes}
    (settled : site.Settled assignment content (some octets) scene)
    (landed : site.ready.landing (Destination.temporary destination assignment.index) =
      .ok location) :
    scene.tree.find (Destination.temporary destination assignment.index) =
      .ok (location, .file octets) := by
  obtain ⟨knows, reached⟩ := settled
  have entry := placed.fits.isEntry_temporary placed.chosen
  obtain ⟨found, _⟩ := FileTree.target_of_landing landed
  have spot : site.spot? assignment = some location := by
    rw [spot?_of_chosen placed.chosen]
    exact knows.amid.location?_of_target ((knows.amid.target_eq reached entry).trans found)
  exact find_of_spot placed.fits placed.chosen knows.amid reached spot (knows.own location spot)

theorem secure_append (placed : site.Placed assignment destination) {location : Location}
    {written : Bytes} (octets : Bytes)
    (landed : site.ready.landing (Destination.temporary destination assignment.index) =
      .ok location) :
    (Task.append (Destination.temporary destination assignment.index) octets).Secure
      (site.Relied assignment) (site.Step assignment)
      (fun reply scene => site.Settled assignment content (some (written ++ octets)) scene ∧
        reply = .ok ()) (site.Settled assignment content (some written)) := by
  refine .perform (fun reply => ?_) fun scene settled => ?_
  · exact (Settled.steady placed content _).and fun _ _ _ same => same
  · have there := find_temporary placed settled landed
    have appended : scene.tree.append (Destination.temporary destination assignment.index) octets =
        .ok (scene.tree.set location (.file (written ++ octets))) := by
      rw [FileTree.append, there]
    obtain ⟨step, after⟩ := settled_set placed settled landed (written ++ octets)
    rw [Scene.reply_append, Scene.after_append, appended]
    exact ⟨step, after, rfl⟩

theorem secure_create (placed : site.Placed assignment destination) :
    (Task.create (Destination.temporary destination assignment.index)).Secure
      (site.Relied assignment) (site.Step assignment)
      (fun reply scene => match site.ready.landing
          (Destination.temporary destination assignment.index) with
        | .ok _ => site.Settled assignment content (some []) scene ∧ reply = .ok ()
        | .error fault => site.Settled assignment content own scene ∧ reply = .error fault)
      (site.Settled assignment content own) := by
  have entry := placed.fits.isEntry_temporary placed.chosen
  refine .perform (fun reply => ?_) fun scene settled => ?_
  · split
    · exact (Settled.steady placed content _).and fun _ _ _ same => same
    · exact (Settled.steady placed content _).and fun _ _ _ same => same
  · have created : scene.tree.create _ = _ := FileTree.create_eq entry.noSlash
    rw [settled.1.amid.landing_eq settled.2 entry] at created
    rw [Scene.reply_create, Scene.after_create, created]
    cases landed : site.ready.landing (Destination.temporary destination assignment.index) with
    | ok location =>
      obtain ⟨step, after⟩ := settled_set placed settled landed []
      exact ⟨step, after, rfl⟩
    | error fault => exact ⟨step_of_error settled.1.amid fault, settled, rfl⟩

/-- After it was removed there is no temporary file, even if there was nothing to remove. -/
theorem secure_remove (placed : site.Placed assignment destination) {fact : Prop} :
    (Task.remove (Destination.temporary destination assignment.index)).Secure
      (site.Relied assignment) (site.Step assignment)
      (fun _ scene => site.Settled assignment content none scene ∧
        (fact → scene.stopping = true))
      fun scene => (∃ own, site.Settled assignment content own scene) ∧
        (fact → scene.stopping = true) := by
  refine .perform (fun _ => ?_) fun scene holds => ?_
  · exact (Settled.steady placed content none).and (steady_stopping assignment).of_imp
  · obtain ⟨⟨own, knows, reached⟩, stopping⟩ := holds
    rw [Scene.after_remove]
    cases removed : scene.tree.remove (Destination.temporary destination assignment.index) with
    | error fault =>
      refine ⟨step_of_error knows.amid fault, ⟨⟨knows.amid, knows.template, ?_⟩, reached⟩, stopping⟩
      intro location spot
      exact content?_of_unremoved placed.fits placed.chosen knows.amid reached removed spot
    | ok tree =>
      obtain ⟨keeps, gone⟩ := keeps_remove placed.fits placed.chosen knows.amid removed
      exact ⟨keeps.step, ⟨knows.keeps placed keeps gone, keeps.reached reached⟩, stopping⟩

theorem secure_removeTemporary (placed : site.Placed assignment destination) {fact : Prop} :
    (Run.removeTemporary (Destination.temporary destination assignment.index)).Secure
      (site.Relied assignment) (site.Step assignment)
      (fun _ scene => site.Settled assignment content none scene ∧
        (fact → scene.stopping = true))
      fun scene => (∃ own, site.Settled assignment content own scene) ∧
        (fact → scene.stopping = true) := by
  refine .removeTemporary (secure_remove placed) fun message => ?_
  refine .perform (fun _ => ?_) fun scene holds => ?_
  · exact (Settled.steady placed content none).and (steady_stopping assignment).of_imp
  · exact ⟨step_of_tree holds.1.1.amid rfl rfl rfl rfl,
      ⟨⟨holds.1.1.amid, holds.1.1.template, holds.1.1.own⟩, holds.1.2⟩, holds.2⟩

/-! ## The lines -/

/-- What is known when some lines have been written behind what was there. -/
def Lined (site : Site) (assignment : Assignment) (content : Bytes)
    (rendered : Except Utf8.DecodeError Bytes) (written : Bytes) : Except Failure Unit → Assertion
  | .ok () => fun scene => ∃ octets, rendered = .ok octets ∧
      site.Settled assignment content (some (written ++ octets)) scene
  | .error failure => fun scene => ((∃ own, site.Settled assignment content own scene) ∧
      (failure = .cancelled → scene.stopping = true)) ∧ (failure ≠ .cancelled →
        ∃ e, rendered = .error e ∧ failure = .io site.template (.lineNotText e))

theorem secure_writeLines (placed : site.Placed assignment destination) {location : Location}
    (landed : site.ready.landing (Destination.temporary destination assignment.index) =
      .ok location) (items : List (Except Utf8.DecodeError Template.Line)) (written : Bytes) :
    (Run.writeLines site.template assignment.row
        (Destination.temporary destination assignment.index) items).Secure
      (site.Relied assignment) (site.Step assignment)
      (site.Lined assignment content (Template.renderLines assignment.row items) written)
      (site.Settled assignment content (some written)) := by
  refine (Task.Secure.writeLines (fun written => site.Settled assignment content (some written))
    (fun failure scene => (∃ own, site.Settled assignment content own scene) ∧
      failure = .cancelled ∧ scene.stopping = true) (fun written => ?_)
    (fun written line => ?_) items written).weaken fun result scene told => ?_
  · exact (secure_isCancelled (Settled.steady placed content _) fun _ settled =>
      settled.1.amid).weaken fun _ _ asked => ⟨asked.1, fun yes => ⟨⟨_, asked.1⟩, rfl, asked.2 yes⟩⟩
  · exact (secure_append placed _ landed).of_ok fun _ settled => settled
  · cases result with
    | ok _ => exact told
    | error failure =>
      obtain ⟨own, rfl, stopping⟩ | ⟨e, more, rendered, rfl, settled⟩ := told
      · exact ⟨⟨own, fun _ => stopping⟩, fun other => absurd rfl other⟩
      · exact ⟨⟨⟨_, settled⟩, nofun⟩, fun _ => ⟨e, rendered, rfl⟩⟩

/-! ## The whole file -/

/-- What is known when a row's file has been written. -/
def Written (site : Site) (assignment : Assignment) (content : Bytes)
    (drafted : Except Failure Bytes) : Except Failure Unit → Assertion
  | .ok () => fun scene => ∃ octets, drafted = .ok octets ∧
      site.Settled assignment content (some octets) scene
  | .error failure => fun scene => ((∃ own, site.Settled assignment content own scene) ∧
      (failure = .cancelled → scene.stopping = true)) ∧
      (failure ≠ .cancelled → drafted = .error failure)

/-- Nothing happens to the template file, so it is found as long as the run goes on. -/
theorem find_template (grounded : site.Grounded) {scene : Scene}
    (knows : site.Knows assignment content own scene) :
    scene.tree.find site.template = .ok (site.mark, .file content) :=
  FileTree.find_of_target (FileTree.target_mono knows.amid.base knows.amid.kept grounded.target)
    knows.template

theorem secure_writeTemporary (placed : site.Placed assignment destination) :
    (Run.writeTemporary site.template assignment.row
        (Destination.temporary destination assignment.index)).Secure
      (site.Relied assignment) (site.Step assignment)
      (site.Written assignment content (site.draft assignment.row
        (Destination.temporary destination assignment.index) content))
      (site.Settled assignment content own) := by
  have looked : (Task.kind site.template).Secure (site.Relied assignment) (site.Step assignment)
      (fun reply scene => site.Settled assignment content own scene ∧ reply = .ok .file)
      (site.Settled assignment content own) := by
    refine secure_kind (fun _ => ?_) fun scene settled => ⟨settled.1.amid, settled, ?_⟩
    · exact (Settled.steady placed content own).and fun _ _ _ same => same
    · rw [FileTree.kind, find_template placed.grounded settled.1]
      rfl
  have opened : (Task.read site.template).Secure (site.Relied assignment) (site.Step assignment)
      (fun reply scene => site.Settled assignment content (some []) scene ∧ reply = .ok content)
      (site.Settled assignment content (some [])) := by
    refine secure_read (fun _ => ?_) fun scene settled => ⟨settled.1.amid, settled, ?_⟩
    · exact (Settled.steady placed content _).and fun _ _ _ same => same
    · rw [FileTree.read, find_template placed.grounded settled.1]
  refine .writeTemporary (site.Settled assignment content own)
    (fun scene => site.Settled assignment content (some []) scene ∧ ∃ location,
      site.ready.landing (Destination.temporary destination assignment.index) = .ok location)
    (fun read scene => (site.Settled assignment content (some []) scene ∧ read = content) ∧
      ∃ location,
        site.ready.landing (Destination.temporary destination assignment.index) = .ok location)
    (looked.of_ok fun _ settled => settled)
    ((secure_create placed).either (fun _ scene told => ?_) fun fault scene told => ?_)
    (.assuming fun lands => opened.of_ok fun _ settled => ⟨⟨settled, rfl⟩, lands⟩)
    fun read => .assuming fun lands => .assuming ?_
  · cases landed : site.ready.landing (Destination.temporary destination assignment.index) with
    | ok location =>
      rw [landed] at told
      exact ⟨told.1, location, rfl⟩
    | error fault =>
      rw [landed] at told
      cases told.2
  · cases landed : site.ready.landing (Destination.temporary destination assignment.index) with
    | ok location =>
      rw [landed] at told
      cases told.2
    | error other =>
      rw [landed] at told
      obtain ⟨settled, ⟨⟩⟩ := told
      refine ⟨⟨⟨own, settled⟩, ?_⟩, fun _ => by simp only [draft, landed]⟩
      rintro ⟨⟩
  · rintro rfl
    obtain ⟨location, landed⟩ := lands
    refine (secure_writeLines placed landed _ []).weaken fun result scene holds => ?_
    cases result with
    | ok _ =>
      obtain ⟨octets, rendered, settled⟩ := holds
      refine ⟨octets, ?_, settled⟩
      simp only [draft, landed, Template.render, rendered]
    | error failure =>
      refine ⟨holds.1, fun other => ?_⟩
      obtain ⟨e, rendered, rfl⟩ := holds.2 other
      simp only [draft, landed, Template.render, rendered]

/-! ## The work of a row -/

theorem goal_of_written (placed : site.Placed assignment destination) {octets : Bytes}
    (drafted : site.draft assignment.row (Destination.temporary destination assignment.index)
      content = .ok octets) {scene : Scene}
    (settled : site.Settled assignment content (some octets) scene) :
    site.Goal assignment (.ok ⟨Destination.temporary destination assignment.index, destination⟩)
      scene := by
  cases landed : site.ready.landing (Destination.temporary destination assignment.index) with
  | error fault => simp [draft, landed] at drafted
  | ok location =>
    have there := FileTree.target_of_find (find_temporary placed settled landed)
    exact ⟨destination, location, content, octets, placed.chosen, rfl, settled.2, landed, there.2,
      settled.1.template, drafted⟩

theorem goal_of_failure (placed : site.Placed assignment destination) {failure : Failure}
    (drafted : failure ≠ .cancelled → site.draft assignment.row
      (Destination.temporary destination assignment.index) content = .error failure) {scene : Scene}
    (settled : site.Settled assignment content none scene)
    (stopping : failure = .cancelled → scene.stopping = true) :
    site.Goal assignment (.error failure) scene := by
  refine ⟨settled.1.own, ?_⟩
  by_cases cancelled : failure = .cancelled
  · exact .inl ⟨cancelled, stopping cancelled⟩
  · refine .inr ⟨cancelled, ?_⟩
    exact .undrafted placed.chosen (settled.1.amid.reached_ready settled.2) settled.1.template
      (drafted cancelled)

theorem secure_stage (placed : site.Placed assignment destination) :
    (Run.stage site.template assignment.row destination assignment.index).Secure
      (site.Relied assignment) (site.Step assignment) (site.Goal assignment)
      (site.Knows assignment content none) := by
  have housed : (Run.ensureDirectory destination).Secure (site.Relied assignment)
      (site.Step assignment) (.either (fun _ => site.Settled assignment content none)
        fun failure => site.Goal assignment (.error failure))
      (site.Knows assignment content none) := by
    refine (secure_ensureDirectory_of_destination placed).either (fun _ _ settled => settled) ?_
    rintro failure scene ⟨knows, other, rejected⟩
    exact ⟨knows.own, .inr ⟨other, knows.template ▸ rejected⟩⟩
  refine .stage housed (secure_writeTemporary placed) ?_ fun failure => ?_
  · rintro scene ⟨octets, drafted, settled⟩
    exact goal_of_written placed drafted settled
  · refine .assuming fun drafted => ?_
    exact (secure_removeTemporary placed).weaken fun _ _ holds =>
      goal_of_failure placed drafted holds.1 holds.2

theorem secure_stagePlanned_of_placed (placed : site.Placed assignment destination) :
    (Run.stagePlanned site.template assignment.row assignment.destination assignment.index).Secure
      (site.Relied assignment) (site.Step assignment) (site.Goal assignment)
      (site.Knows assignment content none) := by
  refine .stagePlanned ((secure_isCancelled (Knows.steady placed content none) fun _ knows =>
      knows.amid).weaken fun _ _ asked =>
        ⟨asked.1, fun yes => ⟨asked.1.own, .inl ⟨rfl, asked.2 yes⟩⟩⟩)
    (fun failure failed => nomatch placed.chosen.symm.trans failed) fun other chosen => ?_
  obtain rfl := Except.ok.inj (placed.chosen.symm.trans chosen)
  exact secure_stage placed

/-- A row without destination fails at once. -/
theorem secure_stagePlanned_of_unplanned {failure : Failure}
    (failed : assignment.destination = .error failure) (other : failure ≠ .cancelled) :
    (Run.stagePlanned site.template assignment.row assignment.destination assignment.index).Secure
      (site.Relied assignment) (site.Step assignment) (site.Goal assignment)
      fun scene => site.Amid scene.tree := by
  have none : site.spot? assignment = none := by rw [spot?, failed]
  have steady : Assertion.Steady (site.Relied assignment) fun scene => site.Amid scene.tree :=
    fun _ _ relied _ => relied.amid
  refine .stagePlanned ((secure_isCancelled steady fun _ amid => amid).weaken fun _ _ asked =>
      ⟨asked.1, fun yes => ⟨by simp [none], .inl ⟨rfl, asked.2 yes⟩⟩⟩) ?_ ?_
  · intro reason failed' scene _
    obtain rfl := Except.error.inj (failed.symm.trans failed')
    exact ⟨by simp [none], .inr ⟨other, .unplanned failed⟩⟩
  · intro destination chosen
    simp [failed] at chosen

/-- A row that has not begun is on its way to its goal, whatever other rows do. -/
theorem held_pending (grounded : site.Grounded) (fits : site.Fits assignment) {scene : Scene}
    (amid : site.Amid scene.tree)
    (own : ∀ location, site.spot? assignment = some location →
      scene.tree.content? location = none) :
    site.terms.Held assignment (assignment.pending site.template).work scene := by
  cases chosen : assignment.destination with
  | ok destination =>
    have placed : site.Placed assignment destination := ⟨grounded, fits, chosen⟩
    obtain ⟨content, template⟩ := Option.ne_none_iff_exists'.1 (amid.files _ grounded.content)
    exact ⟨site.Knows assignment content none, Knows.steady placed content none,
      ⟨amid, template, own⟩, secure_stagePlanned_of_placed placed⟩
  | error failure =>
    exact ⟨fun scene => site.Amid scene.tree, fun _ _ relied _ => relied.amid, amid,
      secure_stagePlanned_of_unplanned chosen (fits.failure failure chosen)⟩

end Site

end MailMerge
