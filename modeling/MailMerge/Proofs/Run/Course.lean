import Mathlib.Logic.Function.Basic
import MailMerge.Proofs.Run.Terms

/-!
# The course of a run

What a run does to the regular files, told without any of its operations: one row after another is
settled, and each either fails and changes nothing or puts its file where its destination leads
(`Site.Settles`).  What becomes of a row depends on what the template holds by then and on nothing
else that the rows before it have done.

A course is determined by the rows and the files at its beginning, up to one thing
(`Course.unique`): when the directory cannot be made, and an attempt to make it leaves something
behind, the reason that is given to a row may differ (`Site.Alike`).
-/

namespace MailMerge

open Run (Assignment)

set_option autoImplicit false

namespace Site

/-- What becomes of a row when it is settled, and the regular files after that. -/
inductive Settles (site : Site) (assignment : Assignment) (files : Files) :
    Except Failure Path → Files → Prop where
  | failed {failure : Failure} : site.Rejected assignment (files site.mark) failure →
      Settles site assignment files (.error failure) files
  | blocked {destination : Path} {content octets : Bytes} {fault : Fault} :
      assignment.destination = .ok destination → site.Reached site.ready →
      files site.mark = some content →
      site.draft assignment.row (Destination.temporary destination assignment.index) content =
        .ok octets →
      site.ready.landing destination = .error fault →
      Settles site assignment files (.error (.io destination fault)) files
  | moved {destination : Path} {location : Location} {content octets : Bytes} :
      assignment.destination = .ok destination → site.Reached site.ready →
      files site.mark = some content →
      site.draft assignment.row (Destination.temporary destination assignment.index) content =
        .ok octets →
      site.ready.landing destination = .ok location →
      Settles site assignment files (.ok destination)
        (Function.update files location (some octets))

/-- Rows settled one after another, with their outcomes and the regular files at the end. -/
inductive Course (site : Site) : Files → List Assignment → List Outcome → Files → Prop where
  | nil {files : Files} : Course site files [] [] files
  | cons {first second last : Files} {assignment : Assignment} {rest : List Assignment}
      {result : Except Failure Path} {outcomes : List Outcome} :
      site.Settles assignment first result second → Course site second rest outcomes last →
      Course site first (assignment :: rest) (⟨assignment.index, result⟩ :: outcomes) last

/-- Results of a row that are the same, or both of them the failure to make a directory that cannot
be made, of which an attempt leaves something behind. -/
def Alike (site : Site) (left right : Except Failure Path) : Prop :=
  left = right ∨ ∃ path one two, site.needed? = some path ∧
    left = .error (.io path one) ∧ right = .error (.io path two) ∧
    site.ready.isDirectory path = false ∧
    ∃ location, site.ready.entry? location ≠ site.before.entry? location

variable {site : Site} {assignment : Assignment}

/-! ## One row -/

theorem Rejected.unique {template : Option Bytes} {left right : Failure}
    (first : site.Rejected assignment template left)
    (second : site.Rejected assignment template right) :
    site.Alike (.error left) (.error right) := by
  cases first with
  | unplanned failed =>
    cases second with
    | unplanned failed' =>
      obtain rfl := Except.error.inj (failed.symm.trans failed')
      exact .inl rfl
    | unreachable chosen => simp [failed] at chosen
    | undrafted chosen => simp [failed] at chosen
  | unreachable chosen needed missed refuses =>
    cases second with
    | unplanned failed => simp [failed] at chosen
    | unreachable chosen' needed' missed' refuses' =>
      obtain rfl := Option.some.inj (needed.symm.trans needed')
      by_cases same : ∀ location, site.ready.entry? location = site.before.entry? location
      · have one := refuses same
        rw [refuses' same] at one
        rw [Except.error.inj one]
        exact .inl rfl
      · refine .inr ⟨_, _, _, needed, rfl, rfl, missed, ?_⟩
        exact not_forall.1 same
    | undrafted _ reached => simp [reached _ needed] at missed
  | undrafted chosen reached template drafted =>
    cases second with
    | unplanned failed => simp [failed] at chosen
    | unreachable _ needed missed => simp [reached _ needed] at missed
    | undrafted chosen' _ template' drafted' =>
      obtain rfl := Except.ok.inj (chosen.symm.trans chosen')
      obtain rfl := Option.some.inj (template.symm.trans template')
      obtain rfl := Except.error.inj (drafted.symm.trans drafted')
      exact .inl rfl

/-- A row whose file is complete has not failed before. -/
theorem Rejected.not_drafted {template : Option Bytes} {failure : Failure} {destination : Path}
    {content octets : Bytes} (rejected : site.Rejected assignment template failure)
    (chosen : assignment.destination = .ok destination) (reached : site.Reached site.ready)
    (template? : template = some content)
    (drafted : site.draft assignment.row (Destination.temporary destination assignment.index)
      content = .ok octets) : False := by
  cases rejected with
  | unplanned failed => simp [chosen] at failed
  | unreachable _ needed missed => simp [reached _ needed] at missed
  | undrafted chosen' _ template' drafted' =>
    obtain rfl := Except.ok.inj (chosen.symm.trans chosen')
    obtain rfl := Option.some.inj (template?.symm.trans template')
    simp [drafted] at drafted'

/-- What becomes of a row is determined. -/
theorem Settles.unique {files left right : Files} {one two : Except Failure Path}
    (first : site.Settles assignment files one left)
    (second : site.Settles assignment files two right) : site.Alike one two ∧ left = right := by
  cases first with
  | failed rejected =>
    cases second with
    | failed rejected' => exact ⟨rejected.unique rejected', rfl⟩
    | blocked chosen reached template drafted =>
      exact (rejected.not_drafted chosen reached template drafted).elim
    | moved chosen reached template drafted =>
      exact (rejected.not_drafted chosen reached template drafted).elim
  | blocked chosen reached template drafted landed =>
    cases second with
    | failed rejected => exact (rejected.not_drafted chosen reached template drafted).elim
    | blocked chosen' _ _ _ landed' =>
      obtain rfl := Except.ok.inj (chosen.symm.trans chosen')
      obtain rfl := Except.error.inj (landed.symm.trans landed')
      exact ⟨.inl rfl, rfl⟩
    | moved chosen' _ _ _ landed' =>
      obtain rfl := Except.ok.inj (chosen.symm.trans chosen')
      simp [landed] at landed'
  | moved chosen reached template drafted landed =>
    cases second with
    | failed rejected => exact (rejected.not_drafted chosen reached template drafted).elim
    | blocked chosen' _ _ _ landed' =>
      obtain rfl := Except.ok.inj (chosen.symm.trans chosen')
      simp [landed] at landed'
    | moved chosen' _ template' drafted' landed' =>
      obtain rfl := Except.ok.inj (chosen.symm.trans chosen')
      obtain rfl := Option.some.inj (template.symm.trans template')
      obtain rfl := Except.ok.inj (drafted.symm.trans drafted')
      obtain rfl := Except.ok.inj (landed.symm.trans landed')
      exact ⟨.inl rfl, rfl⟩

/-- A row is generated at its destination. -/
theorem Settles.chosen {files later : Files} {path : Path}
    (settles : site.Settles assignment files (.ok path) later) :
    assignment.destination = .ok path := by
  cases settles with
  | moved chosen _ _ _ _ => exact chosen

/-- Where no file is moved to, nothing changes. -/
theorem Settles.eq_of_ne {files later : Files} {result : Except Failure Path}
    (settles : site.Settles assignment files result later) {location : Location}
    (elsewhere : ∀ path, result = .ok path → site.ready.landing path ≠ .ok location) :
    later location = files location := by
  cases settles with
  | failed _ => rfl
  | blocked _ _ _ _ _ => rfl
  | moved _ _ _ _ landed =>
    refine Function.update_of_ne ?_ _ _
    rintro rfl
    exact elsewhere _ rfl landed

/-! ## Many rows -/

theorem Course.snoc {first second last : Files} {assignments : List Assignment}
    {outcomes : List Outcome} {result : Except Failure Path}
    (course : site.Course first assignments outcomes second)
    (settles : site.Settles assignment second result last) :
    site.Course first (assignments ++ [assignment]) (outcomes ++ [⟨assignment.index, result⟩])
      last := by
  induction course with
  | nil => exact .cons settles .nil
  | cons here _ ih => exact .cons here (ih settles)

theorem Course.indices {first last : Files} {assignments : List Assignment}
    {outcomes : List Outcome} (course : site.Course first assignments outcomes last) :
    outcomes.map (·.index) = assignments.map (·.index) := by
  induction course with
  | nil => rfl
  | cons _ _ ih => rw [List.map_cons, List.map_cons, ih]

theorem Course.length_eq {first last : Files} {assignments : List Assignment}
    {outcomes : List Outcome} (course : site.Course first assignments outcomes last) :
    outcomes.length = assignments.length := by
  simpa using congrArg List.length course.indices

/-- Whatever is generated is generated at the destination of some row. -/
theorem Course.exists_chosen {first last : Files} {assignments : List Assignment}
    {outcomes : List Outcome} (course : site.Course first assignments outcomes last)
    {outcome : Outcome} (member : outcome ∈ outcomes) {path : Path}
    (ok : outcome.result = .ok path) :
    ∃ assignment ∈ assignments, assignment.destination = .ok path := by
  induction course with
  | nil => exact absurd member List.not_mem_nil
  | cons settles _ ih =>
    rcases List.mem_cons.1 member with rfl | later
    · obtain rfl := ok
      exact ⟨_, List.mem_cons_self, settles.chosen⟩
    · obtain ⟨assignment, inside, chosen⟩ := ih later
      exact ⟨assignment, List.mem_cons_of_mem _ inside, chosen⟩

/-- Outcomes of the same row with results that are alike. -/
def AlikeOutcomes (site : Site) (left right : Outcome) : Prop :=
  left.index = right.index ∧ site.Alike left.result right.result

/-- A course is determined by its rows and the files at its beginning. -/
theorem Course.unique {first left right : Files} {assignments : List Assignment}
    {one two : List Outcome} (here : site.Course first assignments one left)
    (there : site.Course first assignments two right) :
    List.Forall₂ site.AlikeOutcomes one two ∧ left = right := by
  induction here generalizing two with
  | nil =>
    cases there
    exact ⟨.nil, rfl⟩
  | cons settles _ ih =>
    cases there with
    | cons settles' rest' =>
      obtain ⟨alike, rfl⟩ := settles.unique settles'
      obtain ⟨outcomes, same⟩ := ih rest'
      exact ⟨.cons ⟨rfl, alike⟩ outcomes, same⟩

theorem Course.eq_of_ne {first last : Files} {assignments : List Assignment}
    {outcomes : List Outcome} (course : site.Course first assignments outcomes last)
    {location : Location} (elsewhere : ∀ outcome ∈ outcomes, ∀ path, outcome.result = .ok path →
      site.ready.landing path ≠ .ok location) : last location = first location := by
  induction course with
  | nil => rfl
  | cons settles _ ih =>
    rw [ih fun other member => elsewhere other (List.mem_cons_of_mem _ member)]
    exact settles.eq_of_ne (elsewhere _ List.mem_cons_self)

end Site

end MailMerge
