import MailMerge.Proofs.Naming
import MailMerge.Proofs.Run.Reports

/-!
# Rows with the same name

When names come from the rows, the files of two rows are the same exactly if the rows have the same
name, character by character: all files are entries of one directory, with the extension of one
template, and a name is a single component (`Request.mem_sharers_iff_names`).

If later rows must not replace files, a row that repeats a destination is refused in favour of the
first one to go there, and no two files of a run have the same destination
(`Request.plan_duplicates`).  Rows that fail are in nobody's way.
-/

namespace MailMerge

open Run (Schedule)

set_option autoImplicit false

namespace Destination

theorem withExtension_inj {template : Path} {left right : Bytes} :
    withExtension template left = withExtension template right ↔ left = right := by
  rw [withExtension_eq, withExtension_eq, List.append_cancel_right_eq]

end Destination

namespace Request

variable {request : Request} {index : Nat} {path : Path} {name : String}

/-! ## Names -/

/-- The row at an index has a name, in the first field that may hold one or else in the second. -/
def Names (request : Request) (index : Nat) (name : String) : Prop :=
  ∃ row, request.rows[index]? = some row ∧
    (row.get? "FileName").or (row.get? "Dateiname") = some name

theorem Names.unique {other : String} (names : request.Names index name)
    (names' : request.Names index other) : name = other := by
  obtain ⟨row, here, chosen⟩ := names
  obtain ⟨row', here', chosen'⟩ := names'
  obtain rfl := Option.some.inj (here.symm.trans here')
  exact Option.some.inj (chosen.symm.trans chosen')

theorem exists_names_of_goes (naming : request.naming = .fromRecord)
    (goes : request.Goes index path) :
    ∃ name, request.Names index name ∧ path.components = request.directory.components ++
      [.name (Destination.withExtension request.template (utf8 name))] := by
  obtain ⟨row, here, resolved⟩ := goes
  rw [resolve, naming] at resolved
  obtain ⟨name, chosen, plain, rfl⟩ := Destination.exists_chosen_of_resolve resolved
  rw [Destination.chosenName?_eq] at chosen
  exact ⟨name, ⟨row, here, chosen⟩,
    Path.components_join _ (Destination.isPlain_withExtension plain)⟩

/-- When names come from the rows, two rows share a destination exactly if they have the same name. -/
theorem mem_sharers_iff_names (naming : request.naming = .fromRecord)
    (goes : request.Goes index path) :
    ∃ name, request.Names index name ∧ ∀ earlier, earlier ∈ request.sharers path ↔
      (∃ other, request.Goes earlier other) ∧ request.Names earlier name := by
  obtain ⟨name, names, components⟩ := exists_names_of_goes naming goes
  refine ⟨name, names, ?_⟩
  intro earlier
  constructor
  · rintro ⟨other, goes', same⟩
    obtain ⟨name', names', components'⟩ := exists_names_of_goes naming goes'
    refine ⟨⟨other, goes'⟩, ?_⟩
    rw [components, components', List.append_cancel_left_eq] at same
    have octets := Path.Component.name.inj (List.cons.inj same).1
    rwa [← utf8_inj.1 (Destination.withExtension_inj.1 octets)]
  · rintro ⟨⟨other, goes'⟩, names'⟩
    obtain ⟨name', names'', components'⟩ := exists_names_of_goes naming goes'
    obtain rfl := names'.unique names''
    exact ⟨other, goes', components'.trans components.symm⟩

/-! ## Files -/

/-- If later rows must not replace files, no two rows are planned to go to the same place. -/
theorem components_ne_of_planned {earlier later : Nat} {other : Path}
    (policy : request.duplicatePolicy = .error) (before : earlier < later)
    (here : request.plan.destinations[earlier]? = some (.ok path))
    (there : request.plan.destinations[later]? = some (.ok other)) :
    path.components ≠ other.components := by
  intro same
  obtain ⟨_, unshared⟩ := getElem?_plan_ok_iff.1 there
  exact unshared policy earlier before ⟨path, (getElem?_plan_ok_iff.1 here).1, same⟩

end Request

/-- If later rows must not replace files, no two files of a run have the same destination. -/
theorem Run.pairwise_outcomes {request : Request} {schedule : Schedule} {world : World}
    {report : Report} (policy : request.duplicatePolicy = .error)
    (ok : ((process schedule request).run world).1 = .ok report) :
    report.outcomes.Pairwise fun left right => ∀ path other,
      left.result = .ok path → right.result = .ok other → path.components ≠ other.components := by
  have planned {position : Nat} {outcome : Outcome} {path : Path}
      (found : report.outcomes[position]? = some outcome) (generated : outcome.result = .ok path) :
      request.plan.destinations[position]? = some (.ok path) := by
    obtain ⟨index, result⟩ := outcome
    obtain rfl : index = position := (shape_of_process ok).indices _ _ found
    obtain rfl : result = .ok path := generated
    exact plan_of_outcome ok found
  rw [List.pairwise_iff_getElem]
  intro earlier later inside inside' before path other generated generated'
  exact Request.components_ne_of_planned policy before
    (planned (List.getElem?_eq_getElem inside) generated)
    (planned (List.getElem?_eq_getElem inside') generated')

/-- Repeated destinations are found exactly.  When names come from the rows, rows that resolve share
their destination if and only if they have the same name.  If later rows must not replace files, a row
is refused exactly because of the first of several rows that go to the same place, every other row
that resolves keeps its destination, and no two files are generated at the same one; otherwise every
row that resolves keeps its destination.  Rows are run one at a time where two of them share a
destination, and otherwise as many together as was asked for. -/
theorem Request.plan_duplicates (request : Request) :
    (request.naming = .fromRecord → ∀ index path, request.Goes index path →
      ∃ name, request.Names index name ∧ ∀ earlier, earlier ∈ request.sharers path ↔
        (∃ other, request.Goes earlier other) ∧ request.Names earlier name) ∧
    (request.duplicatePolicy = .error →
      (∀ index path first later, request.plan.destinations[index]? =
          some (.error (.duplicateDestination path first later)) ↔
        later = index ∧ request.Goes index path ∧ IsLeast (request.sharers path) first ∧
          first < index) ∧
      (∀ index path, request.plan.destinations[index]? = some (.ok path) ↔
        request.Goes index path ∧ ∀ earlier < index, earlier ∉ request.sharers path) ∧
      ∀ schedule world report, ((Run.process schedule request).run world).1 = .ok report →
        report.outcomes.Pairwise fun left right => ∀ path other, left.result = .ok path →
          right.result = .ok other → path.components ≠ other.components) ∧
    (request.duplicatePolicy = .overwrite → ∀ index path,
      request.plan.destinations[index]? = some (.ok path) ↔ request.Goes index path) ∧
    (request.Shares → request.width = 1) ∧
    (¬ request.Shares → request.width = max request.concurrency 1) := by
  refine ⟨?_, ?_, ?_, width_of_shares, width_of_distinct⟩
  · intro naming index path goes
    exact mem_sharers_iff_names naming goes
  · intro error
    refine ⟨?_, ?_, ?_⟩
    · intro index path first later
      rw [getElem?_plan_duplicate_iff, and_iff_right error]
      apply and_congr_right'
      constructor
      · rintro ⟨goes, least, before⟩
        exact ⟨goes, least, before⟩
      · rintro ⟨goes, least, before⟩
        exact ⟨goes, least, before⟩
    · intro index path
      rw [getElem?_plan_ok_iff, forall_prop_of_true error]
    · intro schedule world report ok
      exact Run.pairwise_outcomes error ok
  · intro overwrite index path
    rw [getElem?_plan_ok_iff]
    simp [overwrite]

/-- A request to fill the pattern with rows of the given names, four at a time. -/
def Request.crowd (names : List String) (policy : DuplicatePolicy) : Request where
  template := ⟨utf8 "pattern"⟩
  rows := names.map fun name => .named name "x"
  duplicatePolicy := policy
  concurrency := 4

/-- Three rows with one name and two with another, mixed with rows that fail. -/
theorem Request.plan_duplicates_crowd :
    (Request.crowd ["", "a", "b", "..", "a", "b", "a"] .error).Repeats 6 ⟨utf8 "a"⟩ 1 ∧
      (∃ name, (Request.crowd ["", "a", "b", "..", "a", "b", "a"] .error).Names 6 name ∧
        (Request.crowd ["", "a", "b", "..", "a", "b", "a"] .error).Names 1 name) ∧
      (Request.crowd ["", "a", "b", "..", "a", "b", "a"] .error).width = 1 ∧
      (Request.crowd ["a", "", "b"] .error).width = 4 ∧
      (Request.crowd ["", "a", "a"] .overwrite).Goes 2 ⟨utf8 "a"⟩ ∧
      ∃ report, ((Run.process [.advance 0] (.crowd ["a", "", "a"] .error)).run .pattern).1 =
          .ok report ∧
        report.outcomes.Pairwise fun left right => ∀ path other, left.result = .ok path →
          right.result = .ok other → path.components ≠ other.components := by
  obtain ⟨names, refused, -, alone, -⟩ :=
    plan_duplicates (.crowd ["", "a", "b", "..", "a", "b", "a"] .error)
  obtain ⟨-, goes, least, before⟩ :=
    ((refused rfl).1 6 ⟨utf8 "a"⟩ 1 6).1 (by decide +kernel)
  obtain ⟨name, named, sharing⟩ := names rfl 6 _ goes
  refine ⟨⟨goes, least, before⟩, ⟨name, named, ((sharing 1).1 least.1).2⟩,
    alone ⟨1, 6, _, before, goes, least.1⟩, ?_, ?_, ?_⟩
  · refine (plan_duplicates (.crowd ["a", "", "b"] .error)).2.2.2.2 ?_
    exact repetitions_eq_nil_iff.1 (by decide +kernel)
  · exact ((plan_duplicates (.crowd ["", "a", "a"] .overwrite)).2.2.1 rfl 2 _).1 (by decide +kernel)
  · have ok : ((Run.process [.advance 0] (.crowd ["a", "", "a"] .error)).run .pattern).1 =
        .ok ⟨[⟨0, .ok ⟨utf8 "a"⟩⟩, ⟨1, .error (.invalidName "" .empty)⟩,
          ⟨2, .error (.duplicateDestination ⟨utf8 "a"⟩ 0 2)⟩], false⟩ := by decide +kernel
    exact ⟨_, ok, ((plan_duplicates (.crowd ["a", "", "a"] .error)).2.1 rfl).2.2 _ _ _ ok⟩

end MailMerge
