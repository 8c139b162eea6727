import Mathlib.Data.List.Induction
import Mathlib.Data.List.Nodup
import Mathlib.Data.List.Perm.Basic
import Mathlib.Data.String.Basic
import MailMerge.Row

/-!
# What a row holds

A row is known by the values that it gives to names: two rows that give the same names the same values
are equal (`Row.eq_of_get?`), because both have their fields in ascending order.

A row that is made from pairs gives each name the value of the last pair that has it
(`Row.get?_ofPairs_last`).  So the order of the pairs matters only among pairs of the same name
(`Row.ofPairs_congr`), and not at all if no two pairs have the same name (`Row.ofPairs_perm`).
-/

namespace MailMerge

set_option autoImplicit false

variable {pairs others : List (String × String)} {name value : String}

/-! ## Looking up -/

/-- Where no name occurs twice, the value under a name is the one that stands beside it. -/
theorem lookup_eq_some_iff_mem (distinct : (pairs.map Prod.fst).Nodup) :
    pairs.lookup name = some value ↔ (name, value) ∈ pairs := by
  constructor
  · intro found
    obtain ⟨before, behind, rfl, -⟩ := List.lookup_eq_some_iff.1 found
    exact List.mem_append_right before List.mem_cons_self
  · intro member
    obtain ⟨before, behind, rfl⟩ := List.append_of_mem member
    refine List.lookup_eq_some_iff.2 ⟨before, behind, rfl, fun pair earlier => ?_⟩
    rw [List.map_append, List.map_cons] at distinct
    have apart := (List.nodup_append.1 distinct).2.2
    exact bne_iff_ne.2 (apart pair.1 (List.mem_map_of_mem earlier) name List.mem_cons_self).symm

/-- The value under a name depends only on the pairs with this name. -/
theorem lookup_filter_eq (pairs : List (String × String)) (name : String) :
    (pairs.filter fun pair => pair.1 == name).lookup name = pairs.lookup name := by
  induction pairs with
  | nil => rfl
  | cons pair pairs ih =>
    obtain ⟨key, content⟩ := pair
    by_cases same : key = name
    · simp [same]
    · have other : (name == key) = false := beq_eq_false_iff_ne.2 (Ne.symm same)
      rw [List.filter_cons_of_neg (by simpa using same), List.lookup_cons, other, ih]

namespace Row

/-! ## Rows as fields -/

theorem nodup_names (row : Row) : (row.fields.map Prod.fst).Nodup :=
  List.pairwise_map.2 (row.ascending.imp fun below => String.ne_of_lt below)

theorem mem_fields {row : Row} : (name, value) ∈ row.fields ↔ row.get? name = some value :=
  (lookup_eq_some_iff_mem row.nodup_names).symm

/-- Ascending fields are known by which fields they are. -/
theorem eq_of_mem_iff (left : pairs.Pairwise fun before behind => before.1 < behind.1)
    (right : others.Pairwise fun before behind => before.1 < behind.1)
    (same : ∀ field, field ∈ pairs ↔ field ∈ others) : pairs = others := by
  have distinct : ∀ {fields : List (String × String)},
      (fields.Pairwise fun before behind => before.1 < behind.1) → fields.Nodup := by
    intro fields ascending
    exact ascending.imp fun below equal => String.ne_of_lt below (congrArg Prod.fst equal)
  have arranged := (List.perm_ext_iff_of_nodup (distinct left) (distinct right)).2 same
  refine arranged.eq_of_pairwise (fun _ _ _ _ below above => ?_) left right
  exact absurd above (String.lt_asymm below)

/-- A row is known by the values that it gives to names. -/
theorem eq_of_get? {left right : Row} (same : ∀ name, left.get? name = right.get? name) :
    left = right := by
  have fields : left.fields = right.fields := by
    refine eq_of_mem_iff left.ascending right.ascending fun field => ?_
    rw [mem_fields, mem_fields, same]
  cases left
  cases right
  congr

/-- The fields of a row around one of them: those before it have lesser names, those behind it greater
ones. -/
theorem fields_around {row : Row} (known : row.get? name = some value) :
    ∃ earlier later, row.fields = earlier ++ (name, value) :: later ∧
      (∀ field ∈ earlier, field.1 < name) ∧ ∀ field ∈ later, name < field.1 := by
  obtain ⟨earlier, later, fields⟩ := List.append_of_mem (mem_fields.2 known)
  have ascending := row.ascending
  rw [fields, List.pairwise_append, List.pairwise_cons] at ascending
  obtain ⟨-, ⟨above, -⟩, below⟩ := ascending
  exact ⟨earlier, later, fields, fun field member => below field member _ List.mem_cons_self, above⟩

/-! ## Rows from pairs -/

/-- A row from pairs gives each name the value of the last pair that has it. -/
theorem get?_ofPairs_last (pairs : List (String × String)) (name : String) :
    (ofPairs pairs).get? name = pairs.reverse.lookup name := by
  induction pairs using List.reverseRecOn with
  | nil => rfl
  | append_singleton pairs pair ih =>
    have step : ofPairs (pairs ++ [pair]) = (ofPairs pairs).insert pair.1 pair.2 :=
      List.foldl_concat _ _ _ _
    rw [step, get?_insert, List.reverse_concat, List.lookup_cons, ih]
    by_cases same : name = pair.1
    · simp [same]
    · simp [same, beq_eq_false_iff_ne.2 same]

/-- A row from pairs with distinct names has exactly these pairs. -/
theorem get?_ofPairs (distinct : (pairs.map Prod.fst).Nodup) (name value : String) :
    (ofPairs pairs).get? name = some value ↔ (name, value) ∈ pairs := by
  have turned : (pairs.reverse.map Prod.fst).Nodup := by
    rw [List.map_reverse]
    exact List.nodup_reverse.2 distinct
  rw [get?_ofPairs_last, lookup_eq_some_iff_mem turned, List.mem_reverse]

theorem fields_ofPairs_perm (distinct : (pairs.map Prod.fst).Nodup) :
    (ofPairs pairs).fields.Perm pairs := by
  refine (List.perm_ext_iff_of_nodup (nodup_names _).of_map distinct.of_map).2 fun field => ?_
  rw [mem_fields, get?_ofPairs distinct]

/-- Pairs may be rearranged if those of the same name stay in their order. -/
theorem ofPairs_congr (same : ∀ name, (others.filter fun pair => pair.1 == name) =
    pairs.filter fun pair => pair.1 == name) : ofPairs others = ofPairs pairs := by
  refine eq_of_get? fun name => ?_
  rw [get?_ofPairs_last, get?_ofPairs_last, ← lookup_filter_eq others.reverse,
    ← lookup_filter_eq pairs.reverse, List.filter_reverse, List.filter_reverse, same]

/-- Pairs with distinct names may be rearranged at will. -/
theorem ofPairs_perm (arranged : others.Perm pairs) (distinct : (pairs.map Prod.fst).Nodup) :
    ofPairs others = ofPairs pairs := by
  have distinct' : (others.map Prod.fst).Nodup := (arranged.map Prod.fst).nodup_iff.2 distinct
  refine eq_of_get? fun name => Option.ext fun value => ?_
  rw [get?_ofPairs distinct', get?_ofPairs distinct, arranged.mem_iff]

end Row

end MailMerge
