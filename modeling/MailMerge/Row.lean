/-!
# Rows

A row of a dataset gives each column name a value.  The names are distinct, and they are kept in
ascending order, which is the order in which the fields are later applied to a template line; two
rows are therefore equal exactly when they give the same names the same values.

The order is the one of the characters' code points, which is also the order of the octets of the
names.  `Row.get?_insert` says what adding a field does: it sets that field and touches no other.
-/

namespace MailMerge

set_option autoImplicit false

/-- The fields with one more added in its place, or replaced when the name is there already. -/
def insertField (name value : String) : List (String × String) → List (String × String)
  | [] => [(name, value)]
  | (n, v) :: rest =>
    if name < n then (name, value) :: (n, v) :: rest
    else if name = n then (name, value) :: rest
    else (n, v) :: insertField name value rest

theorem mem_insertField {name value : String} {fields : List (String × String)}
    {field : String × String} (member : field ∈ insertField name value fields) :
    field = (name, value) ∨ field ∈ fields := by
  induction fields with
  | nil => simpa [insertField] using member
  | cons first rest ih =>
    obtain ⟨n, v⟩ := first
    unfold insertField at member
    split at member
    · simpa using member
    · split at member
      · rcases List.mem_cons.1 member with here | later
        · exact .inl here
        · exact .inr (List.mem_cons_of_mem _ later)
      · rcases List.mem_cons.1 member with here | later
        · exact .inr (here ▸ List.mem_cons_self)
        · exact (ih later).imp_right (List.mem_cons_of_mem _)

theorem pairwise_insertField (name value : String) {fields : List (String × String)}
    (ascending : fields.Pairwise fun left right => left.1 < right.1) :
    (insertField name value fields).Pairwise fun left right => left.1 < right.1 := by
  induction fields with
  | nil => simp [insertField]
  | cons first rest ih =>
    obtain ⟨n, v⟩ := first
    obtain ⟨least, tail⟩ := List.pairwise_cons.1 ascending
    unfold insertField
    split
    case isTrue below =>
      refine List.pairwise_cons.2 ⟨fun field member => ?_, ascending⟩
      rcases List.mem_cons.1 member with rfl | later
      · exact below
      · exact String.lt_trans below (least field later)
    case isFalse notBelow =>
      split
      case isTrue same =>
        exact List.pairwise_cons.2 ⟨fun field member => same ▸ least field member, tail⟩
      case isFalse other =>
        refine List.pairwise_cons.2 ⟨fun field member => ?_, ih tail⟩
        rcases mem_insertField member with rfl | later
        · have : n ≤ name := String.not_lt.1 notBelow
          grind
        · exact least field later

/-- A row: values under distinct names, in ascending order of the names. -/
structure Row where
  /-- The names with their values. -/
  fields : List (String × String)
  /-- The names ascend, so none occurs twice. -/
  ascending : fields.Pairwise fun left right => left.1 < right.1
  deriving DecidableEq

namespace Row

/-- The row without fields. -/
def empty : Row := ⟨[], .nil⟩

/-- The row with one field set. -/
def insert (row : Row) (name value : String) : Row :=
  ⟨insertField name value row.fields, pairwise_insertField name value row.ascending⟩

/-- The row with the given fields, of which a later one replaces an earlier one of the same name. -/
def ofPairs (pairs : List (String × String)) : Row :=
  pairs.foldl (fun row pair => row.insert pair.1 pair.2) empty

/-- The row that gives each column of a header the value at the same position. -/
def ofHeader (header values : List String) : Row := ofPairs (header.zip values)

/-- The value under a name. -/
def get? (row : Row) (name : String) : Option String := row.fields.lookup name

/-- Whether the row has a field of this name. -/
def contains (row : Row) (name : String) : Bool := (row.get? name).isSome

/-- The names in ascending order. -/
def names (row : Row) : List String := row.fields.map Prod.fst

/-- The number of fields. -/
def size (row : Row) : Nat := row.fields.length

/-- Whether there is no field at all. -/
def isEmpty (row : Row) : Bool := row.fields.isEmpty

end Row

theorem lookup_insertField (name value other : String) {fields : List (String × String)} :
    (insertField name value fields).lookup other =
      if other = name then some value else fields.lookup other := by
  induction fields with
  | nil =>
    by_cases same : other = name
    · simp [insertField, same]
    · simp [insertField, List.lookup_cons, same, beq_eq_false_iff_ne.2 same]
  | cons first rest ih =>
    obtain ⟨n, v⟩ := first
    unfold insertField
    split
    · grind
    · split <;> grind

namespace Row

@[simp] theorem get?_empty (name : String) : empty.get? name = none := rfl

/-- Setting a field changes the value under its name and under no other. -/
theorem get?_insert (row : Row) (name value other : String) :
    (row.insert name value).get? other = if other = name then some value else row.get? other :=
  lookup_insertField name value other

end Row

end MailMerge
