import MailMerge.Proofs.Template.Turns
import MailMerge.Proofs.Text.Order

/-!
# The fields in ascending order

A row is made from pairs in whatever order they come, and of pairs with the same name the last one
counts.  What it makes of a line depends on nothing else: the fields are applied in the order of the
octets of their names, each in a pass of its own from left to right (`substitute_ofPairs`).  Neither the
early return for a line without an opening pair of braces nor the search for a token before it is
replaced has any influence on the result.

So a value may bring tokens into a line, and these are replaced by the fields whose names are greater
than that of the value, and by no others (`substitute_placeholder`): all fields up to this one have had
their turn by then, so that even the value's own token stays.
-/

namespace MailMerge.Template

set_option autoImplicit false

/-! ## Names in order -/

/-- The names of the fields of a row ascend as octets do. -/
theorem octets_ascending (row : Row) :
    row.fields.Pairwise fun left right => utf8 left.1 < utf8 right.1 :=
  row.ascending.imp utf8_lt_iff.2

/-- The fields that some pairs come down to: the names that occur, in ascending order of their octets,
each with the value of the last pair that has it. -/
structure Tabulates (fields pairs : List (String × String)) : Prop where
  ascending : fields.Pairwise fun left right => utf8 left.1 < utf8 right.1
  lastValues : ∀ name value, (name, value) ∈ fields ↔ pairs.reverse.lookup name = some value

/-- The fields of a row from pairs are what the pairs come down to. -/
theorem tabulates_ofPairs (pairs : List (String × String)) :
    Tabulates (Row.ofPairs pairs).fields pairs where
  ascending := octets_ascending _
  lastValues name value := by rw [Row.mem_fields, Row.get?_ofPairs_last]

/-- Pairs come down to one list of fields only. -/
theorem Tabulates.unique {fields others pairs : List (String × String)}
    (left : Tabulates fields pairs) (right : Tabulates others pairs) : fields = others := by
  refine Row.eq_of_mem_iff (left.ascending.imp utf8_lt_iff.1) (right.ascending.imp utf8_lt_iff.1) ?_
  intro field
  rw [left.lastValues, right.lastValues]

/-! ## Shortcuts -/

/-- The early return left out. -/
theorem foldl_applyField (row : Row) (text : List Char) :
    row.fields.foldl applyField text = fill row text := by
  have apply : applyField = replaceField := by
    funext text field
    exact applyField_eq text field
  rw [apply, fill_eq]

/-- The search before each replacement left out. -/
theorem ite_foldl_replaceField (row : Row) (text : List Char) :
    (if occursIn ['{', '{'] text then row.fields.foldl replaceField text else text) =
      fill row text := by
  rw [fill_eq]
  split
  · rfl
  case isFalse absent =>
    exact (foldl_replaceField_of_absent fun inside => absent (occursIn_iff.2 inside)).symm

/-- A row from pairs is applied to a line as the pairs tell it: the distinct names have their turns in
ascending order of their octets, and at the turn of a name one pass from left to right replaces its
tokens by the value of its last pair.  The pairs may be rearranged as long as those of the same name
keep their order, hence at will if no two have the same name.  The result is the same with only one of
the two shortcuts. -/
theorem substitute_ofPairs (pairs : List (String × String)) (line : String) :
    (∃ fields, Tabulates fields pairs) ∧
    (∀ fields, Tabulates fields pairs →
      substitute (.ofPairs pairs) line = .ofList (fields.foldl replaceField line.toList)) ∧
    (∀ (field : String × String) (text result : List Char),
      Filled [field] text result ↔ result = replaceField text field) ∧
    (∀ others, (∀ name, (others.filter fun pair => pair.1 == name) =
        pairs.filter fun pair => pair.1 == name) →
      substitute (.ofPairs others) line = substitute (.ofPairs pairs) line) ∧
    (∀ others, others.Perm pairs → (pairs.map Prod.fst).Nodup →
      substitute (.ofPairs others) line = substitute (.ofPairs pairs) line) ∧
    .ofList ((Row.ofPairs pairs).fields.foldl applyField line.toList) =
      substitute (.ofPairs pairs) line ∧
    .ofList (if occursIn ['{', '{'] line.toList then
        (Row.ofPairs pairs).fields.foldl replaceField line.toList else line.toList) =
      substitute (.ofPairs pairs) line := by
  have own := tabulates_ofPairs pairs
  refine ⟨⟨_, own⟩, ?_, fun _ _ _ => filled_singleton, ?_, ?_, ?_, ?_⟩
  · intro fields tabulated
    rw [tabulated.unique own, substitute, fill_eq]
  · intro others same
    rw [Row.ofPairs_congr same]
  · intro others arranged distinct
    rw [Row.ofPairs_perm arranged distinct]
  · rw [foldl_applyField, substitute]
  · rw [ite_foldl_replaceField, substitute]

/-- The first pair of the name `b` is of no account, and the value of the last one is expanded because
the name of its token begins with a greater octet. -/
theorem substitute_ofPairs_rearranged :
    Tabulates [("b", "{{é}}"), ("é", "y")] [("é", "y"), ("b", "x"), ("b", "{{é}}")] ∧
    substitute (.ofPairs [("é", "y"), ("b", "x"), ("b", "{{é}}")]) "{{é}}{{b}}" = "yy" ∧
    substitute (.ofPairs [("b", "x"), ("é", "y"), ("b", "{{é}}")]) "{{é}}{{b}}" =
      substitute (.ofPairs [("é", "y"), ("b", "x"), ("b", "{{é}}")]) "{{é}}{{b}}" ∧
    substitute (.ofPairs [("b", "{{é}}"), ("é", "y")]) "{{é}}{{b}}" =
      substitute (.ofPairs [("é", "y"), ("b", "{{é}}")]) "{{é}}{{b}}" := by
  have tabulated : Tabulates [("b", "{{é}}"), ("é", "y")]
      [("é", "y"), ("b", "x"), ("b", "{{é}}")] := by
    have fields : (Row.ofPairs [("é", "y"), ("b", "x"), ("b", "{{é}}")]).fields =
        [("b", "{{é}}"), ("é", "y")] := by decide +kernel
    exact fields ▸ tabulates_ofPairs _
  have same : ∀ name, ([("b", "x"), ("é", "y"), ("b", "{{é}}")].filter fun pair => pair.1 == name) =
      [("é", "y"), ("b", "x"), ("b", "{{é}}")].filter fun pair => pair.1 == name := by
    intro name
    by_cases here : "b" = name
    · subst here
      decide
    · simp [List.filter_cons, here]
  obtain ⟨-, folded, -, rearranged, -⟩ :=
    substitute_ofPairs [("é", "y"), ("b", "x"), ("b", "{{é}}")] "{{é}}{{b}}"
  refine ⟨tabulated, (folded _ tabulated).trans (by decide +kernel), rearranged _ same, ?_⟩
  exact (substitute_ofPairs [("é", "y"), ("b", "{{é}}")] "{{é}}{{b}}").2.2.2.2.1 _
    (by decide) (by decide)

/-! ## Values that bring tokens -/

/-- The placeholder of a name without braces gives way to the name's value, in which the fields with
greater names are then replaced in ascending order.  If the value has no token of a greater name it
stays as it is, whatever other tokens it has, be it the one of the name itself. -/
theorem substitute_placeholder {row : Row} {name value : String} (unbraced : Unbraced name)
    (known : row.get? name = some value) :
    (row.fields.Pairwise fun left right => utf8 left.1 < utf8 right.1) ∧
    substitute row (placeholder name) = .ofList
      ((row.fields.filter fun field => utf8 name < utf8 field.1).foldl replaceField value.toList) ∧
    ((∀ field ∈ row.fields, utf8 name < utf8 field.1 →
        ¬ token field.1.toList <:+: value.toList) →
      substitute row (placeholder name) = value) := by
  obtain ⟨earlier, later, fields, below, above⟩ := Row.fields_around known
  -- up to its own turn the token of the name is untouched, because it has no other token in it
  have untouched : earlier.foldl replaceField (token name.toList) = token name.toList := by
    refine foldl_replaceField_of_settled fun field member inside => ?_
    exact String.ne_of_lt (below field member) (eq_of_token_within unbraced inside)
  have own : replaceField (token name.toList) (name, value) = value.toList := by
    have whole := replaceAll_append (token_ne_nil name.toList) value.toList []
    simpa [replaceField] using whole
  have greater : (row.fields.filter fun field => utf8 name < utf8 field.1) = later := by
    have none : (earlier.filter fun field => utf8 name < utf8 field.1) = [] := by
      refine List.filter_eq_nil_iff.2 fun field member => ?_
      simpa [utf8_lt_iff] using String.lt_asymm (below field member)
    have all : (later.filter fun field => utf8 name < utf8 field.1) = later := by
      refine List.filter_eq_self.2 fun field member => ?_
      simpa [utf8_lt_iff] using above field member
    rw [fields, List.filter_append, none, List.filter_cons_of_neg (by simp), all, List.nil_append]
  have expanded : substitute row (placeholder name) =
      .ofList (later.foldl replaceField value.toList) := by
    rw [substitute, placeholder, String.toList_ofList, fill_eq, fields, List.foldl_append,
      List.foldl_cons, untouched, own]
  refine ⟨octets_ascending row, by rw [expanded, greater], fun absent => ?_⟩
  have settled : Settled later value.toList := by
    intro field member
    refine absent field ?_ (utf8_lt_iff.2 (above field member))
    rw [fields]
    exact List.mem_append_right _ (List.mem_cons_of_mem _ member)
  rw [expanded, foldl_replaceField_of_settled settled, String.ofList_toList]

/-- A value with its own token, that of a lesser name and that of a greater one, whose value brings a
token of a greater name still; and a name with braces in it. -/
theorem substitute_placeholder_chain :
    Unbraced "b" ∧
    (Row.ofPairs [("a", "x"), ("b", "{{a}}{{b}}{{c}}"), ("c", "{{b}}{{d}}"), ("d", "y"),
      ("\x7bb", "z")]).get? "b" = some "{{a}}{{b}}{{c}}" ∧
    substitute (.ofPairs [("a", "x"), ("b", "{{a}}{{b}}{{c}}"), ("c", "{{b}}{{d}}"), ("d", "y"),
      ("\x7bb", "z")]) (placeholder "b") = "{{a}}{{b}}{{b}}y" := by
  have known : (Row.ofPairs [("a", "x"), ("b", "{{a}}{{b}}{{c}}"), ("c", "{{b}}{{d}}"), ("d", "y"),
      ("\x7bb", "z")]).get? "b" = some "{{a}}{{b}}{{c}}" := by decide +kernel
  refine ⟨by decide +kernel, known, ?_⟩
  exact (substitute_placeholder (by decide +kernel) known).2.1.trans (by decide +kernel)

end MailMerge.Template
