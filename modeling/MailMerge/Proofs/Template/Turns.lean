import Mathlib.Data.List.TakeWhile
import MailMerge.Proofs.Template.OnePass
import MailMerge.Template.Line

/-!
# The turn of a field

The fields of a row take turns: each reads what the earlier ones have written.  A placeholder that
stands in a line before the first turn need therefore not stand there when it is its own field's turn.
If its name has no braces there is only one way to lose it: an earlier field, whose token has that of
the name in it, is replaced and takes it along.  Where this does not happen (`Spares`), the placeholder
gives way to its value at its own turn, and what stands on both sides of it is filled by itself up to
then (`Line.substitutes_of_spares`).

A token that is not taken along stays whole, whatever stands around it, because a token that ends
within the token of a name without braces ends where that one does (`eq_token_of_closed`), and one that
begins within it begins where that one does (`unopened_tail`).
-/

namespace MailMerge.Template

set_option autoImplicit false

/-! ## Tokens around a token -/

variable {name other : String} {front part rest : List Char}

/-- In the token of a name without closing braces there is one closing pair, at the end. -/
theorem eq_token_of_closed (closing : '}' ∉ name.toList) (starts : part <+: token name.toList)
    (closed : ['}', '}'] <:+ part) : part = token name.toList := by
  obtain ⟨opened, rfl⟩ := closed
  have absent : '}' ∉ '{' :: '{' :: name.toList := by simp [closing]
  have whole : token name.toList = '{' :: '{' :: name.toList ++ ['}'] ++ ['}'] := by simp [token]
  rw [whole, List.prefix_concat_iff] at starts
  rcases starts with same | starts
  · rw [same, whole]
  · exfalso
    refine absent ?_
    rcases List.prefix_concat_iff.1 starts with same | within
    · have twice : opened ++ ['}'] ++ ['}'] = '{' :: '{' :: name.toList ++ ['}'] := by simpa using same
      exact List.append_cancel_right twice ▸ List.mem_append_right _ List.mem_cons_self
    · exact within.subset (by simp)

/-- An end of a token that is also a beginning of a text with the token of a name goes beyond the
latter. -/
theorem token_prefix_of_suffix (closing : '}' ∉ name.toList) (nonempty : part ≠ [])
    (suffix : part <:+ token other.toList) (starts : part <+: token name.toList ++ rest) :
    token name.toList <+: part := by
  rcases List.prefix_or_prefix_of_prefix starts (List.prefix_append _ rest) with within | beyond
  case inr => exact beyond
  have pair : ['}', '}'] <:+ token other.toList := ⟨'{' :: '{' :: other.toList, rfl⟩
  -- both braces of the pair are in the part, since a single one is no beginning of a token
  rcases List.suffix_or_suffix_of_suffix pair suffix with closed | single
  · rw [eq_token_of_closed closing within closed]
  · exfalso
    obtain ⟨c, chars, rfl⟩ := List.exists_cons_of_ne_nil nonempty
    obtain ⟨rfl, -⟩ := List.cons_prefix_cons.1 within
    simpa using single.subset List.mem_cons_self

variable (unbraced : Unbraced name)

include unbraced

/-- A token that begins within that of a name without braces is one that goes beyond it. -/
theorem token_within_of_starts (nonempty : part ≠ []) (suffix : part <:+ token name.toList)
    (starts : token other.toList <+: part ++ rest) : token name.toList <:+: token other.toList := by
  rcases List.suffix_cons_iff.1 suffix with rfl | within
  · exact (token_prefix_of_suffix unbraced.2 (token_ne_nil _) (List.suffix_refl _) starts).isInfix
  · exact absurd ((opens_token _).trans starts) (unopened_tail unbraced rest part nonempty within)

/-- Within the token of a name without braces there is no other token. -/
theorem eq_of_token_within (inside : token other.toList <:+: token name.toList) : other = name := by
  have back : token name.toList <:+: token other.toList := by
    obtain ⟨before, behind, whole⟩ := inside
    rw [List.append_assoc] at whole
    have nonempty : token other.toList ++ behind ≠ [] := by simp [token]
    have starts : token other.toList <+: token other.toList ++ behind ++ [] :=
      ⟨behind, (List.append_nil _).symm⟩
    exact token_within_of_starts unbraced nonempty ⟨before, whole⟩ starts
  have same := inside.sublist.antisymm back.sublist
  exact String.toList_inj.1 (by simpa [token] using same)

/-- A field whose token does not have that of the name in it is applied on both sides of it. -/
theorem replaceField_beside {field : String × String}
    (apart : ¬ token name.toList <:+: token field.1.toList) (front rest : List Char) :
    replaceField (front ++ (token name.toList ++ rest)) field =
      replaceField front field ++ (token name.toList ++ replaceField rest field) := by
  have unspanned : Unspanned (token field.1.toList) front (token name.toList ++ rest) := by
    intro begun ended whole _ nonempty _ starts
    have suffix : ended <:+ token field.1.toList := ⟨begun, whole.symm⟩
    have beyond := token_prefix_of_suffix unbraced.2 nonempty suffix starts
    exact apart (beyond.isInfix.trans suffix.isInfix)
  have kept : ∀ part, part ≠ [] → part <:+ token name.toList →
      ¬ token field.1.toList <+: part ++ rest :=
    fun part nonempty suffix starts => apart (token_within_of_starts unbraced nonempty suffix starts)
  unfold replaceField
  rw [replaceAll_append_of_unspanned (token_ne_nil _) unspanned, replaceAll_append_of_apart kept]

/-- The field of the name itself writes its value and is applied on both sides of it. -/
theorem replaceField_own (value : String) (front rest : List Char) :
    replaceField (front ++ (token name.toList ++ rest)) (name, value) =
      replaceField front (name, value) ++ (value.toList ++ replaceField rest (name, value)) := by
  have unspanned : Unspanned (token name.toList) front (token name.toList ++ rest) := by
    intro begun ended whole some_ nonempty _ starts
    have beyond := token_prefix_of_suffix unbraced.2 nonempty ⟨begun, whole.symm⟩ starts
    have longer := beyond.length_le
    rw [whole, List.length_append] at longer
    have := List.length_pos_iff.2 some_
    omega
  unfold replaceField
  rw [replaceAll_append_of_unspanned (token_ne_nil _) unspanned, replaceAll_append (token_ne_nil _)]

omit unbraced

/-! ## Turns -/

/-- Whenever it is the turn of a field whose token has that of the name in it, that token is not in the
text, so that it cannot take the other one along. -/
def Spares (name : String) : List (String × String) → List Char → Prop
  | [], _ => True
  | field :: fields, text =>
    (token name.toList <:+: token field.1.toList → ¬ token field.1.toList <:+: text) ∧
      Spares name fields (replaceField text field)

/-- Fields of which none has the token of the name in its own spare it in every text. -/
theorem spares_of_apart {fields : List (String × String)}
    (apart : ∀ field ∈ fields, ¬ token name.toList <:+: token field.1.toList) (text : List Char) :
    Spares name fields text := by
  induction fields generalizing text with
  | nil => trivial
  | cons field fields ih =>
    refine ⟨fun inside => absurd inside (apart field List.mem_cons_self), ih ?_ _⟩
    exact fun other member => apart other (List.mem_cons_of_mem field member)

include unbraced

/-- One field that spares the token is applied on both sides of it. -/
theorem replaceField_spared {field : String × String}
    (spared : token name.toList <:+: token field.1.toList →
      ¬ token field.1.toList <:+: front ++ (token name.toList ++ rest)) :
    replaceField (front ++ (token name.toList ++ rest)) field =
      replaceField front field ++ (token name.toList ++ replaceField rest field) := by
  by_cases inside : token name.toList <:+: token field.1.toList
  · -- the field has nothing to replace, neither in the whole nor on one of the sides
    have absent := spared inside
    have before : ¬ token field.1.toList <:+: front :=
      fun found => absent (found.trans (List.prefix_append _ _).isInfix)
    have behind : ¬ token field.1.toList <:+: rest := by
      rw [← List.append_assoc] at absent
      exact fun found => absent (found.trans (List.suffix_append _ _).isInfix)
    unfold replaceField
    rw [replaceAll_of_absent absent, replaceAll_of_absent before, replaceAll_of_absent behind]
  · exact replaceField_beside unbraced inside front rest

/-- Fields that spare the token are applied on both sides of it. -/
theorem foldl_replaceField_spared {fields : List (String × String)}
    (spared : Spares name fields (front ++ (token name.toList ++ rest))) :
    fields.foldl replaceField (front ++ (token name.toList ++ rest)) =
      fields.foldl replaceField front ++ (token name.toList ++ fields.foldl replaceField rest) := by
  induction fields generalizing front rest with
  | nil => rfl
  | cons field fields ih =>
    obtain ⟨here, later⟩ := spared
    have step := replaceField_spared unbraced here
    rw [step] at later
    rw [List.foldl_cons, step, ih later]
    rfl

omit unbraced

/-! ## Lines -/

/-- The fields before that of a name spare its token in the line. -/
def Line.Spares (row : Row) (name : String) (line : Line) : Prop :=
  Template.Spares name (row.fields.takeWhile fun field => field.1 < name) line.content.toList

/-- The row fills in the placeholder of the name wherever it stands in the line: up to its own turn what
stands on both sides of it is filled by itself, then its value is written, and the fields behind its own
go on with what has come of it. -/
def Line.Substitutes (row : Row) (name : String) (line : Line) : Prop :=
  ∃ earlier value later, row.fields = earlier ++ (name, value) :: later ∧
    ∀ front rest, line.content.toList = front ++ (token name.toList ++ rest) →
      (line.fill row).content.toList = later.foldl replaceField
        ((earlier ++ [(name, value)]).foldl replaceField front ++
          (value.toList ++ (earlier ++ [(name, value)]).foldl replaceField rest))

/-- The fields of a row around one of them. -/
theorem exists_fields_of_contains {row : Row} (contained : row.contains name) :
    ∃ earlier value later, row.fields = earlier ++ (name, value) :: later ∧
      row.fields.takeWhile (fun field => field.1 < name) = earlier := by
  obtain ⟨value, known⟩ := Option.isSome_iff_exists.1 contained
  obtain ⟨earlier, later, fields, below, -⟩ := Row.fields_around known
  refine ⟨earlier, value, later, fields, ?_⟩
  rw [fields, List.takeWhile_append_of_pos fun field member => decide_eq_true (below field member),
    List.takeWhile_cons_of_neg (by simp), List.append_nil]

include unbraced

/-- A placeholder that is spared until it is its turn is filled in. -/
theorem Line.substitutes_of_spares {row : Row} {line : Line} (contained : row.contains name)
    (spared : line.Spares row name) : line.Substitutes row name := by
  obtain ⟨earlier, value, later, fields, before⟩ := exists_fields_of_contains contained
  refine ⟨earlier, value, later, fields, fun front rest content => ?_⟩
  unfold Line.Spares at spared
  rw [before, content] at spared
  rw [Line.fill, substitute, String.toList_ofList, fill_eq, fields, content, List.foldl_append,
    List.foldl_cons, foldl_replaceField_spared unbraced spared, replaceField_own unbraced]
  simp only [List.foldl_append, List.foldl_cons, List.foldl_nil]

omit unbraced

/-- In a row whose names have no braces every token is spared. -/
theorem Line.spares_of_unbraced {row : Row} (plain : ∀ field ∈ row.fields, Unbraced field.1)
    (line : Line) : line.Spares row name := by
  refine spares_of_apart (fun field member inside => ?_) _
  have below : field.1 < name := by simpa using List.mem_takeWhile_imp member
  have other := plain field ((List.takeWhile_prefix _).subset member)
  exact String.ne_of_lt below (eq_of_token_within other inside).symm

end MailMerge.Template
