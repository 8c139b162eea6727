import Mathlib.Data.List.Chain
import MailMerge.Proofs.Template.OnePass

/-!
# Lines made of literals and placeholders

A line as one would write it consists of literal text and placeholders.  Provided that one sees where
each of them ends (a literal has no opening pair of braces and does not supply one brace of a
placeholder's pair, and a name has no brace at all), such a line says what becomes of it: every
placeholder that the row knows gives way to its value, and everything else stays
(`substitute_segments`).

This is what a single pass does, segment by segment (`Segment.filled_append`).  That the row is really
applied field by field makes no difference, because values without opening braces bring no token about,
not even an empty value between two literals (`Segment.settled_append`).
-/

namespace MailMerge.Template

set_option autoImplicit false

/-! ## Segments -/

/-- A piece of a line. -/
inductive Segment where
  /-- Text that stands for itself. -/
  | literal (text : String)
  /-- The place of a value. -/
  | placeholder (name : String)
  deriving DecidableEq, Repr

namespace Segment

/-- The characters of the segment in the template. -/
def chars : Segment → List Char
  | literal text => text.toList
  | placeholder name => token name.toList

/-- The characters that the row makes of the segment. -/
def filled (row : Row) : Segment → List Char
  | literal text => text.toList
  | placeholder name =>
    match row.get? name with
    | some value => value.toList
    | none => token name.toList

/-- A literal has no opening pair of braces, and the name of a placeholder is a plain one. -/
def IsProper : Segment → Prop
  | literal text => ¬ ['{', '{'] <:+: text.toList
  | placeholder name => name ≠ "" ∧ Unbraced name

/-- What may stand side by side: literals are separated, and a literal before a placeholder does not
end in an opening brace. -/
def MayPrecede : Segment → Segment → Prop
  | literal _, literal _ => False
  | literal text, placeholder _ => text.toList.getLast? ≠ some '{'
  | placeholder _, _ => True

/-- The segment ends before the rest of the line: it does not lend it an opening brace. -/
def Ends (rest : List Char) : Segment → Prop
  | literal text => rest = [] ∨ text.toList.getLast? ≠ some '{'
  | placeholder _ => True

instance : DecidablePred IsProper
  | literal text => inferInstanceAs (Decidable (¬ ['{', '{'] <:+: text.toList))
  | placeholder name => inferInstanceAs (Decidable (name ≠ "" ∧ Unbraced name))

instance : DecidableRel MayPrecede
  | literal _, literal _ => inferInstanceAs (Decidable False)
  | literal text, placeholder _ => inferInstanceAs (Decidable (text.toList.getLast? ≠ some '{'))
  | placeholder _, _ => inferInstanceAs (Decidable True)

theorem MayPrecede.ends {left right : Segment} (beside : left.MayPrecede right) (rest : List Char) :
    left.Ends rest := by
  cases left with
  | placeholder name => trivial
  | literal text =>
    cases right with
    | literal other => exact beside.elim
    | placeholder name => exact .inr beside

theorem ends_nil (segment : Segment) : segment.Ends [] := by
  cases segment with
  | literal text => exact .inl rfl
  | placeholder name => trivial

end Segment

/-! ## Where no token starts in a segment -/

variable {row : Row} {rest result : List Char}

/-- No pair of braces starts in a literal that ends before the rest of the line. -/
theorem unopened_literal {text : String} (proper : (Segment.literal text).IsProper)
    (ends : (Segment.literal text).Ends rest) : Unopened text.toList rest := by
  intro part nonempty suffix opens
  match part with
  | [] => exact nonempty rfl
  | [c] =>
    obtain ⟨rfl, second⟩ := List.cons_prefix_cons.1 opens
    rcases ends with rfl | closed
    · simp at second
    · obtain ⟨before, same⟩ := suffix
      exact closed (by simp [← same])
  | c :: d :: part =>
    obtain ⟨rfl, second⟩ := List.cons_prefix_cons.1 opens
    obtain ⟨rfl, -⟩ := List.cons_prefix_cons.1 second
    have pair : ['{', '{'] <:+: '{' :: '{' :: part := ⟨[], part, rfl⟩
    exact proper (pair.trans suffix.isInfix)

/-- No token of a row starts in a placeholder of which the row knows nothing. -/
theorem clear_placeholder {name : String} (unbraced : Unbraced name)
    (names : ∀ field ∈ row.fields, Unbraced field.1) (unknown : row.get? name = none)
    (rest : List Char) : Clear row.fields (token name.toList) rest := by
  intro part nonempty suffix field member starts
  rcases List.suffix_cons_iff.1 suffix with whole | within
  · have same : field.1 = name :=
      eq_of_begins_token (names field member) unbraced (whole ▸ starts)
    have differs := List.lookup_eq_none_iff.1 unknown field member
    simp [same] at differs
  · exact (unopened_tail unbraced rest).clear row.fields part nonempty within field member starts

/-! ## Segment by segment -/

/-- The single pass fills a segment and goes on with the rest of the line. -/
theorem Segment.filled_append {segment : Segment} (proper : segment.IsProper) (ends : segment.Ends rest)
    (names : ∀ field ∈ row.fields, Unbraced field.1) (filled : Filled row.fields rest result) :
    Filled row.fields (segment.chars ++ rest) (segment.filled row ++ result) := by
  cases segment with
  | literal text => exact filled.append ((unopened_literal proper ends).clear row.fields)
  | placeholder name =>
    cases known : row.get? name with
    | some value =>
      simp only [Segment.chars, Segment.filled, known]
      exact .token (Row.mem_fields.2 known) filled
    | none =>
      simp only [Segment.chars, Segment.filled, known]
      exact filled.append (clear_placeholder proper.2 names known rest)

/-- What a row makes of a segment brings no token of the row about. -/
theorem Segment.settled_append {segment : Segment} (proper : segment.IsProper)
    (ends : segment.Ends result) (names : ∀ field ∈ row.fields, Unbraced field.1)
    (values : ∀ field ∈ row.fields, '{' ∉ field.2.toList) (settled : Settled row.fields result) :
    Settled row.fields (segment.filled row ++ result) := by
  cases segment with
  | literal text => exact settled.append ((unopened_literal proper ends).clear row.fields)
  | placeholder name =>
    cases known : row.get? name with
    | some value =>
      simp only [Segment.filled, known]
      have unopened := unopened_of_no_brace (values _ (Row.mem_fields.2 known)) result
      exact settled.append (unopened.clear row.fields)
    | none =>
      simp only [Segment.filled, known]
      exact settled.append (clear_placeholder proper.2 names known result)

/-- A line of segments, filled in one pass: each segment by itself, and no token is left. -/
theorem filled_segments {segments : List Segment} (proper : ∀ segment ∈ segments, segment.IsProper)
    (beside : segments.IsChain Segment.MayPrecede)
    (names : ∀ field ∈ row.fields, Unbraced field.1)
    (values : ∀ field ∈ row.fields, '{' ∉ field.2.toList) :
    Filled row.fields (segments.flatMap Segment.chars) (segments.flatMap (Segment.filled row)) ∧
      Settled row.fields (segments.flatMap (Segment.filled row)) := by
  have blank : Settled row.fields [] := by
    intro field _ inside
    exact token_ne_nil _ (List.infix_nil.1 inside)
  induction beside with
  | nil => exact ⟨.nil, blank⟩
  | singleton segment =>
    have own := proper segment List.mem_cons_self
    simp only [List.flatMap_cons, List.flatMap_nil]
    exact ⟨Segment.filled_append own segment.ends_nil names .nil,
      Segment.settled_append own segment.ends_nil names values blank⟩
  | @cons_cons segment next segments adjacent _ ih =>
    obtain ⟨filled, settled⟩ := ih fun other member => proper other (.tail segment member)
    have own := proper segment List.mem_cons_self
    change Filled row.fields (segment.chars ++ (next :: segments).flatMap Segment.chars)
        (segment.filled row ++ (next :: segments).flatMap (Segment.filled row)) ∧
      Settled row.fields (segment.filled row ++ (next :: segments).flatMap (Segment.filled row))
    exact ⟨Segment.filled_append own (adjacent.ends _) names filled,
      Segment.settled_append own (adjacent.ends _) names values settled⟩

/-- A line of literals and placeholders is filled placeholder by placeholder: one that the row knows
gives way to its value, and all others stay, as the literals do. -/
theorem substitute_segments {row : Row} {segments : List Segment}
    (proper : ∀ segment ∈ segments, segment.IsProper)
    (beside : segments.IsChain Segment.MayPrecede)
    (names : ∀ field ∈ row.fields, Unbraced field.1)
    (values : ∀ field ∈ row.fields, '{' ∉ field.2.toList) :
    substitute row (.ofList (segments.flatMap Segment.chars)) =
      .ofList (segments.flatMap (Segment.filled row)) := by
  obtain ⟨filled, settled⟩ := filled_segments proper beside names values
  rw [substitute, fill_eq, String.toList_ofList,
    foldl_eq_of_filled (separate_of_unbraced names) filled settled]

/-- An empty value between two segments, a closing brace behind a placeholder, a placeholder of which
the row knows nothing, and an opening brace at the end of the line. -/
theorem substitute_segments_letter :
    substitute (Row.ofPairs [("Name", "Ana"), ("Title", "")])
        "Dear {{Title}}{{Name}}\x7d, {{Sum}}\x7b" = "Dear Ana\x7d, {{Sum}}\x7b" :=
  @substitute_segments (Row.ofPairs [("Name", "Ana"), ("Title", "")])
    [.literal "Dear ", .placeholder "Title", .placeholder "Name", .literal "\x7d, ",
      .placeholder "Sum", .literal "\x7b"]
    (by decide +kernel) (by decide +kernel) (by decide +kernel) (by decide +kernel)

end MailMerge.Template
