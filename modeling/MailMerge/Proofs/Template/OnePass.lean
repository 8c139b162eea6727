import MailMerge.Proofs.Template.Tokens
import MailMerge.Proofs.Text.Search

/-!
# Filling a text in one pass

A row is applied to a line field by field, so a later field reads what the earlier ones have written.
The natural reading of a template is another one: go through the line once, from left to right, write
the value wherever a token of the row stands, and copy every other character (`fillOnce`).

The relation `Filled` describes the single pass with one rule for each thing that can stand next.  The
two readings agree when the tokens of the row cannot overlap and the single pass leaves no token of
the row behind (`foldl_eq_of_filled`).  The pass does not depend on an order of the fields, so in that
case the fields may as well be applied in any other order (`foldl_eq_substitute`).

Neither condition can be left out, not even when no value has a token in it (`substitute_not_perm`):
braces around a token may form another token with its value, and a name with braces in it may give a
token that two others share.
-/

namespace MailMerge.Template

set_option autoImplicit false

variable {fields others : List (String × String)} {text result : List Char}

/-! ## One field -/

/-- The text with every token of one field replaced by its value. -/
def replaceField (text : List Char) (field : String × String) : List Char :=
  replaceAll (token field.1.toList) field.2.toList text

/-- Looking for the token first saves work and changes nothing. -/
theorem applyField_eq (text : List Char) (field : String × String) :
    applyField text field = replaceField text field := by
  unfold applyField replaceField
  split
  · rfl
  case isFalse absent =>
    exact (replaceAll_of_absent (fun inside => absent (occursIn_iff.2 inside)) _).symm

/-- Fields of which no token stands in the text leave it as it is. -/
theorem foldl_replaceField_of_settled (settled : Settled fields text) :
    fields.foldl replaceField text = text := by
  induction fields with
  | nil => rfl
  | cons field fields ih =>
    have unread := settled field List.mem_cons_self
    have others := settled.of_subset fun _ => List.mem_cons_of_mem field
    rw [List.foldl_cons, replaceField, replaceAll_of_absent unread, ih others]

/-- A text without an opening pair of braces has no token, so every field leaves it as it is. -/
theorem foldl_replaceField_of_absent (absent : ¬ ['{', '{'] <:+: text) :
    fields.foldl replaceField text = text :=
  foldl_replaceField_of_settled fun _ _ inside => absent ((opens_token _).isInfix.trans inside)

/-- Filling is the replacement of all fields, one after another. -/
theorem fill_eq (row : Row) (text : List Char) :
    fill row text = row.fields.foldl replaceField text := by
  have apply : applyField = replaceField := by
    funext text field
    exact applyField_eq text field
  unfold fill
  rw [apply]
  split
  · rfl
  case isFalse absent =>
    exact (foldl_replaceField_of_absent fun inside => absent (occursIn_iff.2 inside)).symm

/-! ## One pass over the text -/

/-- A single pass from left to right: a token of a field gives way to its value, and a character at
which no token starts is copied. -/
inductive Filled (fields : List (String × String)) : List Char → List Char → Prop where
  | nil : Filled fields [] []
  | token {field : String × String} {rest result : List Char} :
      field ∈ fields → Filled fields rest result →
        Filled fields (token field.1.toList ++ rest) (field.2.toList ++ result)
  | copied {c : Char} {rest result : List Char} :
      (∀ field ∈ fields, ¬ Template.token field.1.toList <+: c :: rest) → Filled fields rest result →
        Filled fields (c :: rest) (c :: result)

/-- The first field whose token the text begins with. -/
def leading? (fields : List (String × String)) (text : List Char) : Option (String × String) :=
  fields.find? fun field => (token field.1.toList).isPrefixOf text

theorem of_leading?_eq_some {field : String × String} (found : leading? fields text = some field) :
    field ∈ fields ∧ token field.1.toList <+: text := by
  unfold leading? at found
  exact ⟨List.mem_of_find?_eq_some found, by simpa using List.find?_some found⟩

theorem of_leading?_eq_none (absent : leading? fields text = none) :
    ∀ field ∈ fields, ¬ token field.1.toList <+: text := by
  simpa [leading?] using absent

/-- The single pass with the first `skip` characters left out, because they belong to a token that was
replaced already. -/
def fillOnceFrom (fields : List (String × String)) : Nat → List Char → List Char
  | _, [] => []
  | 0, c :: text =>
    match leading? fields (c :: text) with
    | some field =>
      field.2.toList ++ fillOnceFrom fields ((token field.1.toList).length - 1) text
    | none => c :: fillOnceFrom fields 0 text
  | skip + 1, _ :: text => fillOnceFrom fields skip text

/-- The text with the tokens of all fields replaced in one pass. -/
def fillOnce (fields : List (String × String)) (text : List Char) : List Char :=
  fillOnceFrom fields 0 text

theorem fillOnceFrom_eq (fields : List (String × String)) (skip : Nat) (text : List Char) :
    fillOnceFrom fields skip text = fillOnce fields (text.drop skip) := by
  induction skip generalizing text with
  | zero => rfl
  | succ skip ih =>
    cases text with
    | nil => simp [fillOnceFrom, fillOnce]
    | cons c text => simpa [fillOnceFrom] using ih text

theorem fillOnce_token {field : String × String} {rest : List Char}
    (found : leading? fields (token field.1.toList ++ rest) = some field) :
    fillOnce fields (token field.1.toList ++ rest) = field.2.toList ++ fillOnce fields rest := by
  cases h : token field.1.toList with
  | nil => exact absurd h (token_ne_nil _)
  | cons t name =>
    rw [h] at found
    simp only [fillOnce, List.cons_append, fillOnceFrom] at found ⊢
    simp only [found, fillOnceFrom_eq, h]
    simp [fillOnce]

theorem fillOnce_copied {c : Char} {rest : List Char} (absent : leading? fields (c :: rest) = none) :
    fillOnce fields (c :: rest) = c :: fillOnce fields rest := by
  simp [fillOnce, fillOnceFrom, absent]

/-- The single pass comes to its end on every text. -/
theorem filled_fillOnce (fields : List (String × String)) (text : List Char) :
    Filled fields text (fillOnce fields text) := by
  induction h : text.length using Nat.strong_induction_on generalizing text with
  | h size ih =>
    subst h
    cases text with
    | nil => exact .nil
    | cons c text =>
      cases found : leading? fields (c :: text) with
      | some field =>
        obtain ⟨member, rest, same⟩ := of_leading?_eq_some found
        have shorter : rest.length < (c :: text).length := by
          rw [← same]
          simp [token]
          omega
        rw [← same, fillOnce_token (same ▸ found)]
        exact .token member (ih _ shorter rest rfl)
      | none =>
        rw [fillOnce_copied found]
        exact .copied (of_leading?_eq_none found) (ih _ (by simp) text rfl)

namespace Filled

/-- The pass depends only on which fields there are. -/
theorem of_mem_iff (filled : Filled fields text result)
    (same : ∀ field, field ∈ others ↔ field ∈ fields) : Filled others text result := by
  induction filled with
  | nil => exact .nil
  | token member _ ih => exact .token ((same _).2 member) ih
  | copied other _ ih => exact .copied (fun field member => other field ((same field).1 member)) ih

/-- Without fields everything is copied. -/
theorem eq_of_nil (filled : Filled [] text result) : result = text := by
  induction text generalizing result with
  | nil =>
    cases filled with
    | nil => rfl
  | cons c text ih =>
    generalize h : c :: text = whole at filled
    cases filled with
    | nil => simp at h
    | token member _ => simp at member
    | copied _ rest =>
      cases h
      rw [ih rest]

/-- Text at which no token starts is copied as a whole. -/
theorem append {copied rest : List Char} (clear : Clear fields copied rest)
    (filled : Filled fields rest result) : Filled fields (copied ++ rest) (copied ++ result) := by
  induction copied with
  | nil => exact filled
  | cons c copied ih =>
    refine .copied (clear (c :: copied) (by simp) (List.suffix_refl _)) (ih ?_)
    intro part nonempty suffix
    exact clear part nonempty (List.suffix_cons_iff.2 (.inr suffix))

/-- The end of a token is copied when the text begins with it, because no token starts within it. -/
theorem prefix_of_prefix (separate : Separate fields) {field : String × String}
    (member : field ∈ fields) {part : List Char} (nonempty : part ≠ [])
    (suffix : part <:+ Template.token field.1.toList) (proper : part ≠ Template.token field.1.toList)
    (filled : Filled fields text result) (starts : part <+: text) : part <+: result := by
  induction filled generalizing part with
  | nil => exact starts
  | token other _ _ =>
    -- the end of the one token and the whole other token are beginnings of the same text
    exfalso
    have comparable := List.prefix_or_prefix_of_prefix starts (List.prefix_append _ _)
    exact proper (separate _ member _ other part nonempty suffix comparable).2
  | copied _ _ ih =>
    cases part with
    | nil => exact List.nil_prefix
    | cons c part =>
      obtain ⟨rfl, tail⟩ := List.cons_prefix_cons.1 starts
      refine List.cons_prefix_cons.2 ⟨rfl, ?_⟩
      by_cases last : part = []
      · exact last ▸ List.nil_prefix
      · have shorter : part <:+ Template.token field.1.toList :=
          (List.suffix_cons c part).trans suffix
        refine ih last shorter (fun whole => ?_) tail
        have longer := suffix.length_le
        rw [← whole, List.length_cons] at longer
        omega

/-- What stands in front of a filled text stays as it is, if that brings no token about. -/
theorem append_of_settled (separate : Separate fields) {front : List Char}
    (filled : Filled fields text result) (settled : Settled fields (front ++ result)) :
    Filled fields (front ++ text) (front ++ result) := by
  refine filled.append ?_
  intro part nonempty suffix field member starts
  have inside : part ++ result <:+: front ++ result := by
    obtain ⟨before, rfl⟩ := suffix
    exact ⟨before, [], by simp⟩
  refine settled field member (List.IsInfix.trans ?_ inside)
  obtain ⟨rest, same⟩ := starts
  rcases List.append_eq_append_iff.1 same with ⟨beyond, within, _⟩ | ⟨ending, whole, read⟩
  · -- the token ends within what stands in front
    exact ⟨[], beyond ++ result, by simp [within]⟩
  · -- the token goes on into the text, and the pass has copied its ending
    by_cases last : ending = []
    · exact ⟨[], result, by simp [whole, last]⟩
    · have proper : ending ≠ Template.token field.1.toList := by
        intro same
        exact nonempty (List.append_left_eq_self.1 (whole.symm.trans same.symm))
      have copied : ending <+: result :=
        filled.prefix_of_prefix separate member last (whole ▸ List.suffix_append _ _) proper
          (read ▸ List.prefix_append _ _)
      obtain ⟨beyond, rfl⟩ := copied
      exact ⟨[], beyond, by simp [whole]⟩

/-- One field applied to the whole text first leaves to the pass what the other fields have to do. -/
theorem replaceField {field : String × String} (separate : Separate (field :: fields))
    (filled : Filled (field :: fields) text result) (settled : Settled fields result) :
    Filled fields (Template.replaceField text field) result := by
  have others : Separate fields := separate.of_subset fun _ => List.mem_cons_of_mem field
  induction filled with
  | nil => exact .nil
  | @token found rest result member _ ih =>
    have ready := ih settled.of_append
    by_cases same : found = field
    · rw [same, Template.replaceField, replaceAll_append (token_ne_nil _)]
      exact ready.append_of_settled others (same ▸ settled)
    · -- no token of the field starts within the token of another one
      have apart : ∀ part, part ≠ [] → part <:+ Template.token found.1.toList →
          ¬ Template.token field.1.toList <+: part ++ rest := by
        intro part nonempty suffix starts
        have comparable := List.prefix_or_prefix_of_prefix (List.prefix_append part rest) starts
        exact same (separate found member field List.mem_cons_self part nonempty suffix comparable).1
      rw [Template.replaceField, replaceAll_append_of_apart apart]
      exact .token ((List.mem_cons.1 member).resolve_left same) ready
  | @copied c rest result absent _ ih =>
    have settled : Settled fields ([c] ++ result) := settled
    rw [Template.replaceField, replaceAll_cons (absent field List.mem_cons_self)]
    exact (ih settled.of_append).append_of_settled others settled

end Filled

/-- For one field there is one way for the pass to go, and it replaces the field's tokens. -/
theorem filled_singleton {field : String × String} :
    Filled [field] text result ↔ result = replaceField text field := by
  have replaced : ∀ {text result}, Filled [field] text result → result = replaceField text field := by
    intro text result filled
    induction filled with
    | nil => rfl
    | token member _ ih =>
      obtain rfl := List.mem_singleton.1 member
      rw [replaceField, replaceAll_append (token_ne_nil _), ih, replaceField]
    | copied absent _ ih =>
      rw [replaceField, replaceAll_cons (absent field List.mem_cons_self), ih, replaceField]
  refine ⟨replaced, fun same => ?_⟩
  have once := filled_fillOnce [field] text
  rwa [replaced once, ← same] at once

/-- If the tokens cannot overlap and the single pass leaves none of them, then applying the fields one
after another gives what the single pass gives. -/
theorem foldl_eq_of_filled (separate : Separate fields) (filled : Filled fields text result)
    (settled : Settled fields result) : fields.foldl replaceField text = result := by
  induction fields generalizing text with
  | nil => exact filled.eq_of_nil.symm
  | cons field fields ih =>
    have others : ∀ other ∈ fields, other ∈ field :: fields := fun _ => List.mem_cons_of_mem field
    have unread := settled.of_subset others
    exact ih (separate.of_subset others) (filled.replaceField separate unread) unread

/-! ## The order of the fields -/

/-- The fields of a row may be applied in any order: if their tokens cannot overlap and the line
filled in one pass has none of them left, then every order gives the line that is filled in one
pass. -/
theorem foldl_eq_substitute {row : Row} {line : String} (separate : Separate row.fields)
    (settled : Settled row.fields (fillOnce row.fields line.toList))
    {order : List (String × String)} (arranged : order.Perm row.fields) :
    String.ofList (order.foldl replaceField line.toList) = substitute row line ∧
      substitute row line = String.ofList (fillOnce row.fields line.toList) := by
  have once := filled_fillOnce row.fields line.toList
  have ascending : substitute row line = String.ofList (fillOnce row.fields line.toList) := by
    rw [substitute, fill_eq, foldl_eq_of_filled separate once settled]
  have rearranged : order.foldl replaceField line.toList = fillOnce row.fields line.toList := by
    apply foldl_eq_of_filled
    · exact separate.of_subset fun field => arranged.mem_iff.1
    · exact once.of_mem_iff fun field => arranged.mem_iff
    · exact settled.of_subset fun field => arranged.mem_iff.1
  exact ⟨by rw [rearranged, ascending], ascending⟩

/-- Two fields in the order of their names and the other way round, on a line in which a value is empty
and a placeholder is none of the row's. -/
theorem foldl_eq_substitute_reversed :
    Settled (Row.ofPairs [("a", "b"), ("b", "")]).fields
        (fillOnce (Row.ofPairs [("a", "b"), ("b", "")]).fields "{{a}}{{b}}, {{c}}".toList) ∧
      String.ofList ([("b", ""), ("a", "b")].foldl replaceField "{{a}}{{b}}, {{c}}".toList) =
        substitute (Row.ofPairs [("a", "b"), ("b", "")]) "{{a}}{{b}}, {{c}}" := by
  have settled : Settled (Row.ofPairs [("a", "b"), ("b", "")]).fields
      (fillOnce (Row.ofPairs [("a", "b"), ("b", "")]).fields "{{a}}{{b}}, {{c}}".toList) := by
    decide +kernel
  have separate : Separate (Row.ofPairs [("a", "b"), ("b", "")]).fields :=
    separate_of_unbraced (by decide +kernel)
  exact ⟨settled, (foldl_eq_substitute separate settled (by decide +kernel)).1⟩

/-- It is not enough that no value has a token of the row in it.  Braces around a token form another
one with its value, even if the tokens cannot overlap.  If they can, the one that is replaced first
takes characters from the other, even if the single pass leaves no token. -/
theorem substitute_not_perm :
    (¬ ∀ (row : Row) (line : String) (order : List (String × String)),
      (∀ field ∈ row.fields, Settled row.fields field.2.toList) → Separate row.fields →
        order.Perm row.fields →
          String.ofList (order.foldl replaceField line.toList) = substitute row line) ∧
    ¬ ∀ (row : Row) (line : String) (order : List (String × String)),
      (∀ field ∈ row.fields, Settled row.fields field.2.toList) →
        Settled row.fields (fillOnce row.fields line.toList) → order.Perm row.fields →
          String.ofList (order.foldl replaceField line.toList) = substitute row line := by
  constructor
  · intro claim
    have wrong := claim (Row.ofPairs [("a", "b"), ("b", "c")]) "{{{{a}}}}" [("b", "c"), ("a", "b")]
      (by decide +kernel) (separate_of_unbraced (by decide +kernel)) (by decide +kernel)
    exact absurd wrong (by decide +kernel)
  · intro claim
    have wrong := claim (Row.ofPairs [("a", "x"), ("a\x7d\x7d\x7b\x7bb", "y")]) "{{a}}{{b}}"
      [("a\x7d\x7d\x7b\x7bb", "y"), ("a", "x")] (by decide +kernel) (by decide +kernel)
      (by decide +kernel)
    exact absurd wrong (by decide +kernel)

end MailMerge.Template
