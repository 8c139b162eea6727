import Mathlib.Data.List.Infix
import Mathlib.Data.List.Nodup
import MailMerge.Proofs.Row
import MailMerge.Template.Placeholder

/-!
# Where tokens can stand

Two occurrences of tokens in a text may overlap only if the tokens allow it: an end of the one would
have to be a beginning of the other, or the one would have to lie within the other.  Fields whose
tokens exclude all of this are separate (`Separate`), and then at most one field's token starts at
any place of a text.

Names without braces are enough (`separate_of_unbraced`).  The reason is that a token begins with an
opening pair of braces, and behind its first character the token of such a name has no further
opening pair, whatever follows it (`unopened_tail`).
-/

namespace MailMerge.Template

set_option autoImplicit false

/-! ## Where no token starts -/

/-- No opening pair of braces starts in the copied part of a text that goes on with the rest. -/
def Unopened (copied rest : List Char) : Prop :=
  ∀ part, part ≠ [] → part <:+ copied → ¬ ['{', '{'] <+: part ++ rest

theorem unopened_nil (rest : List Char) : Unopened [] rest := by
  intro part nonempty suffix
  exact absurd (List.suffix_nil.1 suffix) nonempty

theorem unopened_cons {c : Char} {copied rest : List Char}
    (here : ¬ ['{', '{'] <+: c :: (copied ++ rest)) (later : Unopened copied rest) :
    Unopened (c :: copied) rest := by
  intro part nonempty suffix
  rcases List.suffix_cons_iff.1 suffix with rfl | within
  · exact here
  · exact later part nonempty within

theorem unopened_of_no_brace {copied : List Char} (unbraced : '{' ∉ copied) (rest : List Char) :
    Unopened copied rest := by
  induction copied with
  | nil => exact unopened_nil rest
  | cons c copied ih =>
    refine unopened_cons (fun opens => ?_) (ih fun member => unbraced (.tail c member))
    exact unbraced ((List.cons_prefix_cons.1 opens).1 ▸ List.mem_cons_self)

/-- A token begins with an opening pair. -/
theorem opens_token (name : List Char) : ['{', '{'] <+: token name := ⟨name ++ ['}', '}'], rfl⟩

/-- No token of the fields starts in the copied part of a text that goes on with the rest. -/
def Clear (fields : List (String × String)) (copied rest : List Char) : Prop :=
  ∀ part, part ≠ [] → part <:+ copied →
    ∀ field ∈ fields, ¬ token field.1.toList <+: part ++ rest

/-- Where no opening pair starts, no token does. -/
theorem Unopened.clear {copied rest : List Char} (unopened : Unopened copied rest)
    (fields : List (String × String)) : Clear fields copied rest := by
  intro part nonempty suffix field _ starts
  exact unopened part nonempty suffix ((opens_token field.1.toList).trans starts)

/-! ## Names without braces -/

/-- A name that has no brace in it. -/
def Unbraced (name : String) : Prop := '{' ∉ name.toList ∧ '}' ∉ name.toList

instance (name : String) : Decidable (Unbraced name) :=
  inferInstanceAs (Decidable ('{' ∉ name.toList ∧ '}' ∉ name.toList))

theorem Unbraced.isNameChar {name : String} (unbraced : Unbraced name) :
    ∀ c ∈ name.toList, isNameChar c = true := by
  intro c member
  have opening : c ≠ '{' := fun same => unbraced.1 (same ▸ member)
  have closing : c ≠ '}' := fun same => unbraced.2 (same ▸ member)
  simp [Template.isNameChar, opening, closing]

/-- A name ends where the first brace is. -/
theorem takeWhile_name {name : String} (unbraced : Unbraced name) (rest : List Char) :
    (name.toList ++ '}' :: rest).takeWhile isNameChar = name.toList := by
  rw [List.takeWhile_append_of_pos unbraced.isNameChar]
  simp [isNameChar]

/-- Of two tokens of names without braces, the one does not begin with the other. -/
theorem eq_of_begins_token {left right : String} (unbracedLeft : Unbraced left)
    (unbracedRight : Unbraced right) {rest : List Char}
    (starts : token left.toList <+: token right.toList ++ rest) : left = right := by
  obtain ⟨more, same⟩ := starts
  have names : left.toList ++ '}' :: ('}' :: more) = right.toList ++ '}' :: ('}' :: rest) := by
    simpa [token] using same
  have read := congrArg (List.takeWhile isNameChar) names
  rw [takeWhile_name unbracedLeft, takeWhile_name unbracedRight] at read
  exact String.toList_inj.1 read

/-- Behind its first character, the token of a name without braces has no opening pair. -/
theorem unopened_tail {name : String} (unbraced : Unbraced name) (rest : List Char) :
    Unopened ('{' :: (name.toList ++ ['}', '}'])) rest := by
  have closed : '{' ∉ name.toList ++ ['}', '}'] := by simp [unbraced.1]
  refine unopened_cons (fun opens => ?_) (unopened_of_no_brace closed rest)
  -- the second character of the pair would be the first one of the name or a closing brace
  have second := (List.cons_prefix_cons.1 opens).2
  cases h : name.toList with
  | nil => simp [h] at second
  | cons c chars =>
    have first : '{' = c := by simpa [h] using second
    exact unbraced.1 (h ▸ first ▸ List.mem_cons_self)

/-! ## Separate fields -/

/-- The tokens of the fields cannot overlap: wherever in one token another one could begin, it is the
same field's, and it begins where that token begins. -/
def Separate (fields : List (String × String)) : Prop :=
  ∀ left ∈ fields, ∀ right ∈ fields, ∀ part, part ≠ [] → part <:+ token left.1.toList →
    (part <+: token right.1.toList ∨ token right.1.toList <+: part) →
      left = right ∧ part = token left.1.toList

theorem Separate.of_subset {fields others : List (String × String)} (separate : Separate fields)
    (subset : ∀ field ∈ others, field ∈ fields) : Separate others := by
  intro left leftMember right rightMember
  exact separate left (subset left leftMember) right (subset right rightMember)

/-- A row has one field for a name. -/
theorem eq_of_name {row : Row} {left right : String × String} (leftMember : left ∈ row.fields)
    (rightMember : right ∈ row.fields) (same : left.1 = right.1) : left = right :=
  List.inj_on_of_nodup_map row.nodup_names leftMember rightMember same

/-- The fields of a row whose names have no braces are separate. -/
theorem separate_of_unbraced {row : Row} (unbraced : ∀ field ∈ row.fields, Unbraced field.1) :
    Separate row.fields := by
  intro left leftMember right rightMember part nonempty suffix comparable
  rcases List.suffix_cons_iff.1 suffix with whole | within
  · have starts : token left.1.toList <+: token right.1.toList ∨
        token right.1.toList <+: token left.1.toList := by
      rw [whole] at comparable
      exact comparable
    have names : left.1 = right.1 := by
      rcases starts with starts | starts
      · exact eq_of_begins_token (unbraced left leftMember) (unbraced right rightMember)
          (starts.trans (List.prefix_append _ []))
      · exact (eq_of_begins_token (unbraced right rightMember) (unbraced left leftMember)
          (starts.trans (List.prefix_append _ []))).symm
    exact ⟨eq_of_name leftMember rightMember names, whole⟩
  · -- a part behind the first character is not where a token begins
    exfalso
    have opens : ∃ rest, ['{', '{'] <+: part ++ rest := by
      rcases comparable with ⟨rest, same⟩ | starts
      · exact ⟨rest, same ▸ opens_token right.1.toList⟩
      · exact ⟨[], (List.append_nil part).symm ▸ (opens_token right.1.toList).trans starts⟩
    obtain ⟨rest, opens⟩ := opens
    exact unopened_tail (unbraced left leftMember) rest part nonempty within opens

/-! ## Settled texts -/

/-- No token of the fields stands in the text. -/
def Settled (fields : List (String × String)) (text : List Char) : Prop :=
  ∀ field ∈ fields, ¬ token field.1.toList <:+: text

instance (fields : List (String × String)) (text : List Char) :
    Decidable (Settled fields text) :=
  inferInstanceAs (Decidable (∀ field ∈ fields, ¬ token field.1.toList <:+: text))

theorem Settled.of_append {fields : List (String × String)} {front rest : List Char}
    (settled : Settled fields (front ++ rest)) : Settled fields rest :=
  fun field member inside => settled field member (inside.trans (List.suffix_append _ _).isInfix)

theorem Settled.of_subset {fields others : List (String × String)} {text : List Char}
    (settled : Settled fields text) (subset : ∀ field ∈ others, field ∈ fields) :
    Settled others text :=
  fun field member => settled field (subset field member)

/-- What no token starts in brings no token to a text. -/
theorem Settled.append {fields : List (String × String)} {copied rest : List Char}
    (clear : Clear fields copied rest) (settled : Settled fields rest) :
    Settled fields (copied ++ rest) := by
  intro field member inside
  induction copied with
  | nil => exact settled field member inside
  | cons c copied ih =>
    rcases List.infix_cons_iff.1 inside with starts | inside
    · exact clear (c :: copied) (by simp) (List.suffix_refl _) field member starts
    · refine ih (fun part nonempty suffix => ?_) inside
      exact clear part nonempty (List.suffix_cons_iff.2 (.inr suffix))

end MailMerge.Template
