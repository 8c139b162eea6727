import MailMerge.Proofs.Template.Names

/-!
# One scan finds every name

The names in a text are those that a search from left to right comes upon which takes every placeholder
as a whole and goes on behind it (`scanned_iff`).  Such a search could miss a placeholder that begins
within another one.  There is none, because behind its first character a placeholder has no opening pair
of braces; and where a longer run of braces stands, the search goes on one brace further.

Hence the names that occur as placeholders are listed exactly, in the order in which they occur first,
and a row all of whose names are names of placeholders changes a line only if one of them is listed for
it (`placeholders_exact`).  In this way the search for placeholders and the replacement of literal
tokens, which have no code in common, agree.
-/

namespace MailMerge.Template

set_option autoImplicit false

variable {name : List Char} {names : List (List Char)} {copied rest text : List Char}

/-! ## The scan -/

/-- What may stand between the braces of a placeholder. -/
def IsName (name : List Char) : Prop := name ≠ [] ∧ ∀ c ∈ name, isNameChar c = true

/-- A search from left to right: a placeholder is taken as a whole and its name noted, and a character
at which no placeholder starts is passed over. -/
inductive Scanned : List Char → List (List Char) → Prop where
  | nil : Scanned [] []
  | noted {name rest : List Char} {names : List (List Char)} :
      IsName name → Scanned rest names → Scanned (token name ++ rest) (name :: names)
  | passed {c : Char} {rest : List Char} {names : List (List Char)} :
      (∀ name, IsName name → ¬ token name <+: c :: rest) → Scanned rest names →
        Scanned (c :: rest) names

theorem leadingName?_eq_none :
    leadingName? text = none ↔ ∀ name, IsName name → ¬ token name <+: text := by
  rw [Option.eq_none_iff_forall_ne_some]
  refine forall_congr' fun name => ?_
  rw [Ne, leadingName?_eq_some, ← and_assoc, not_and]
  rfl

/-- Where no opening pair of braces starts, no name is found. -/
theorem namesIn_append_of_unopened (unopened : Unopened copied rest) :
    namesIn (copied ++ rest) = namesIn rest := by
  induction copied with
  | nil => rfl
  | cons c copied ih =>
    have none : leadingName? (c :: (copied ++ rest)) = none := by
      refine leadingName?_eq_none.2 fun name _ starts => ?_
      exact unopened (c :: copied) (by simp) (List.suffix_refl _) ((opens_token name).trans starts)
    have later : Unopened copied rest :=
      fun part nonempty suffix => unopened part nonempty (List.suffix_cons_iff.2 (.inr suffix))
    rw [List.cons_append, namesIn_cons, none, ih later]
    rfl

/-- Behind a placeholder the search finds what it finds in the rest by itself. -/
theorem namesIn_token_append (named : IsName name) (rest : List Char) :
    namesIn (token name ++ rest) = name :: namesIn rest := by
  have leading : leadingName? (token name ++ rest) = some name :=
    leadingName?_eq_some.2 ⟨named.1, named.2, List.prefix_append _ _⟩
  have unbraced : Unbraced (.ofList name) := by
    rw [unbraced_iff, String.toList_ofList]
    exact named.2
  have within := namesIn_append_of_unopened (unopened_tail unbraced rest)
  rw [String.toList_ofList, List.cons_append] at within
  rw [token, List.cons_append, List.cons_append] at leading ⊢
  rw [namesIn_cons, leading, within]
  rfl

/-- The scan comes to its end on every text. -/
theorem scanned_namesIn (text : List Char) : Scanned text (namesIn text) := by
  induction size : text.length using Nat.strongRecOn generalizing text with
  | ind count ih =>
    subst size
    cases text with
    | nil => exact .nil
    | cons c text =>
      cases leading : leadingName? (c :: text) with
      | some name =>
        obtain ⟨some_, named, rest, same⟩ := leadingName?_eq_some.1 leading
        have shorter : rest.length < (c :: text).length := by
          rw [← same]
          simp [token]
          omega
        rw [← same, namesIn_token_append ⟨some_, named⟩]
        exact .noted ⟨some_, named⟩ (ih _ shorter rest rfl)
      | none =>
        rw [namesIn_cons, leading]
        exact .passed (leadingName?_eq_none.1 leading) (ih _ (by simp) text rfl)

/-- There is one way for the scan to go, and it notes the names in the text. -/
theorem scanned_iff : Scanned text names ↔ names = namesIn text := by
  constructor
  · intro scanned
    induction scanned with
    | nil => rfl
    | noted named _ ih => rw [namesIn_token_append named, ih]
    | passed other _ ih =>
      rw [namesIn_cons, leadingName?_eq_none.2 other, ih]
      rfl
  · rintro rfl
    exact scanned_namesIn text

/-! ## First occurrences -/

/-- The left token occurs in the text, and its first occurrence begins before every occurrence of the
right one. -/
def Precedes (text left right : List Char) : Prop :=
  ∃ front, front ++ left <+: text ∧
    ∀ other, other ++ right <+: text → front.length < other.length

section Occurrences

variable {c : Char} {left right : List Char}

theorem Precedes.irrefl : ¬ Precedes text left left := by
  rintro ⟨front, occurs, first⟩
  exact Nat.lt_irrefl _ (first front occurs)

theorem precedes_of_prefix (starts : left <+: text) (absent : ¬ right <+: text) :
    Precedes text left right := by
  refine ⟨[], starts, fun other occurs => List.length_pos_iff.2 ?_⟩
  rintro rfl
  exact absent occurs

theorem Precedes.cons (absent : ¬ right <+: c :: text) (precedes : Precedes text left right) :
    Precedes (c :: text) left right := by
  obtain ⟨front, occurs, first⟩ := precedes
  refine ⟨c :: front, List.cons_prefix_cons.2 ⟨rfl, occurs⟩, fun other later => ?_⟩
  cases other with
  | nil => exact absurd later absent
  | cons d other =>
    have shorter := first other (List.cons_prefix_cons.1 later).2
    simpa using shorter

end Occurrences

/-- Of the names in a text, the first appearances stand in the order of the first occurrences. -/
theorem pairwise_precedes (text : List Char) :
    ((namesIn text).map String.ofList).eraseDups.Pairwise fun left right =>
      Precedes text (token left.toList) (token right.toList) := by
  induction text with
  | nil => exact List.Pairwise.nil
  | cons c text ih =>
    -- a name that is found later does not start here as well, unless it is the one that does
    have absent : ∀ other ∈ ((namesIn text).map String.ofList).eraseDups,
        leadingName? (c :: text) ≠ some other.toList → ¬ token other.toList <+: c :: text := by
      intro other member unread starts
      obtain ⟨chars, found, rfl⟩ := List.mem_map.1 (List.mem_eraseDups.1 member)
      rw [String.toList_ofList] at unread starts
      obtain ⟨some_, named, -⟩ := mem_namesIn.1 found
      exact unread (leadingName?_eq_some.2 ⟨some_, named, starts⟩)
    rw [namesIn_cons]
    cases leading : leadingName? (c :: text) with
    | none =>
      refine ih.imp_of_mem fun _ rightMember precedes => precedes.cons ?_
      exact absent _ rightMember (by simp [leading])
    | some name =>
      have starts : token name <+: c :: text := (leadingName?_eq_some.1 leading).2.2
      have others : ∀ other ∈ (((namesIn text).map String.ofList).eraseDups.filter
          fun other => !other == String.ofList name), ¬ token other.toList <+: c :: text := by
        intro other member
        obtain ⟨found, differs⟩ := List.mem_filter.1 member
        refine absent other found fun same => ?_
        obtain rfl := Option.some.inj (leading.symm.trans same)
        simp at differs
      rw [Option.toList_some, List.singleton_append, List.map_cons, List.eraseDups_cons,
        ← filter_eraseDups, List.pairwise_cons, String.toList_ofList]
      refine ⟨fun other member => precedes_of_prefix starts (others other member), ?_⟩
      refine (ih.filter _).imp_of_mem fun _ rightMember precedes => precedes.cons ?_
      exact others _ rightMember

/-! ## The names of a text -/

/-- The placeholders of a text are those that one scan comes upon, and these are all: a name is listed
if and only if it is not empty, has no brace in it and its token stands anywhere in the text.  None is
listed twice, and they are listed in the order of their first occurrences.  So a row of such names of
which none is listed for a line leaves the line as it is. -/
theorem placeholders_exact (text : String) :
    (∃ names, Scanned text.toList names) ∧
    (∀ names, Scanned text.toList names →
      placeholders text = (names.map String.ofList).eraseDups) ∧
    (∀ name, name ∈ placeholders text ↔
      name ≠ "" ∧ Unbraced name ∧ token name.toList <:+: text.toList) ∧
    (placeholders text).Nodup ∧
    (placeholders text).Pairwise (fun left right =>
      Precedes text.toList (token left.toList) (token right.toList)) ∧
    ∀ row : Row, (∀ name ∈ row.names, name ≠ "" ∧ Unbraced name) →
      (∀ name ∈ row.names, name ∉ placeholders text) → substitute row text = text := by
  have ordered : (placeholders text).Pairwise fun left right =>
      Precedes text.toList (token left.toList) (token right.toList) := pairwise_precedes text.toList
  refine ⟨⟨_, scanned_namesIn text.toList⟩, ?_, fun name => mem_placeholders, ?_, ordered, ?_⟩
  · intro names scanned
    rw [scanned_iff.1 scanned, placeholders]
  · refine ordered.imp fun precedes => ?_
    rintro rfl
    exact precedes.irrefl
  · intro row named unlisted
    have settled : Settled row.fields text.toList := by
      intro field member inside
      have inRow : field.1 ∈ row.names := List.mem_map_of_mem member
      obtain ⟨some_, unbraced⟩ := named field.1 inRow
      exact unlisted field.1 inRow (mem_placeholders.2 ⟨some_, unbraced, inside⟩)
    rw [substitute, fill_eq, foldl_replaceField_of_settled settled, String.ofList_toList]

/-- Runs of three braces, an opening that is not closed before the next one, an empty name and a name
that occurs twice.  The first name of the row stands in the text, but not between braces of its own. -/
theorem placeholders_exact_braces :
    Scanned "\x7b{{a}}\x7d \x7b\x7bb {{c}} \x7b\x7b\x7d\x7d {{a}}".toList [['a'], ['c'], ['a']] ∧
    placeholders "\x7b{{a}}\x7d \x7b\x7bb {{c}} \x7b\x7b\x7d\x7d {{a}}" = ["a", "c"] ∧
    (∀ name ∈ (Row.ofPairs [("b", "x"), ("d", "y")]).names, name ≠ "" ∧ Unbraced name) ∧
    (∀ name ∈ (Row.ofPairs [("b", "x"), ("d", "y")]).names,
      name ∉ placeholders "\x7b{{a}}\x7d \x7b\x7bb {{c}} \x7b\x7b\x7d\x7d {{a}}") ∧
    substitute (.ofPairs [("b", "x"), ("d", "y")])
        "\x7b{{a}}\x7d \x7b\x7bb {{c}} \x7b\x7b\x7d\x7d {{a}}" =
      "\x7b{{a}}\x7d \x7b\x7bb {{c}} \x7b\x7b\x7d\x7d {{a}}" := by
  obtain ⟨-, found, -, -, -, unchanged⟩ :=
    placeholders_exact "\x7b{{a}}\x7d \x7b\x7bb {{c}} \x7b\x7b\x7d\x7d {{a}}"
  have scanned : Scanned "\x7b{{a}}\x7d \x7b\x7bb {{c}} \x7b\x7b\x7d\x7d {{a}}".toList
      [['a'], ['c'], ['a']] := scanned_iff.2 (by decide +kernel)
  have named : ∀ name ∈ (Row.ofPairs [("b", "x"), ("d", "y")]).names, name ≠ "" ∧ Unbraced name := by
    decide +kernel
  have unlisted : ∀ name ∈ (Row.ofPairs [("b", "x"), ("d", "y")]).names,
      name ∉ placeholders "\x7b{{a}}\x7d \x7b\x7bb {{c}} \x7b\x7b\x7d\x7d {{a}}" := by
    decide +kernel
  exact ⟨scanned, (found _ scanned).trans (by decide +kernel), named, unlisted,
    unchanged _ named unlisted⟩

end MailMerge.Template
