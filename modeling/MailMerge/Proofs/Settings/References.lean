import Mathlib.Data.List.TakeWhile
import MailMerge.Settings.Variables

/-!
# Where the references of a text are

A text is divided at its references in one way only.  The first of them is the leftmost place where
the text goes on with `${`, some characters other than a closing brace and that brace; the next one is
looked for in what is behind it (`Divided`).  `pieces_of_divided` and `divided_gather` show that this is
how `cut` goes through the text, although it looks at one character after the other.

What decides whether a reference is found is the text in front of it.  An opening `${` that is not
closed there takes everything up to the brace of the reference as its name; without one, the text in
front is cut as if it stood alone (`cut_append`, `cut_append_of_unclosed`).
-/

namespace MailMerge.Variables

set_option autoImplicit false

variable {text before after name behind last : List Char} {cuts : List (List Char × List Char)}

/-! ## References at the beginning of a text -/

/-- What may stand between the braces of a reference. -/
structure IsName (name : List Char) : Prop where
  ne_nil : name ≠ []
  not_mem : '}' ∉ name

/-- The text begins with a reference. -/
def Refers (text : List Char) : Prop := ∃ name, IsName name ∧ (Piece.reference name).source <+: text

theorem leadingReference?_eq_some_iff :
    leadingReference? text = some (name, behind) ↔
      IsName name ∧ text = (Piece.reference name).source ++ behind := by
  constructor
  · intro found
    unfold leadingReference? at found
    split at found
    next rest =>
      dsimp only at found
      split at found
      next => cases found
      next both =>
        obtain ⟨rfl, rfl⟩ := Prod.mk.inj (Option.some.inj found)
        simp only [Bool.or_eq_true, List.isEmpty_iff, not_or] at both
        have inner : '}' ∉ rest.takeWhile (· != '}') := by
          intro member
          simpa using List.mem_takeWhile_imp member
        have closed : (rest.dropWhile (· != '}')).head both.2 = '}' := by
          simpa using List.head_dropWhile_not (· != '}') both.2
        refine ⟨⟨both.1, inner⟩, ?_⟩
        have whole := List.takeWhile_append_dropWhile (p := (· != '}')) (l := rest)
        rw [← List.cons_head_tail both.2, closed] at whole
        simp [Piece.source, whole]
    next => cases found
  · rintro ⟨named, rfl⟩
    have passed : ∀ c ∈ name, (c != '}') = true := by
      intro c member
      simpa using fun same : c = '}' => named.not_mem (same ▸ member)
    have taken : (name ++ '}' :: behind).takeWhile (· != '}') = name := by
      simp [List.takeWhile_append_of_pos passed]
    have left : (name ++ '}' :: behind).dropWhile (· != '}') = '}' :: behind := by
      simp [List.dropWhile_append_of_pos passed]
    simp [leadingReference?, Piece.source, taken, left, named.ne_nil]

theorem leadingReference?_eq_none_iff : leadingReference? text = none ↔ ¬ Refers text := by
  rw [Option.eq_none_iff_forall_ne_some]
  constructor
  · rintro other ⟨name, named, behind, whole⟩
    exact other (name, behind) (leadingReference?_eq_some_iff.2 ⟨named, whole.symm⟩)
  · rintro other ⟨name, behind⟩ found
    obtain ⟨named, rfl⟩ := leadingReference?_eq_some_iff.1 found
    exact other ⟨name, named, List.prefix_append _ _⟩

@[simp] theorem cut_nil : cut [] = [] := by
  rw [cut]
  split
  next found => simp [leadingReference?] at found
  next => rfl

theorem cut_reference (named : IsName name) (behind : List Char) :
    cut ((Piece.reference name).source ++ behind) = .reference name :: cut behind := by
  have leading : leadingReference? ((Piece.reference name).source ++ behind) = some (name, behind) :=
    leadingReference?_eq_some_iff.2 ⟨named, rfl⟩
  rw [cut]
  split
  next found =>
    obtain ⟨rfl, rfl⟩ := Prod.mk.inj (Option.some.inj (leading.symm.trans found))
    rfl
  next other => cases leading.symm.trans other

theorem cut_char {c : Char} (other : ¬ Refers (c :: text)) : cut (c :: text) = .char c :: cut text := by
  have leading : leadingReference? (c :: text) = none := leadingReference?_eq_none_iff.2 other
  rw [cut]
  split
  next found => cases leading.symm.trans found
  next => rfl

/-! ## The division of a text -/

/-- The text divided from left to right at each leftmost reference: what is copied in front of each
one together with its name, and what is left behind the last one. -/
inductive Divided : List Char → List (List Char × List Char) → List Char → Prop where
  | rest {text : List Char} : (∀ part, part <:+ text → ¬ Refers part) → Divided text [] text
  | reference {copied name behind last : List Char} {cuts : List (List Char × List Char)} :
      (∀ part, part ≠ [] → part <:+ copied →
        ¬ Refers (part ++ (Piece.reference name).source ++ behind)) →
      IsName name → Divided behind cuts last →
      Divided (copied ++ (Piece.reference name).source ++ behind) ((copied, name) :: cuts) last

/-- What takes the place of a reference: the value of its variable, or else what is written. -/
def standIn (value? : String → Option String) (name : List Char) : List Char :=
  (value? (.ofList name)).elim (Piece.reference name).source String.toList

theorem expand_reference (value? : String → Option String) (name : List Char) :
    (Piece.reference name).expand value? = standIn value? name := by
  rw [Piece.expand, standIn]
  cases value? (.ofList name) <;> rfl

/-- The text of a division with the values of some variables in the places of its references. -/
def rejoin (value? : String → Option String) (cuts : List (List Char × List Char))
    (last : List Char) : List Char :=
  cuts.flatMap (fun part => part.1 ++ standIn value? part.2) ++ last

/-- The pieces of a division. -/
def pieces (cuts : List (List Char × List Char)) (last : List Char) : List Piece :=
  cuts.flatMap (fun part => part.1.map .char ++ [.reference part.2]) ++ last.map .char

/-- The division that has these pieces. -/
def gather : List Piece → List (List Char × List Char) × List Char
  | [] => ([], [])
  | .char c :: rest =>
    match gather rest with
    | ([], last) => ([], c :: last)
    | ((copied, name) :: cuts, last) => ((c :: copied, name) :: cuts, last)
  | .reference name :: rest => (([], name) :: (gather rest).1, (gather rest).2)

theorem pieces_cons (copied name : List Char) (cuts : List (List Char × List Char))
    (last : List Char) : pieces ((copied, name) :: cuts) last =
      copied.map .char ++ .reference name :: pieces cuts last := by
  simp [pieces]

theorem gather_pieces (cuts : List (List Char × List Char)) (last : List Char) :
    gather (pieces cuts last) = (cuts, last) := by
  induction cuts with
  | nil =>
    induction last with
    | nil => rfl
    | cons c last ih =>
      have later : gather (last.map .char) = ([], last) := ih
      simp [pieces, gather, later]
  | cons part cuts ih =>
    obtain ⟨copied, name⟩ := part
    rw [pieces_cons]
    induction copied with
    | nil => simp [gather, ih]
    | cons c copied further => simp [gather, further]

/-- In front of the next reference the characters are passed over one by one. -/
theorem cut_append_of_passed {copied rest : List Char}
    (passed : ∀ part, part ≠ [] → part <:+ copied → ¬ Refers (part ++ rest)) :
    cut (copied ++ rest) = copied.map .char ++ cut rest := by
  induction copied with
  | nil => rfl
  | cons c copied ih =>
    have here : ¬ Refers (c :: (copied ++ rest)) := passed (c :: copied) (by simp) List.suffix_rfl
    have later : ∀ part, part ≠ [] → part <:+ copied → ¬ Refers (part ++ rest) := by
      intro part nonempty suffix
      exact passed part nonempty (List.suffix_cons_iff.2 (.inr suffix))
    rw [List.cons_append, cut_char here, ih later]
    rfl

theorem pieces_of_divided (divided : Divided text cuts last) : cut text = pieces cuts last := by
  induction divided with
  | @rest text none =>
    have passed : ∀ part, part ≠ [] → part <:+ text → ¬ Refers (part ++ []) := by
      intro part _ suffix
      rw [List.append_nil]
      exact none part suffix
    simpa [pieces] using cut_append_of_passed passed
  | @reference copied name behind _ _ first named _ ih =>
    have passed : ∀ part, part ≠ [] → part <:+ copied →
        ¬ Refers (part ++ ((Piece.reference name).source ++ behind)) := by
      intro part nonempty suffix
      rw [← List.append_assoc]
      exact first part nonempty suffix
    rw [List.append_assoc, cut_append_of_passed passed, cut_reference named, ih, pieces_cons]

/-- A character at which no reference begins is copied in front of what comes next. -/
theorem Divided.char {c : Char} {cut : List Piece} (other : ¬ Refers (c :: text))
    (divided : Divided text (gather cut).1 (gather cut).2) :
    Divided (c :: text) (gather (.char c :: cut)).1 (gather (.char c :: cut)).2 := by
  rw [gather]
  generalize gather cut = division at divided
  obtain ⟨cuts, last⟩ := division
  cases divided with
  | rest none =>
    apply Divided.rest
    intro part suffix
    rcases List.suffix_cons_iff.1 suffix with rfl | later
    · exact other
    · exact none part later
  | @reference copied name behind _ cuts first named divided =>
    have passed : ∀ part, part ≠ [] → part <:+ c :: copied →
        ¬ Refers (part ++ (Piece.reference name).source ++ behind) := by
      intro part nonempty suffix
      rcases List.suffix_cons_iff.1 suffix with rfl | later
      · simpa using other
      · exact first part nonempty later
    exact .reference passed named divided

theorem divided_gather (text : List Char) :
    Divided text (gather (cut text)).1 (gather (cut text)).2 := by
  induction text using cut.induct with
  | case1 text name behind found ih =>
    obtain ⟨named, rfl⟩ := leadingReference?_eq_some_iff.1 found
    rw [cut_reference named]
    have passed : ∀ part, part ≠ [] → part <:+ [] →
        ¬ Refers (part ++ (Piece.reference name).source ++ behind) := by
      intro part nonempty suffix
      exact absurd (List.suffix_nil.1 suffix) nonempty
    exact .reference passed named ih
  | case2 found =>
    rw [cut_nil]
    apply Divided.rest
    intro part suffix
    rw [List.suffix_nil.1 suffix]
    exact leadingReference?_eq_none_iff.1 found
  | case3 c text found ih =>
    have other := leadingReference?_eq_none_iff.1 found
    rw [cut_char other]
    exact ih.char other

/-- There is one division of a text. -/
theorem divided_iff : Divided text cuts last ↔ (cuts, last) = gather (cut text) := by
  constructor
  · intro divided
    rw [pieces_of_divided divided, gather_pieces]
  · intro same
    have divided := divided_gather text
    rw [← same] at divided
    exact divided

theorem flatMap_expand_pieces (value? : String → Option String)
    (cuts : List (List Char × List Char)) (last : List Char) :
    (pieces cuts last).flatMap (Piece.expand value?) = rejoin value? cuts last := by
  have copied : ∀ chars : List Char, (chars.map Piece.char).flatMap (Piece.expand value?) = chars := by
    intro chars
    induction chars with
    | nil => rfl
    | cons c chars ih => simp [Piece.expand, ih]
  induction cuts with
  | nil => simp [pieces, rejoin, copied]
  | cons part cuts ih =>
    obtain ⟨before, name⟩ := part
    rw [pieces_cons, List.flatMap_append, copied, List.flatMap_cons, ih, expand_reference]
    simp [rejoin]

/-- Without any values the division gives the text back. -/
theorem Divided.rejoin_eq {value? : String → Option String} (divided : Divided text cuts last)
    (unset : ∀ part ∈ cuts, value? (.ofList part.2) = none) : rejoin value? cuts last = text := by
  induction divided with
  | rest => rfl
  | @reference copied name behind last cuts _ _ _ ih =>
    obtain ⟨here, later⟩ := List.forall_mem_cons.1 unset
    have kept : standIn value? name = (Piece.reference name).source := by
      rw [standIn, here, Option.elim_none]
    have again := ih later
    simp only [rejoin, List.flatMap_cons, List.append_assoc] at again ⊢
    rw [again, kept]

/-! ## What is in front of a reference -/

/-- The text has an opening `${` that is not closed in it. -/
def Unclosed (text : List Char) : Prop :=
  ∃ left inner, text = left ++ '$' :: '{' :: inner ∧ '}' ∉ inner

theorem Unclosed.append {text : List Char} (unclosed : Unclosed text) (front : List Char) :
    Unclosed (front ++ text) := by
  obtain ⟨left, inner, rfl, closed⟩ := unclosed
  exact ⟨front ++ left, inner, (List.append_assoc ..).symm, closed⟩

/-- A reference that begins in a text which goes on with `$` ends in that text or was opened there. -/
theorem refers_or_unclosed_of_append {part rest : List Char} (nonempty : part ≠ [])
    (refers : Refers (part ++ '$' :: rest)) : Refers part ∨ Unclosed part := by
  obtain ⟨name, named, behind, whole⟩ := refers
  rcases List.append_eq_append_iff.1 whole with ⟨more, same, -⟩ | ⟨more, same, further⟩
  · exact .inl ⟨name, named, more, same.symm⟩
  · cases more with
    | nil => exact .inl ⟨name, named, [], by simpa using same⟩
    | cons c more =>
      obtain ⟨rfl, -⟩ := List.cons_eq_cons.1 further
      right
      match part, nonempty, same with
      | [c], _, same => simp [Piece.source] at same
      | c :: d :: inner, _, same =>
        simp only [Piece.source, List.cons_append, List.cons.injEq] at same
        obtain ⟨rfl, rfl, ends⟩ := same
        refine ⟨[], inner, rfl, ?_⟩
        intro member
        rcases List.append_eq_append_iff.1 ends with ⟨more', same, left⟩ | ⟨more', same, -⟩
        · cases more' <;> simp at left
        · exact named.not_mem (same ▸ List.mem_append_left _ member)

/-- Behind a text without an unclosed opening, what begins with `$` is cut as if it stood alone. -/
theorem cut_append (closed : ¬ Unclosed before) (rest : List Char) :
    cut (before ++ '$' :: rest) = cut before ++ cut ('$' :: rest) := by
  induction before using cut.induct with
  | case1 before name behind found ih =>
    obtain ⟨named, rfl⟩ := leadingReference?_eq_some_iff.1 found
    have later : ¬ Unclosed behind := by
      intro unclosed
      exact closed (unclosed.append _)
    rw [List.append_assoc, cut_reference named, cut_reference named, ih later]
    rfl
  | case2 => simp
  | case3 c before found ih =>
    have other := leadingReference?_eq_none_iff.1 found
    have further : ¬ Refers (c :: (before ++ '$' :: rest)) := by
      intro refers
      rw [← List.cons_append] at refers
      rcases refers_or_unclosed_of_append (by simp) refers with within | unclosed
      · exact other within
      · exact closed unclosed
    have later : ¬ Unclosed before := by
      intro unclosed
      exact closed (unclosed.append [c])
    rw [cut_char other, List.cons_append, cut_char further, ih later]
    rfl

theorem cut_append_reference (closed : ¬ Unclosed before) (named : IsName name) (after : List Char) :
    cut (before ++ (Piece.reference name).source ++ after) =
      cut before ++ .reference name :: cut after := by
  rw [List.append_assoc, ← cut_reference named]
  exact cut_append closed _

/-- Of the openings that are not closed one is the first. -/
theorem Unclosed.exists_first (unclosed : Unclosed before) :
    ∃ left inner, before = left ++ '$' :: '{' :: inner ∧ '}' ∉ inner ∧ ¬ Unclosed left := by
  obtain ⟨left, inner, same, closed⟩ := unclosed
  -- an opening further to the left is not closed up to the end of the text either
  induction size : left.length using Nat.strongRecOn generalizing left inner with
  | ind count ih =>
    by_cases earlier : Unclosed left
    · obtain ⟨first, between, rfl, open_⟩ := earlier
      refine ih first.length (by simp [← size]) first (between ++ '$' :: '{' :: inner) ?_ ?_ rfl
      · simp [same]
      · simp [open_, closed]
    · exact ⟨left, inner, same, closed, earlier⟩

/-- Behind an opening that is not closed, a reference is the end of a longer name. -/
theorem cut_append_of_unclosed {left inner : List Char} (first : ¬ Unclosed left)
    (open_ : '}' ∉ inner) (named : IsName name) (after : List Char) :
    cut (left ++ '$' :: '{' :: inner ++ (Piece.reference name).source ++ after) =
      cut left ++ .reference (inner ++ '$' :: '{' :: name) :: cut after := by
  have longer : IsName (inner ++ '$' :: '{' :: name) :=
    ⟨by simp, by simp [open_, named.not_mem]⟩
  have whole : left ++ '$' :: '{' :: inner ++ (Piece.reference name).source ++ after =
      left ++ '$' :: ('{' :: (inner ++ '$' :: '{' :: name) ++ '}' :: after) := by
    simp [Piece.source]
  rw [whole, cut_append first, ← cut_reference longer]
  simp [Piece.source]

/-- The pieces put together are the text. -/
theorem flatMap_source_cut (text : List Char) : (cut text).flatMap Piece.source = text := by
  induction text using cut.induct with
  | case1 text name behind found ih =>
    obtain ⟨named, rfl⟩ := leadingReference?_eq_some_iff.1 found
    rw [cut_reference named, List.flatMap_cons, ih]
  | case2 => simp
  | case3 c text found ih =>
    rw [cut_char (leadingReference?_eq_none_iff.1 found), List.flatMap_cons, ih]
    rfl

/-- The reference that stands between the two texts is one of those that are cut out. -/
def CutOut (before name after : List Char) : Prop :=
  ∃ left right, cut (before ++ (Piece.reference name).source ++ after) =
    left ++ .reference name :: right ∧ left.flatMap Piece.source = before

theorem cutOut_iff (named : IsName name) : CutOut before name after ↔ ¬ Unclosed before := by
  constructor
  · rintro ⟨left, right, whole, front⟩ unclosed
    obtain ⟨first, inner, rfl, open_, closed⟩ := unclosed.exists_first
    rw [cut_append_of_unclosed closed open_ named] at whole
    -- the longer reference begins before the place where this one should
    have size := congrArg List.length front
    rcases List.append_eq_append_iff.1 whole with ⟨more, rfl, same⟩ | ⟨more, same, -⟩
    · cases more with
      | nil => simp [flatMap_source_cut] at size
      | cons piece more =>
        obtain ⟨rfl, -⟩ := List.cons_eq_cons.1 same
        simp [flatMap_source_cut, Piece.source] at size
    · have shorter := congrArg (List.length ∘ List.flatMap Piece.source) same
      simp [flatMap_source_cut] at shorter size
      omega
  · intro closed
    exact ⟨cut before, cut after, cut_append_reference closed named after, flatMap_source_cut before⟩

end MailMerge.Variables
