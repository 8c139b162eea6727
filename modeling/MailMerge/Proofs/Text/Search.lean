import Mathlib.Data.List.Infix
import MailMerge.Text.Search

/-!
# What is found and what is replaced

The search finds a token exactly when the token is an infix of the text (`occursIn_iff`).  A text
without the token is not changed by a replacement (`replaceAll_of_absent`), and a replacement
copies the beginning of a text as long as no occurrence starts there (`replaceAll_append_of_apart`).
Where no occurrence reaches from one part of a text into the next, the parts are replaced one by one
(`replaceAll_append_of_unspanned`).
-/

namespace MailMerge

set_option autoImplicit false

theorem occursIn_iff {token text : List Char} : occursIn token text = true ↔ token <:+: text := by
  induction text with
  | nil => simp [occursIn]
  | cons c text ih =>
    simp only [occursIn, Bool.or_eq_true, List.isPrefixOf_iff_prefix, ih]
    exact List.infix_cons_iff.symm

/-- Replacing what does not occur changes nothing. -/
theorem replaceAll_of_absent {token text : List Char} (absent : ¬ token <:+: text)
    (value : List Char) : replaceAll token value text = text := by
  induction text with
  | nil => rfl
  | cons c text ih =>
    rw [replaceAll_cons (fun starts => absent starts.isInfix) value,
      ih fun inside => absent (List.infix_cons inside)]

/-- As far as no occurrence of the token starts, the text is copied. -/
theorem replaceAll_append_of_apart {token copied : List Char} {text : List Char}
    (apart : ∀ part, part ≠ [] → part <:+ copied → ¬ token <+: part ++ text) (value : List Char) :
    replaceAll token value (copied ++ text) = copied ++ replaceAll token value text := by
  induction copied with
  | nil => rfl
  | cons c copied ih =>
    have here : ¬ token <+: c :: (copied ++ text) :=
      apart (c :: copied) (by simp) (List.suffix_refl _)
    have later : ∀ part, part ≠ [] → part <:+ copied → ¬ token <+: part ++ text := by
      intro part nonempty suffix
      exact apart part nonempty (List.suffix_cons_iff.2 (.inr suffix))
    rw [List.cons_append, replaceAll_cons here, ih later, List.cons_append]

/-! ## Texts in parts -/

/-- No occurrence of the token begins in the left part of a text and ends in the right one. -/
def Unspanned (token left right : List Char) : Prop :=
  ∀ front back, token = front ++ back → front ≠ [] → back ≠ [] → front <:+ left → ¬ back <+: right

theorem Unspanned.of_suffix {token left later right : List Char} (suffix : later <:+ left)
    (unspanned : Unspanned token left right) : Unspanned token later right :=
  fun front back whole some_ more ends => unspanned front back whole some_ more (ends.trans suffix)

/-- A token that a text of two parts begins with is in the left one. -/
theorem Unspanned.prefix_left {token left right : List Char} (some_ : left ≠ [])
    (unspanned : Unspanned token left right) (starts : token <+: left ++ right) :
    token <+: left := by
  obtain ⟨more, same⟩ := starts
  rcases List.append_eq_append_iff.1 same with ⟨beyond, within, _⟩ | ⟨back, whole, rest⟩
  · exact ⟨beyond, within.symm⟩
  · by_cases last : back = []
    · exact ⟨[], by rw [whole, last, List.append_nil, List.append_nil]⟩
    · exact absurd ⟨more, rest.symm⟩ (unspanned left back whole some_ last (List.suffix_refl _))

/-- If no occurrence reaches from the left part into the right one, each is replaced by itself. -/
theorem replaceAll_append_of_unspanned {token left right : List Char} (nonempty : token ≠ [])
    (unspanned : Unspanned token left right) (value : List Char) :
    replaceAll token value (left ++ right) =
      replaceAll token value left ++ replaceAll token value right := by
  induction size : left.length using Nat.strongRecOn generalizing left with
  | ind count ih =>
    by_cases starts : token <+: left
    · obtain ⟨later, rfl⟩ := starts
      have shorter : later.length < count := by
        have := List.length_pos_iff.2 nonempty
        rw [← size, List.length_append]
        omega
      have rest := ih _ shorter (unspanned.of_suffix (List.suffix_append _ _)) rfl
      rw [List.append_assoc, replaceAll_append nonempty, replaceAll_append nonempty, rest,
        List.append_assoc]
    · cases left with
      | nil => rfl
      | cons c left =>
        have here : ¬ token <+: c :: (left ++ right) :=
          fun begins => starts (unspanned.prefix_left (by simp) begins)
        have rest := ih left.length (by rw [← size]; simp)
          (unspanned.of_suffix (List.suffix_cons c left)) rfl
        rw [List.cons_append, replaceAll_cons here, replaceAll_cons starts, rest, List.cons_append]

/-! ## Characters -/

theorem mem_replaceFrom {token value text : List Char} {skip : Nat} {c : Char}
    (member : c ∈ replaceFrom token value skip text) : c ∈ value ∨ c ∈ text := by
  induction text generalizing skip with
  | nil => cases skip <;> simp [replaceFrom] at member
  | cons d text ih =>
    cases skip with
    | zero =>
      rw [replaceFrom] at member
      split at member
      · rcases List.mem_append.1 member with inserted | later
        · exact .inl inserted
        · exact (ih later).imp_right (List.mem_cons_of_mem d)
      · rcases List.mem_cons.1 member with rfl | later
        · exact .inr List.mem_cons_self
        · exact (ih later).imp_right (List.mem_cons_of_mem d)
    | succ skip => exact (ih member).imp_right (List.mem_cons_of_mem d)

/-- A replacement brings no character about that is neither in the value nor in the text. -/
theorem mem_replaceAll {token value text : List Char} {c : Char}
    (member : c ∈ replaceAll token value text) : c ∈ value ∨ c ∈ text :=
  mem_replaceFrom member

end MailMerge
