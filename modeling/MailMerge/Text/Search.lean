/-!
# Searching and replacing

Literal search in a text, and the replacement of every occurrence of a token.  Occurrences are taken
from the left and do not overlap: the search goes on behind the token that was replaced, so neither
the inserted value nor a part of the replaced token is searched again.

The two equations `replaceAll_append` and `replaceAll_cons` say all there is to know: where the text
begins with the token the value is written and the token skipped, and elsewhere one character is
copied.
-/

namespace MailMerge

set_option autoImplicit false

/-- Whether the token stands somewhere in the text. -/
def occursIn (token : List Char) : List Char → Bool
  | [] => token.isEmpty
  | c :: text => token.isPrefixOf (c :: text) || occursIn token text

/-- Replacement with the first `skip` characters left out, because they belong to a token that was
replaced already. -/
def replaceFrom (token value : List Char) : Nat → List Char → List Char
  | _, [] => []
  | 0, c :: text =>
    if token.isPrefixOf (c :: text) then value ++ replaceFrom token value (token.length - 1) text
    else c :: replaceFrom token value 0 text
  | skip + 1, _ :: text => replaceFrom token value skip text

/-- The text with every occurrence of a nonempty token replaced by the value. -/
def replaceAll (token value text : List Char) : List Char := replaceFrom token value 0 text

theorem replaceFrom_eq (token value : List Char) (skip : Nat) (text : List Char) :
    replaceFrom token value skip text = replaceAll token value (text.drop skip) := by
  induction skip generalizing text with
  | zero => rfl
  | succ skip ih =>
    cases text with
    | nil => simp [replaceFrom, replaceAll]
    | cons c text => simpa [replaceFrom] using ih text

@[simp] theorem replaceAll_nil (token value : List Char) : replaceAll token value [] = [] := rfl

/-- A token at the start of the text is skipped and its value written. -/
theorem replaceAll_append {token : List Char} (nonempty : token ≠ []) (value text : List Char) :
    replaceAll token value (token ++ text) = value ++ replaceAll token value text := by
  cases token with
  | nil => exact absurd rfl nonempty
  | cons t token =>
    have starts : (t :: token).isPrefixOf (t :: (token ++ text)) = true := by
      simp [List.isPrefixOf_iff_prefix]
    simp only [replaceAll, List.cons_append, replaceFrom, if_pos starts]
    rw [replaceFrom_eq]
    simp [replaceAll]

/-- Where no token starts, a character is copied. -/
theorem replaceAll_cons {token : List Char} {c : Char} {text : List Char}
    (other : ¬ token <+: c :: text) (value : List Char) :
    replaceAll token value (c :: text) = c :: replaceAll token value text := by
  have differs : token.isPrefixOf (c :: text) = false := by
    cases h : token.isPrefixOf (c :: text) with
    | false => rfl
    | true => exact absurd (List.isPrefixOf_iff_prefix.1 h) other
  simp [replaceAll, replaceFrom, differs]

end MailMerge
