import Mathlib.Tactic.SplitIfs
import Mathlib.Tactic.ByContra
import MailMerge.Destination

/-!
# What the pieces of a text are made of

Cutting octets into pieces loses nothing: every character among the pieces stands for exactly the
octets that encode it, and every other piece for octets none of which is an ASCII character
(`cut_pieces`).  So the stand-in that is shown for octets which are no text agrees with them in all
ASCII characters (`mem_of_mem_cleaned`), and when it has no other characters it is the text itself
(`cleaned_eq_self`).
-/

namespace MailMerge.Utf8

set_option autoImplicit false

/-! ## Characters of one octet and of several -/

theorem encodeChar_ne_nil (c : Char) : encodeChar c ≠ [] := by
  unfold encodeChar encodePoint
  split_ifs <;> simp

theorem toNat_ofNat_of_valid {n : Nat} (valid : n.isValidChar) : (Char.ofNat n).toNat = n := by
  rw [Char.ofNat, dif_pos valid]
  rfl

theorem ofNat_toNat_eq {n : Nat} {b : UInt8} (same : n = b.toNat) : UInt8.ofNat n = b := by
  simp [same]

theorem bounds_of_tail {b : UInt8} (tail : isTail b = true) : 0x80 ≤ b.toNat ∧ b.toNat ≤ 0xBF := by
  simpa [isTail, UInt8.le_iff_toNat_le] using tail

theorem bounds_of_within {low high b : UInt8} (inside : within low high b = true) :
    low.toNat ≤ b.toNat ∧ b.toNat ≤ high.toNat := by
  simpa [within, UInt8.le_iff_toNat_le] using inside

theorem bound_of_alone {b : UInt8} (alone : lead b = .alone) : b.toNat < 0x80 := by
  simp only [lead, UInt8.lt_iff_toNat_lt] at alone
  grind

theorem bounds_of_two {b : UInt8} (two : lead b = .two) : 0xC2 ≤ b.toNat ∧ b.toNat < 0xE0 := by
  simp only [lead, UInt8.lt_iff_toNat_lt] at two
  grind

/-- The octets that begin a character of three, with what they allow the second one to be. -/
theorem bounds_of_three {b low high : UInt8} (three : lead b = .three low high) :
    (b.toNat = 0xE0 ∧ low = 0xA0 ∧ high = 0xBF) ∨ (b.toNat = 0xED ∧ low = 0x80 ∧ high = 0x9F) ∨
      (0xE1 ≤ b.toNat ∧ b.toNat < 0xF0 ∧ b.toNat ≠ 0xED ∧ low = 0x80 ∧ high = 0xBF) := by
  simp only [lead, UInt8.lt_iff_toNat_lt, ← UInt8.toNat_inj] at three
  split_ifs at three <;> simp_all <;> omega

/-- The octets that begin a character of four, with what they allow the second one to be. -/
theorem bounds_of_four {b low high : UInt8} (four : lead b = .four low high) :
    (b.toNat = 0xF0 ∧ low = 0x90 ∧ high = 0xBF) ∨ (b.toNat = 0xF4 ∧ low = 0x80 ∧ high = 0x8F) ∨
      (0xF1 ≤ b.toNat ∧ b.toNat < 0xF4 ∧ low = 0x80 ∧ high = 0xBF) := by
  simp only [lead, UInt8.lt_iff_toNat_lt, ← UInt8.toNat_inj] at four
  split_ifs at four <;> simp_all <;> omega

/-- An octet that is a character by itself is the encoding of that character. -/
theorem encodeChar_of_alone {b : UInt8} (alone : lead b = .alone) :
    encodeChar (Char.ofNat b.toNat) = [b] := by
  have small := bound_of_alone alone
  rw [encodeChar, toNat_ofNat_of_valid (.inl (by omega)), encodePoint, if_pos small,
    ofNat_toNat_eq rfl]

theorem encodeChar_of_two {b c : UInt8} (two : lead b = .two) (second : isTail c = true) :
    encodeChar (Char.ofNat ((b.toNat - 0xC0) * 64 + payload c)) = [b, c] := by
  have hb := bounds_of_two two
  have hc := bounds_of_tail second
  unfold payload
  rw [encodeChar, toNat_ofNat_of_valid (.inl (by omega)), encodePoint, if_neg (by omega),
    if_pos (by omega), ofNat_toNat_eq (b := b) (by omega), ofNat_toNat_eq (b := c) (by omega)]

theorem encodeChar_of_three {b c d low high : UInt8} (three : lead b = .three low high)
    (second : within low high c = true) (third : isTail d = true) :
    encodeChar (Char.ofNat ((b.toNat - 0xE0) * 4096 + payload c * 64 + payload d)) = [b, c, d] := by
  have hb := bounds_of_three three
  have hc := bounds_of_within second
  have hd := bounds_of_tail third
  have range : 0xE0 ≤ b.toNat ∧ b.toNat < 0xF0 ∧ 0x80 ≤ c.toNat ∧ c.toNat ≤ 0xBF ∧
      (b.toNat = 0xE0 → 0xA0 ≤ c.toNat) ∧ (b.toNat = 0xED → c.toNat ≤ 0x9F) := by
    rcases hb with ⟨first, rfl, rfl⟩ | ⟨first, rfl, rfl⟩ | ⟨_, _, _, rfl, rfl⟩ <;>
      simp at hc <;> omega
  unfold payload
  rw [encodeChar, toNat_ofNat_of_valid (by unfold Nat.isValidChar; omega), encodePoint,
    if_neg (by omega), if_neg (by omega), if_pos (by omega), ofNat_toNat_eq (b := b) (by omega),
    ofNat_toNat_eq (b := c) (by omega), ofNat_toNat_eq (b := d) (by omega)]

theorem encodeChar_of_four {b c d e low high : UInt8} (four : lead b = .four low high)
    (second : within low high c = true) (third : isTail d = true) (fourth : isTail e = true) :
    encodeChar (Char.ofNat ((b.toNat - 0xF0) * 262144 + payload c * 4096 + payload d * 64 +
      payload e)) = [b, c, d, e] := by
  have hb := bounds_of_four four
  have hc := bounds_of_within second
  have hd := bounds_of_tail third
  have he := bounds_of_tail fourth
  have range : 0xF0 ≤ b.toNat ∧ b.toNat ≤ 0xF4 ∧ 0x80 ≤ c.toNat ∧ c.toNat ≤ 0xBF ∧
      (b.toNat = 0xF0 → 0x90 ≤ c.toNat) ∧ (b.toNat = 0xF4 → c.toNat ≤ 0x8F) := by
    rcases hb with ⟨first, rfl, rfl⟩ | ⟨first, rfl, rfl⟩ | ⟨_, _, rfl, rfl⟩ <;> simp at hc <;> omega
  unfold payload
  rw [encodeChar, toNat_ofNat_of_valid (by unfold Nat.isValidChar; omega), encodePoint,
    if_neg (by omega), if_neg (by omega), if_neg (by omega), ofNat_toNat_eq (b := b) (by omega),
    ofNat_toNat_eq (b := c) (by omega), ofNat_toNat_eq (b := d) (by omega),
    ofNat_toNat_eq (b := e) (by omega)]

/-! ## Cutting -/

/-- Octets cut into pieces: characters stand for their encodings, and what is no character is short
and has no ASCII character in it. -/
inductive Cut : Bytes → List Piece → Prop where
  | nil : Cut [] []
  | char {octets : Bytes} {rest : List Piece} (c : Char) :
      Cut octets rest → Cut (encodeChar c ++ octets) (.char c :: rest)
  | invalid {octets : Bytes} {rest : List Piece} (broken : Bytes) :
      broken.length ≤ 3 → (∀ b ∈ broken, 0x80 ≤ b.toNat) → Cut octets rest →
        Cut (broken ++ octets) (.invalid broken :: rest)
  | truncated (broken : Bytes) :
      broken.length ≤ 3 → (∀ b ∈ broken, 0x80 ≤ b.toNat) → Cut broken [.truncated broken]

theorem bound_of_not_alone {b : UInt8} (other : lead b ≠ .alone) : 0x80 ≤ b.toNat := by
  by_contra small
  refine other ?_
  simp only [lead, UInt8.lt_iff_toNat_lt]
  exact if_pos (by simpa using small)

theorem bound_of_three_within {b c low high : UInt8} (three : lead b = .three low high)
    (second : within low high c = true) : 0x80 ≤ c.toNat := by
  have hc := bounds_of_within second
  rcases bounds_of_three three with ⟨_, rfl, rfl⟩ | ⟨_, rfl, rfl⟩ | ⟨_, _, _, rfl, rfl⟩ <;>
    simp at hc <;> omega

theorem bound_of_four_within {b c low high : UInt8} (four : lead b = .four low high)
    (second : within low high c = true) : 0x80 ≤ c.toNat := by
  have hc := bounds_of_within second
  rcases bounds_of_four four with ⟨_, rfl, rfl⟩ | ⟨_, rfl, rfl⟩ | ⟨_, _, rfl, rfl⟩ <;>
    simp at hc <;> omega

/-- The octets of a character of three that are there have no ASCII character among them. -/
theorem bounds_of_three_within {b c low high : UInt8} (three : lead b = .three low high)
    (second : within low high c = true) : ∀ x ∈ [b, c], 0x80 ≤ x.toNat := by
  have first := bound_of_not_alone (show lead b ≠ .alone by simp [three])
  simpa using ⟨first, bound_of_three_within three second⟩

/-- The octets of a character of four that are there have no ASCII character among them. -/
theorem bounds_of_four_within {b c low high : UInt8} (four : lead b = .four low high)
    (second : within low high c = true) {rest : Bytes} (tails : ∀ x ∈ rest, isTail x = true) :
    ∀ x ∈ b :: c :: rest, 0x80 ≤ x.toNat := by
  have first := bound_of_not_alone (show lead b ≠ .alone by simp [four])
  have later := fun x member => (bounds_of_tail (tails x member)).1
  simpa using ⟨first, bound_of_four_within four second, later⟩

/-- An octet that begins a longer character, or none, is cut off by itself. -/
theorem Cut.first {octets : Bytes} {rest : List Piece} {b : UInt8} (other : lead b ≠ .alone)
    (cut : Cut octets rest) : Cut (b :: octets) (.invalid [b] :: rest) :=
  .invalid [b] (by simp) (by simpa using bound_of_not_alone other) cut

theorem Cut.last {b : UInt8} (other : lead b ≠ .alone) : Cut [b] [.truncated [b]] :=
  .truncated [b] (by simp) (by simpa using bound_of_not_alone other)

/-- The pieces of some octets are a way to cut them. -/
theorem cut_pieces (octets : Bytes) : Cut octets (pieces octets) := by
  induction octets using pieces.induct with
  | case1 => rw [pieces]; exact .nil
  | case2 b rest first ih =>
    rw [pieces.eq_def]
    simp only [first]
    have cut := Cut.char (Char.ofNat b.toNat) ih
    rwa [encodeChar_of_alone first] at cut
  | case3 b rest first ih =>
    rw [pieces.eq_def]
    simp only [first]
    exact ih.first (by simp [first])
  | case4 b first =>
    rw [pieces.eq_def]
    simp only [first]
    exact .last (by simp [first])
  | case5 b first c rest second ih =>
    rw [pieces.eq_def]
    simp only [first, second, if_true]
    have cut := Cut.char (Char.ofNat ((b.toNat - 0xC0) * 64 + payload c)) ih
    rwa [encodeChar_of_two first second] at cut
  | case6 b first c rest second ih =>
    rw [pieces.eq_def]
    simp only [first, second, Bool.false_eq_true, if_false]
    exact ih.first (by simp [first])
  | case7 b low high first =>
    rw [pieces.eq_def]
    simp only [first]
    exact .last (by simp [first])
  | case8 b low high first c second =>
    rw [pieces.eq_def]
    simp only [first, second, if_true]
    exact .truncated [b, c] (by simp) (bounds_of_three_within first second)
  | case9 b low high first c second d rest third ih =>
    rw [pieces.eq_def]
    simp only [first, second, third, if_true]
    have cut := Cut.char
      (Char.ofNat ((b.toNat - 0xE0) * 4096 + payload c * 64 + payload d)) ih
    rwa [encodeChar_of_three first second third] at cut
  | case10 b low high first c second d rest third ih =>
    rw [pieces.eq_def]
    simp only [first, second, third, if_true, Bool.false_eq_true, if_false]
    exact .invalid [b, c] (by simp) (bounds_of_three_within first second) ih
  | case11 b low high first c rest second ih =>
    rw [pieces.eq_def]
    simp only [first, second, Bool.false_eq_true, if_false]
    exact ih.first (by simp [first])
  | case12 b low high first =>
    rw [pieces.eq_def]
    simp only [first]
    exact .last (by simp [first])
  | case13 b low high first c second =>
    rw [pieces.eq_def]
    simp only [first, second, if_true]
    exact .truncated [b, c] (by simp) (bounds_of_four_within first second (by simp))
  | case14 b low high first c second d third =>
    rw [pieces.eq_def]
    simp only [first, second, third, if_true]
    exact .truncated [b, c, d] (by simp) (bounds_of_four_within first second (by simpa using third))
  | case15 b low high first c second d third e rest fourth ih =>
    rw [pieces.eq_def]
    simp only [first, second, third, fourth, if_true]
    have cut := Cut.char (Char.ofNat ((b.toNat - 0xF0) * 262144 + payload c * 4096 +
      payload d * 64 + payload e)) ih
    rwa [encodeChar_of_four first second third fourth] at cut
  | case16 b low high first c second d third e rest fourth ih =>
    rw [pieces.eq_def]
    simp only [first, second, third, fourth, if_true, Bool.false_eq_true, if_false]
    exact .invalid [b, c, d] (by simp) (bounds_of_four_within first second (by simpa using third)) ih
  | case17 b low high first c second d rest third ih =>
    rw [pieces.eq_def]
    simp only [first, second, third, if_true, Bool.false_eq_true, if_false]
    exact .invalid [b, c] (by simp) (bounds_of_four_within first second (by simp)) ih
  | case18 b low high first c rest second ih =>
    rw [pieces.eq_def]
    simp only [first, second, Bool.false_eq_true, if_false]
    exact ih.first (by simp [first])

/-! ## The stand-in for octets that are no text -/

/-- An octet of ASCII in the encoding of a character is the whole encoding. -/
theorem encodeChar_of_ascii_mem {c : Char} {b : UInt8} (member : b ∈ encodeChar c)
    (ascii : b.toNat < 0x80) : encodeChar c = [b] := by
  unfold encodeChar encodePoint at member ⊢
  have bound : c.toNat < 0x110000 := by
    have := c.valid
    unfold UInt32.isValidChar Nat.isValidChar at this
    have : c.toNat = c.val.toNat := rfl
    omega
  split_ifs at member ⊢ <;> simp only [List.mem_cons, List.not_mem_nil, or_false] at member
  · rw [member]
  all_goals
    rcases member with rfl | rfl | rfl | rfl <;> simp at ascii <;> omega

/-- The stand-in has no ASCII character in it. -/
theorem bound_of_mem_replacement {b : UInt8} (member : b ∈ encodeChar replacement) :
    0x80 ≤ b.toNat := by
  have octets : encodeChar replacement = [0xEF, 0xBF, 0xBD] := by decide
  rw [octets] at member
  simp only [List.mem_cons, List.not_mem_nil, or_false] at member
  rcases member with rfl | rfl | rfl <;> decide

theorem Cut.mem_of_mem_shown {octets : Bytes} {cut : List Piece} (way : Cut octets cut) {b : UInt8}
    (ascii : b.toNat < 0x80) (member : b ∈ encode (cut.map Piece.shown)) : b ∈ octets := by
  induction way with
  | nil => simp at member
  | char c _ ih =>
    rcases List.mem_append.1 member with here | later
    · exact List.mem_append_left _ here
    · exact List.mem_append_right _ (ih later)
  | invalid broken _ _ _ ih =>
    rcases List.mem_append.1 member with here | later
    · have := bound_of_mem_replacement here
      omega
    · exact List.mem_append_right _ (ih later)
  | truncated broken _ _ =>
    have := bound_of_mem_replacement (b := b) (by simpa [Piece.shown] using member)
    omega

theorem Cut.shown_eq_self {octets : Bytes} {cut : List Piece} (way : Cut octets cut)
    (ascii : ∀ b ∈ encode (cut.map Piece.shown), b.toNat < 0x80) :
    encode (cut.map Piece.shown) = octets := by
  have broken : ∀ rest : Bytes, ¬ ∀ b ∈ encodeChar replacement ++ rest, b.toNat < 0x80 := by
    intro rest all
    have := all 0xEF (List.mem_append_left _ (by decide))
    simp at this
  induction way with
  | nil => rfl
  | char c _ ih =>
    rw [List.map_cons, encode_cons, ih fun b member => ascii b (List.mem_append_right _ member)]
    rfl
  | invalid _ _ _ _ _ => exact absurd ascii (broken _)
  | truncated _ _ _ => exact absurd ascii (broken _)

theorem Cut.length_le_shown {octets : Bytes} {cut : List Piece} (way : Cut octets cut) :
    octets.length ≤ (encode (cut.map Piece.shown)).length := by
  have stand : (encodeChar replacement).length = 3 := by decide
  induction way with
  | nil => simp
  | char c _ ih =>
    simp only [List.map_cons, encode_cons, Piece.shown, List.length_append]
    omega
  | invalid broken short _ _ ih =>
    simp only [List.map_cons, encode_cons, Piece.shown, List.length_append, stand]
    omega
  | truncated broken short _ =>
    simp only [List.map_cons, List.map_nil, encode_cons, encode_nil, Piece.shown,
      List.append_nil, stand]
    exact short

end MailMerge.Utf8

namespace MailMerge.Destination

/-- What is written for some octets has no ASCII character that they do not have. -/
theorem mem_of_mem_cleaned {octets : Bytes} {b : UInt8} (member : b ∈ cleaned octets)
    (ascii : b.toNat < 0x80) : b ∈ octets :=
  (Utf8.cut_pieces octets).mem_of_mem_shown ascii member

/-- Octets are written as they are if what is written for them is all ASCII. -/
theorem cleaned_eq_self {octets : Bytes} (ascii : ∀ b ∈ cleaned octets, b.toNat < 0x80) :
    cleaned octets = octets :=
  (Utf8.cut_pieces octets).shown_eq_self ascii

/-- What is written for some octets is not shorter than they are. -/
theorem length_le_cleaned (octets : Bytes) : octets.length ≤ (cleaned octets).length :=
  (Utf8.cut_pieces octets).length_le_shown

end MailMerge.Destination
