import MailMerge.Proofs.Text.Encoding

/-!
# The stand-in for octets that are no text

Where text is wanted and there are octets that are none, a text stands in for them.  It is the octets
themselves exactly if these are text (`Destination.cleaned_eq_iff`).

An ASCII octet is never part of a longer character, so what is before it and what is behind it are read
as if they stood alone (`decodeLossy_append`).  This is what lets a name be taken apart at a dot and put
together again.
-/

namespace MailMerge

set_option autoImplicit false

namespace Utf8

/-! ## Where a character ends -/

theorem isTail_of_ascii {b : UInt8} (ascii : b.toNat < 0x80) : isTail b = false := by
  refine Bool.eq_false_iff.2 fun tail => ?_
  have := (bounds_of_tail tail).1
  omega

theorem within_of_three {b c low high : UInt8} (three : lead b = .three low high)
    (ascii : c.toNat < 0x80) : within low high c = false := by
  refine Bool.eq_false_iff.2 fun inside => ?_
  have := bound_of_three_within three inside
  omega

theorem within_of_four {b c low high : UInt8} (four : lead b = .four low high)
    (ascii : c.toNat < 0x80) : within low high c = false := by
  refine Bool.eq_false_iff.2 fun inside => ?_
  have := bound_of_four_within four inside
  omega

theorem lead_of_ascii {b : UInt8} (ascii : b.toNat < 0x80) : lead b = .alone := by
  by_contra other
  have := bound_of_not_alone other
  omega

theorem decodeLossy_cons {b : UInt8} (ascii : b.toNat < 0x80) (rest : Bytes) :
    decodeLossy (b :: rest) = Char.ofNat b.toNat :: decodeLossy rest := by
  rw [decodeLossy, pieces.eq_def]
  simp only [lead_of_ascii ascii]
  rfl

/-- An ASCII octet ends whatever piece is before it.  A piece that was cut short there is now one with
which the octet does not go on, and both are shown alike. -/
theorem decodeLossy_append {b : UInt8} (ascii : b.toNat < 0x80) (left right : Bytes) :
    decodeLossy (left ++ b :: right) = decodeLossy left ++ decodeLossy (b :: right) := by
  have noTail := isTail_of_ascii ascii
  unfold decodeLossy
  -- one case for each way in which the first piece of the octets before can end
  induction left using pieces.induct with
  | case1 => rw [pieces]; rfl
  | case2 x rest first ih
  | case3 x rest first ih =>
    rw [List.cons_append, pieces.eq_def, pieces.eq_def (x :: rest)]
    simp only [first, List.map_cons, ih, List.cons_append]
  | case4 x first =>
    rw [List.cons_append, pieces.eq_def, pieces.eq_def [x]]
    simp [first, noTail, Piece.shown]
  | case7 x low high first =>
    rw [List.cons_append, pieces.eq_def, pieces.eq_def [x]]
    simp [first, within_of_three first ascii, Piece.shown]
  | case12 x low high first =>
    rw [List.cons_append, pieces.eq_def, pieces.eq_def [x]]
    simp [first, within_of_four first ascii, Piece.shown]
  | case8 x low high first c second
  | case13 x low high first c second =>
    rw [List.cons_append, pieces.eq_def, pieces.eq_def (x :: _)]
    simp [first, second, noTail, Piece.shown]
  | case14 x low high first c second d third =>
    rw [List.cons_append, pieces.eq_def, pieces.eq_def (x :: _)]
    simp [first, second, third, noTail, Piece.shown]
  | case5 x first c rest second ih
  | case6 x first c rest second ih =>
    rw [List.cons_append, pieces.eq_def, pieces.eq_def (x :: _)]
    simp only [List.cons_append] at ih ⊢
    simp [first, second, ih]
  | case11 x low high first c rest second ih
  | case18 x low high first c rest second ih =>
    rw [List.cons_append, pieces.eq_def, pieces.eq_def (x :: _)]
    simp only [List.cons_append] at ih ⊢
    simp [first, second, ih]
  | case9 x low high first c second d rest third ih
  | case10 x low high first c second d rest third ih
  | case17 x low high first c second d rest third ih =>
    rw [List.cons_append, pieces.eq_def, pieces.eq_def (x :: _)]
    simp only [List.cons_append] at ih ⊢
    simp [first, second, third, ih]
  | case15 x low high first c second d third e rest fourth ih
  | case16 x low high first c second d third e rest fourth ih =>
    rw [List.cons_append, pieces.eq_def, pieces.eq_def (x :: _)]
    simp only [List.cons_append] at ih ⊢
    simp [first, second, third, fourth, ih]

end Utf8

namespace Destination

/-! ## What is written for octets -/

@[simp] theorem cleaned_nil : cleaned [] = [] := by
  rw [cleaned, Utf8.decodeLossy, Utf8.pieces]
  rfl

theorem cleaned_ne_nil {octets : Bytes} (nonempty : octets ≠ []) : cleaned octets ≠ [] := by
  intro empty
  have := length_le_cleaned octets
  rw [empty, List.length_nil, Nat.le_zero, List.length_eq_zero_iff] at this
  exact nonempty this

/-- What is written for octets around a dot has the dot in the same place. -/
theorem cleaned_append (left right : Bytes) :
    cleaned (left ++ Path.dot :: right) = cleaned left ++ Path.dot :: cleaned right := by
  have ascii : Path.dot.toNat < 0x80 := by decide
  have single : Utf8.encodeChar (Char.ofNat Path.dot.toNat) = [Path.dot] := by decide
  rw [cleaned, Utf8.decodeLossy_append ascii, Utf8.decodeLossy_cons ascii, Utf8.encode_append,
    Utf8.encode_cons, single]
  rfl

/-- Octets are written as they are if they are text, and only then. -/
theorem cleaned_eq_iff {octets : Bytes} : cleaned octets = octets ↔ Utf8.isText octets = true := by
  constructor
  · intro same
    rw [← same]
    exact Utf8.isText_encode _
  · intro text
    obtain ⟨chars, rfl⟩ := Utf8.exists_encode_of_isText text
    exact cleaned_encode chars

end Destination

end MailMerge
