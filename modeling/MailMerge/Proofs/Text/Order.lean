import Mathlib.Data.String.Basic
import MailMerge.Proofs.Text.Encoding

/-!
# The order of texts and of their octets

Texts are compared by the code points of their characters.  A program that compares them octet by octet
comes to the same result (`utf8_lt_iff`): what is written for a character with a smaller code point has,
at the first place where the two differ, the smaller octet (`encodeChar_append_lt`).  For characters of
the same number of octets this is how numbers are compared digit by digit.  Otherwise the first octet
decides, because it grows with the number of octets that it announces.
-/

namespace MailMerge

set_option autoImplicit false

namespace Utf8

theorem octet_lt_iff {m n : Nat} (left : m < 256) (right : n < 256) :
    UInt8.ofNat m < UInt8.ofNat n ↔ m < n := by
  rw [UInt8.lt_iff_toNat_lt, toNat_octet left, toNat_octet right]

theorem octet_inj {m n : Nat} (left : m < 256) (right : n < 256) :
    UInt8.ofNat m = UInt8.ofNat n ↔ m = n := by
  rw [← UInt8.toNat_inj, toNat_octet left, toNat_octet right]

/-- Of two characters the one with the smaller code point is written with smaller octets, whatever
follows them. -/
theorem encodeChar_append_lt {lower higher : Char} (below : lower < higher) (left right : Bytes) :
    encodeChar lower ++ left < encodeChar higher ++ right := by
  have less : lower.toNat < higher.toNat := below
  have bound : higher.toNat < 0x110000 := by
    rcases higher.valid with low | ⟨-, high⟩
    · exact Nat.lt_trans low (by decide)
    · exact high
  unfold encodeChar encodePoint
  generalize lower.toNat = m at less
  generalize higher.toNat = n at less bound
  -- the number of octets that the smaller code point takes, and then that of the other one
  split_ifs <;>
    simp (disch := omega) only [List.cons_append, List.nil_append, List.cons_lt_cons_iff,
      octet_lt_iff, octet_inj] <;>
    omega

/-- The octets of texts are ordered as the texts are. -/
theorem encode_lt {left right : List Char} (below : left < right) : encode left < encode right := by
  induction below with
  | nil =>
    obtain ⟨b, octets, same⟩ := List.exists_cons_of_ne_nil (encodeChar_ne_nil _)
    rw [encode_nil, encode_cons, same]
    exact List.nil_lt_cons _ _
  | cons _ ih => exact List.append_left_lt ih
  | rel less => exact encodeChar_append_lt less _ _

end Utf8

/-- Texts can be compared by their octets. -/
theorem utf8_lt_iff {left right : String} : utf8 left < utf8 right ↔ left < right := by
  constructor
  · intro octets
    rcases lt_trichotomy left right with less | rfl | greater
    · exact less
    · exact absurd octets (List.lt_irrefl _)
    · exact absurd (Utf8.encode_lt greater) (List.lt_asymm octets)
  · intro below
    exact Utf8.encode_lt below

end MailMerge
