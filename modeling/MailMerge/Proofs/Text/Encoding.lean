import MailMerge.Proofs.Text.Pieces

/-!
# Reading what was written

What is written for a text is text, and it is read as the text that was written
(`Utf8.decode_encode`).  Nothing else is read as this text (`Utf8.encode_of_decode`).

The first octet of a character tells how many others follow and within which bounds the next one is;
that what is written keeps to these bounds is a matter of arithmetic, with one lemma for each number
of octets (`lead_of_one` and so on).
-/

namespace MailMerge.Utf8

set_option autoImplicit false

/-! ## Octets -/

theorem toNat_octet {n : Nat} (small : n < 256) : (UInt8.ofNat n).toNat = n := by
  simp [Nat.mod_eq_of_lt small]

theorem isTail_octet (n : Nat) : isTail (.ofNat (0x80 + n % 64)) = true := by
  have small : n % 64 < 64 := Nat.mod_lt _ (by decide)
  simp only [isTail, UInt8.le_iff_toNat_le, toNat_octet (show 0x80 + n % 64 < 256 by omega)]
  simp
  omega

theorem payload_octet (n : Nat) : payload (.ofNat (0x80 + n % 64)) = n % 64 := by
  have same := toNat_octet (show 0x80 + n % 64 < 256 by omega)
  unfold payload
  omega

theorem within_octet {low high : UInt8} {n : Nat} (least : low.toNat ≤ 0x80 + n % 64)
    (most : 0x80 + n % 64 ≤ high.toNat) : within low high (.ofNat (0x80 + n % 64)) = true := by
  simp only [within, UInt8.le_iff_toNat_le, toNat_octet (show 0x80 + n % 64 < 256 by omega)]
  simp [least, most]

/-! ## First octets -/

theorem lead_of_one {n : Nat} (high : n < 0x80) : lead (.ofNat n) = .alone := by
  simp only [lead, UInt8.lt_iff_toNat_lt, toNat_octet (show n < 256 by omega)]
  exact if_pos high

theorem lead_of_two {n : Nat} (low : 2 ≤ n) (high : n < 32) : lead (.ofNat (0xC0 + n)) = .two := by
  simp only [lead, UInt8.lt_iff_toNat_lt, toNat_octet (show 0xC0 + n < 256 by omega),
    UInt8.reduceToNat]
  rw [if_neg (by omega), if_neg (by omega), if_pos (by omega)]

/-- The first octet of three allows the second that is written, for it is none of a surrogate and
none of a character that takes fewer. -/
theorem lead_of_three {n : Nat} (low : 0x800 ≤ n) (high : n < 0x10000)
    (other : n < 0xD800 ∨ 0xDFFF < n) : ∃ least most,
      lead (.ofNat (0xE0 + n / 4096)) = .three least most ∧
        within least most (.ofNat (0x80 + n / 64 % 64)) = true := by
  simp only [lead, UInt8.lt_iff_toNat_lt, ← UInt8.toNat_inj,
    toNat_octet (show 0xE0 + n / 4096 < 256 by omega), UInt8.reduceToNat]
  rw [if_neg (by omega), if_neg (by omega), if_neg (by omega)]
  by_cases fewer : n / 4096 = 0
  · exact ⟨0xA0, 0xBF, if_pos (by omega), within_octet (by simp; omega) (by simp; omega)⟩
  rw [if_neg (by omega)]
  by_cases surrogate : n / 4096 = 13
  · exact ⟨0x80, 0x9F, if_pos (by omega), within_octet (by simp) (by simp; omega)⟩
  rw [if_neg (by omega)]
  exact ⟨0x80, 0xBF, if_pos (by omega), within_octet (by simp) (by simp; omega)⟩

theorem lead_of_four {n : Nat} (low : 0x10000 ≤ n) (high : n < 0x110000) : ∃ least most,
    lead (.ofNat (0xF0 + n / 262144)) = .four least most ∧
      within least most (.ofNat (0x80 + n / 4096 % 64)) = true := by
  simp only [lead, UInt8.lt_iff_toNat_lt, ← UInt8.toNat_inj,
    toNat_octet (show 0xF0 + n / 262144 < 256 by omega), UInt8.reduceToNat]
  rw [if_neg (by omega), if_neg (by omega), if_neg (by omega), if_neg (by omega),
    if_neg (by omega), if_neg (by omega)]
  by_cases fewer : n / 262144 = 0
  · exact ⟨0x90, 0xBF, if_pos (by omega), within_octet (by simp; omega) (by simp; omega)⟩
  rw [if_neg (by omega)]
  by_cases beyond : n / 262144 = 4
  · rw [if_neg (by omega)]
    exact ⟨0x80, 0x8F, if_pos (by omega), within_octet (by simp) (by simp; omega)⟩
  exact ⟨0x80, 0xBF, if_pos (by omega), within_octet (by simp) (by simp; omega)⟩

/-! ## Characters -/

/-- The octets of a character are read as the character, whatever follows them. -/
theorem pieces_encodeChar_append (c : Char) (rest : Bytes) :
    pieces (encodeChar c ++ rest) = .char c :: pieces rest := by
  have valid : c.toNat < 0xD800 ∨ 0xDFFF < c.toNat ∧ c.toNat < 0x110000 := c.valid
  have whole : Char.ofNat c.toNat = c := Char.ofNat_toNat c
  rw [encodeChar]
  generalize c.toNat = n at valid whole
  obtain rfl := whole
  unfold encodePoint
  split_ifs with one two three
  · rw [List.singleton_append, pieces.eq_def]
    simp only [lead_of_one one, toNat_octet (show n < 256 by omega)]
  · rw [List.cons_append, List.singleton_append, pieces.eq_def]
    simp only [lead_of_two (show 2 ≤ n / 64 by omega) (by omega), isTail_octet, if_true,
      payload_octet, toNat_octet (show 0xC0 + n / 64 < 256 by omega)]
    rw [show (0xC0 + n / 64 - 0xC0) * 64 + n % 64 = n by omega]
  · obtain ⟨least, most, first, second⟩ := lead_of_three (n := n) (by omega) three (by omega)
    simp only [List.cons_append, List.nil_append]
    rw [pieces.eq_def]
    simp only [first, second, isTail_octet, if_true, payload_octet,
      toNat_octet (show 0xE0 + n / 4096 < 256 by omega)]
    rw [show (0xE0 + n / 4096 - 0xE0) * 4096 + n / 64 % 64 * 64 + n % 64 = n by omega]
  · obtain ⟨least, most, first, second⟩ := lead_of_four (n := n) (by omega) (by omega)
    simp only [List.cons_append, List.nil_append]
    rw [pieces.eq_def]
    simp only [first, second, isTail_octet, if_true, payload_octet,
      toNat_octet (show 0xF0 + n / 262144 < 256 by omega)]
    rw [show (0xF0 + n / 262144 - 0xF0) * 262144 + n / 4096 % 64 * 4096 + n / 64 % 64 * 64 +
      n % 64 = n by omega]

/-! ## Texts -/

theorem pieces_encode (text : List Char) : pieces (encode text) = text.map .char := by
  induction text with
  | nil => rw [encode_nil, pieces]; rfl
  | cons c text ih => rw [encode_cons, pieces_encodeChar_append, ih, List.map_cons]

theorem charsFrom_eq_ok {start : Nat} {cut : List Piece} {text : List Char} :
    charsFrom start cut = .ok text ↔ cut = text.map .char := by
  induction cut generalizing start text with
  | nil => cases text <;> simp [charsFrom]
  | cons piece rest ih =>
    cases piece with
    | invalid octets => cases text <;> simp [charsFrom]
    | truncated octets => cases text <;> simp [charsFrom]
    | char c =>
      simp only [charsFrom]
      cases later : charsFrom (start + (encodeChar c).length) rest with
      | ok more =>
        obtain rfl := ih.1 later
        cases text with
        | nil => simp
        | cons first text => simp [List.map_inj_right]
      | error e =>
        cases text with
        | nil => simp
        | cons first text =>
          simp only [List.map_cons, List.cons.injEq, reduceCtorEq, false_iff, not_and]
          intro _ same
          simp [ih.2 same] at later

/-- Octets are text if all pieces of them are characters. -/
theorem decode_eq_ok {octets : Bytes} {text : List Char} :
    decode octets = .ok text ↔ pieces octets = text.map .char := charsFrom_eq_ok

/-- What is written for a text is read as this text. -/
theorem decode_encode (text : List Char) : decode (encode text) = .ok text :=
  decode_eq_ok.2 (pieces_encode text)

/-- Text is the encoding of its characters. -/
theorem encode_of_decode {octets : Bytes} {text : List Char} (decoded : decode octets = .ok text) :
    encode text = octets := by
  have way := cut_pieces octets
  rw [decode_eq_ok.1 decoded] at way
  clear decoded
  induction text generalizing octets with
  | nil => generalize same : [].map Piece.char = cut at way; cases way <;> simp_all
  | cons c text ih =>
    rw [List.map_cons] at way
    cases way with
    | char _ way => rw [encode_cons, ih way]

theorem exists_encode_of_isText {octets : Bytes} (text : isText octets = true) :
    ∃ chars, octets = encode chars := by
  unfold isText at text
  split at text
  case h_1 chars decoded => exact ⟨chars, (encode_of_decode decoded).symm⟩
  case h_2 => simp at text

theorem encode_inj {left right : List Char} : encode left = encode right ↔ left = right := by
  constructor
  · intro same
    have read := congrArg decode same
    rw [decode_encode, decode_encode] at read
    exact Except.ok.inj read
  · rintro rfl
    rfl

theorem isText_encode (text : List Char) : isText (encode text) = true := by
  rw [isText, decode_encode]

/-- What stands before and behind an ASCII character in the octets of a text is text. -/
theorem exists_of_encode_eq_append {text : List Char} {left right : Bytes} {b : UInt8}
    (ascii : b.toNat < 0x80) (same : encode text = left ++ b :: right) :
    ∃ before behind, left = encode before ∧ right = encode behind := by
  induction text generalizing left with
  | nil => simp at same
  | cons c text ih =>
    rw [encode_cons] at same
    rcases List.append_eq_append_iff.1 same with ⟨more, rfl, rest⟩ | ⟨ending, first, rest⟩
    · obtain ⟨before, behind, rfl, rfl⟩ := ih rest
      exact ⟨c :: before, behind, rfl, rfl⟩
    · cases ending with
      | nil =>
        obtain ⟨before, behind, none, rfl⟩ := @ih [] rest.symm
        exact ⟨[c], behind, by simpa [encode] using first.symm, rfl⟩
      | cons d ending =>
        obtain ⟨rfl, rest⟩ := List.cons.inj rest
        -- the ASCII character is the whole character in which it stands
        have whole := encodeChar_of_ascii_mem (first ▸ List.mem_append_right left (.head _)) ascii
        rw [whole] at first
        obtain ⟨rfl, rfl⟩ : left = [] ∧ ending = [] := by
          cases left with
          | nil => exact ⟨rfl, by simpa using first⟩
          | cons e left => simp at first
        exact ⟨[], text, rfl, by simpa using rest⟩

end MailMerge.Utf8

namespace MailMerge

theorem utf8_inj {left right : String} : utf8 left = utf8 right ↔ left = right :=
  Utf8.encode_inj.trans String.toList_inj

end MailMerge

namespace MailMerge.Destination

/-- What is text is written as it is. -/
theorem cleaned_encode (text : List Char) : cleaned (Utf8.encode text) = Utf8.encode text := by
  rw [cleaned, Utf8.decodeLossy, Utf8.pieces_encode, List.map_map]
  exact congrArg Utf8.encode (List.map_id text)

end MailMerge.Destination
