import MailMerge.Proofs.Text.Encoding
import MailMerge.Template.Line

/-!
# The lines of a text

When a template is text, so is each of its lines, since no octet of a longer character is a line
feed (`Utf8.exists_text_of_mem_cutLines`).  Its lines are then the whole of it (`exists_lines`), and
the file that a row makes of it has the same lines with the placeholders replaced and each line's
own ending (`renderLines_ok`).  That file is text again (`isText_of_render`), so it can serve as a
template itself.
-/

namespace MailMerge

set_option autoImplicit false

namespace Utf8

/-! ## Cutting behind line feeds -/

/-- A character other than a line feed has none in its encoding. -/
theorem noLineFeed_or_eq (c : Char) : 0x0A ∉ encodeChar c ∨ encodeChar c = [0x0A] := by
  by_cases feed : (0x0A : UInt8) ∈ encodeChar c
  · exact .inr (encodeChar_of_ascii_mem feed (by decide))
  · exact .inl feed

/-- Octets without a line feed go to the first line of what follows them. -/
theorem cutLines_append {front : Bytes} (some_ : front ≠ []) (noFeed : 0x0A ∉ front)
    (rest : Bytes) :
    Template.cutLines (front ++ rest) =
      match Template.cutLines rest with
      | [] => [front]
      | line :: more => (front ++ line) :: more := by
  induction front with
  | nil => exact absurd rfl some_
  | cons b front ih =>
    have other : b ≠ 0x0A := fun same => noFeed (same ▸ List.mem_cons_self)
    rw [List.cons_append, Template.cutLines, if_neg other]
    cases front with
    | nil => rw [List.nil_append]; cases Template.cutLines rest <;> rfl
    | cons c front =>
      rw [ih (by simp) fun later => noFeed (List.mem_cons_of_mem _ later)]
      cases Template.cutLines rest <;> rfl

/-- Text with one more character before it is text. -/
theorem exists_text_append (c : Char) {octets : Bytes}
    (text : ∃ text, decode octets = .ok text) :
    ∃ text, decode (encodeChar c ++ octets) = .ok text := by
  obtain ⟨text, decoded⟩ := text
  refine ⟨c :: text, ?_⟩
  rw [← encode_of_decode decoded, ← encode_cons, decode_encode]

/-- Every line of a text is text. -/
theorem exists_text_of_mem_cutLines {octets : Bytes} {text : List Char}
    (decoded : decode octets = .ok text) {line : Bytes}
    (member : line ∈ Template.cutLines octets) : ∃ text, decode line = .ok text := by
  obtain rfl := encode_of_decode decoded
  clear decoded
  induction text generalizing line with
  | nil => simp [Template.cutLines] at member
  | cons c text ih =>
    have alone : ∃ text, decode (encodeChar c) = .ok text :=
      ⟨[c], by rw [← List.append_nil (encodeChar c), ← encode_nil, ← encode_cons, decode_encode]⟩
    rw [encode_cons] at member
    rcases noLineFeed_or_eq c with noFeed | feed
    · rw [cutLines_append (encodeChar_ne_nil c) noFeed] at member
      cases lines : Template.cutLines (encode text) with
      | nil =>
        rw [lines] at member
        rwa [List.mem_singleton.1 member]
      | cons first more =>
        rw [lines] at member ih
        rcases List.mem_cons.1 member with rfl | behind
        · exact exists_text_append c (ih List.mem_cons_self)
        · exact ih (List.mem_cons_of_mem _ behind)
    · rw [feed, List.singleton_append, Template.cutLines, if_pos rfl] at member
      rcases List.mem_cons.1 member with rfl | behind
      · rwa [feed] at alone
      · exact ih behind

end Utf8

/-! ## Lines -/

namespace Template

theorem flatten_cutLines (octets : Bytes) : (cutLines octets).flatten = octets := by
  induction octets with
  | nil => rfl
  | cons b rest ih =>
    rw [cutLines]
    split_ifs with feed
    · rw [List.flatten_cons, ih, feed]
      rfl
    · cases lines : cutLines rest with
      | nil =>
        rw [lines, List.flatten_nil] at ih
        rw [← ih]
        rfl
      | cons line more =>
        rw [lines, List.flatten_cons] at ih
        rw [List.flatten_cons, List.cons_append, ih]

/-- A line has all its characters, those of its ending included. -/
theorem Line.chars_ofChars (text : List Char) : (Line.ofChars text).chars = text := by
  rw [← List.reverse_reverse text]
  unfold Line.ofChars Line.chars
  rw [List.reverse_reverse]
  generalize text.reverse = backwards
  split <;> simp [Ending.chars]

theorem exists_decodeLines {cut : List Bytes}
    (text : ∀ octets ∈ cut, ∃ text, Utf8.decode octets = .ok text) :
    ∃ lines : List Line, decodeLines cut = lines.map .ok ∧
      lines.flatMap Line.bytes = cut.flatten := by
  induction cut with
  | nil => exact ⟨[], rfl, rfl⟩
  | cons octets rest ih =>
    obtain ⟨first, decoded⟩ := text octets List.mem_cons_self
    obtain ⟨lines, same, whole⟩ := ih fun other member => text other (List.mem_cons_of_mem _ member)
    refine ⟨Line.ofChars first :: lines, by simp [decodeLines, decoded, same], ?_⟩
    rw [List.flatMap_cons, whole, List.flatten_cons, Line.bytes, Line.chars_ofChars,
      Utf8.encode_of_decode decoded]

/-- A text is made of its lines. -/
theorem exists_lines {content : Bytes} (text : Utf8.isText content = true) :
    ∃ all : List Line, lines content = all.map .ok ∧ all.flatMap Line.bytes = content := by
  unfold Utf8.isText at text
  split at text
  case h_2 => simp at text
  case h_1 decoded =>
    obtain ⟨all, same, whole⟩ :=
      exists_decodeLines fun _ member => Utf8.exists_text_of_mem_cutLines decoded member
    exact ⟨all, same, whole.trans (flatten_cutLines content)⟩

/-- The file that a row makes of some lines has the same lines, filled. -/
theorem renderLines_ok (row : Row) (all : List Line) :
    renderLines row (all.map .ok) = .ok (all.flatMap fun line =>
      utf8 (substitute row line.content) ++ Utf8.encode line.ending.chars) := by
  induction all with
  | nil => rfl
  | cons line rest ih =>
    rw [List.map_cons, renderLines, ih, List.flatMap_cons]
    simp only [Line.bytes, Line.chars, Line.fill, Utf8.encode_append]
    rfl

theorem exists_text_of_renderLines {row : Row} {cut : List Bytes} {octets : Bytes}
    (rendered : renderLines row (decodeLines cut) = .ok octets) :
    ∀ piece ∈ cut, ∃ text, Utf8.decode piece = .ok text := by
  induction cut generalizing octets with
  | nil => simp
  | cons first rest ih =>
    rw [decodeLines] at rendered
    cases decoded : Utf8.decode first with
    | error e => simp [decoded, renderLines] at rendered
    | ok text =>
      simp only [decoded, renderLines] at rendered
      split at rendered
      case h_2 => simp at rendered
      case h_1 more => exact List.forall_mem_cons.2 ⟨⟨text, decoded⟩, ih more⟩

/-- A file can be made only of a text, and it has all its lines, filled. -/
theorem exists_lines_of_render {row : Row} {content octets : Bytes}
    (rendered : render row content = .ok octets) :
    ∃ all : List Line, lines content = all.map .ok ∧ all.flatMap Line.bytes = content ∧
      octets = all.flatMap fun line =>
        utf8 (substitute row line.content) ++ Utf8.encode line.ending.chars := by
  obtain ⟨all, same, whole⟩ := exists_decodeLines (exists_text_of_renderLines rendered)
  refine ⟨all, same, whole.trans (flatten_cutLines content), ?_⟩
  rw [render, lines, same, renderLines_ok] at rendered
  exact (Except.ok.inj rendered).symm

/-- A file can be made of every text. -/
theorem exists_render (row : Row) {content : Bytes} (text : Utf8.isText content = true) :
    ∃ octets, render row content = .ok octets := by
  obtain ⟨all, same, _⟩ := exists_lines text
  exact ⟨_, by rw [render, same, renderLines_ok]⟩

/-- What is made of a text is text again. -/
theorem isText_of_render {row : Row} {content octets : Bytes}
    (rendered : render row content = .ok octets) : Utf8.isText octets = true := by
  obtain ⟨all, _, _, rfl⟩ := exists_lines_of_render rendered
  have whole : (all.flatMap fun line =>
      utf8 (substitute row line.content) ++ Utf8.encode line.ending.chars) =
        Utf8.encode (all.flatMap fun line => (line.fill row).chars) := by
    rw [Utf8.encode, List.flatMap_assoc]
    exact congrArg (all.flatMap ·) (funext fun line => (Utf8.encode_append ..).symm)
  rw [whole, Utf8.isText_encode]

end Template

end MailMerge
