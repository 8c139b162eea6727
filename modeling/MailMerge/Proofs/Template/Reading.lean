import MailMerge.Proofs.Destination
import MailMerge.Proofs.Template.Lines
import MailMerge.Proofs.Tree.Texts
import MailMerge.Run.Process

/-!
# Reading line by line

A template is read line by line, and its placeholders are looked for in the whole of it.  The two
readings accept the same files: cutting at line feeds neither hides an octet that is no text nor
brings one about, for no longer character has a line feed among its octets.

The relation `Reading` has one rule for each thing that can come next: a line, or octets up to the
next line feed that are no text, where reading stops.  It holds between a file and its lines
(`reading_lines`) and between a file and nothing else (`Reading.eq_lines`), so whatever is to be known
of the lines of a file is shown by an induction on it.  A text is read to its end, and its lines are
the only ones that make it up and are cut as lines are (`lines_eq_ok_iff`); anything else is read up to
the first line that is no text.  The two cases together are `lines_of_octets`.
-/

namespace MailMerge.Template

set_option autoImplicit false

variable {octets rest content : Bytes} {line : Line} {all : List Line}

/-! ## The first line of a file -/

/-- The octets are the first line of a file that goes on with the rest: they end with the first line
feed of the file or, if there is none, they are all of it. -/
def IsFirstLine (octets rest : Bytes) : Prop :=
  (∃ front, octets = front ++ [0x0A] ∧ 0x0A ∉ front) ∨ (octets ≠ [] ∧ 0x0A ∉ octets ∧ rest = [])

theorem IsFirstLine.ne_nil (first : IsFirstLine octets rest) : octets ≠ [] := by
  rcases first with ⟨front, rfl, _⟩ | ⟨nonempty, _, _⟩
  · simp
  · exact nonempty

/-- The first line is cut off first. -/
theorem IsFirstLine.cutLines_append (first : IsFirstLine octets rest) :
    cutLines (octets ++ rest) = octets :: cutLines rest := by
  rcases first with ⟨front, rfl, noFeed⟩ | ⟨nonempty, noFeed, rfl⟩
  · have feed : cutLines (0x0A :: rest) = [0x0A] :: cutLines rest := by rw [cutLines, if_pos rfl]
    rw [List.append_assoc, List.singleton_append]
    by_cases blank : front = []
    · rw [blank]
      exact feed
    · rw [Utf8.cutLines_append blank noFeed, feed]
  · rw [Utf8.cutLines_append nonempty noFeed]
    rfl

/-- A file with anything in it has a first line. -/
theorem exists_firstLine (nonempty : content ≠ []) :
    ∃ octets rest, IsFirstLine octets rest ∧ content = octets ++ rest := by
  by_cases feed : (0x0A : UInt8) ∈ content
  · obtain ⟨front, rest, rfl, noFeed⟩ := List.eq_append_cons_of_mem feed
    exact ⟨front ++ [0x0A], rest, .inl ⟨front, rfl, noFeed⟩, by simp⟩
  · exact ⟨content, [], .inr ⟨nonempty, feed, rfl⟩, by simp⟩

/-! ## Line feeds in texts -/

theorem feed_mem_encode {text : List Char} : 0x0A ∈ Utf8.encode text ↔ '\n' ∈ text :=
  Utf8.mem_encode_iff (by decide)

/-- In a text that is a first line, only the last character may be a line feed. -/
theorem IsFirstLine.feed_notMem {text : List Char} (first : IsFirstLine (Utf8.encode text) rest) :
    '\n' ∉ text.dropLast := by
  rcases first with ⟨front, same, noFeed⟩ | ⟨_, noFeed, _⟩
  · obtain ⟨before, behind, rfl, none⟩ := Utf8.exists_of_encode_eq_append (by decide) same
    have whole : text = before ++ ['\n'] := by
      rw [← Utf8.encode_inj, same, Utf8.encode_append]
      rfl
    rw [whole, List.dropLast_concat]
    exact fun member => noFeed (feed_mem_encode.2 member)
  · exact fun member => noFeed (feed_mem_encode.2 (List.dropLast_subset text member))

/-! ## Lines as they are cut -/

/-- A line as it is cut from a text. -/
structure Line.IsProper (line : Line) : Prop where
  /-- There is no line feed in the content. -/
  noFeed : '\n' ∉ line.content.toList
  /-- A line without an ending has some content. -/
  nonempty : line.ending = .none → line.content ≠ ""
  /-- A carriage return directly before the line feed belongs to the ending. -/
  noReturn : line.ending = .lf → line.content.toList.getLast? ≠ some '\r'

/-- Characters of which only the last may be a line feed are a line as it is cut. -/
theorem Line.isProper_ofChars {text : List Char} (nonempty : text ≠ [])
    (noFeed : '\n' ∉ text.dropLast) : (Line.ofChars text).IsProper := by
  rw [← List.reverse_reverse text] at noFeed
  unfold Line.ofChars
  split
  case h_1 before backwards =>
    rw [backwards] at noFeed
    refine ⟨?_, by simp, by simp⟩
    simp at noFeed ⊢
    exact noFeed
  case h_2 before other backwards =>
    rw [backwards] at noFeed
    refine ⟨by simpa using noFeed, by simp, fun _ last => ?_⟩
    cases before with
    | nil => simp at last
    | cons c before =>
      obtain rfl : c = '\r' := by simpa using last
      exact other before rfl
  case h_3 _ last =>
    refine ⟨fun member => ?_, fun _ => by simpa using nonempty, by simp⟩
    rw [String.toList_ofList] at member
    cases backwards : text.reverse with
    | nil => exact nonempty (by simpa using backwards)
    | cons c before =>
      rw [backwards, List.reverse_cons, List.dropLast_concat] at noFeed
      have whole : text = before.reverse ++ [c] := by
        rw [← List.reverse_cons, ← backwards, List.reverse_reverse]
      rw [whole, List.mem_append, List.mem_singleton] at member
      rcases member with within | rfl
      · exact noFeed within
      · exact last before backwards

/-- A line as it is cut is found again in its characters. -/
theorem Line.IsProper.ofChars_chars (proper : line.IsProper) : Line.ofChars line.chars = line := by
  obtain ⟨content, ending⟩ := line
  obtain ⟨noFeed, -, noReturn⟩ := proper
  simp only [Line.chars, Line.ofChars]
  cases ending with
  | none =>
    have other : ∀ before, content.toList.reverse ≠ '\n' :: before := by
      intro before backwards
      have member : '\n' ∈ content.toList.reverse := backwards ▸ List.mem_cons_self
      exact noFeed (List.mem_reverse.1 member)
    simp only [Ending.chars, List.append_nil]
    split
    case h_1 backwards => exact absurd backwards (other _)
    case h_2 backwards => exact absurd backwards (other _)
    case h_3 => rw [String.ofList_toList]
  | lf =>
    have other : ∀ before, content.toList.reverse ≠ '\r' :: before := by
      intro before backwards
      refine noReturn rfl ?_
      rw [← List.head?_reverse, backwards, List.head?_cons]
    simp only [Ending.chars, List.reverse_append, List.reverse_singleton, List.singleton_append,
      List.reverse_reverse, String.ofList_toList]
  | crlf => simp [Ending.chars]

/-- A line that has an ending is the first one of whatever follows it, and one that has none is the
first one if nothing follows. -/
theorem Line.IsProper.isFirstLine (proper : line.IsProper)
    (last : line.ending = .none → rest = []) : IsFirstLine line.bytes rest := by
  obtain ⟨content, ending⟩ := line
  have noFeed : 0x0A ∉ Utf8.encode content.toList :=
    fun member => proper.noFeed (feed_mem_encode.1 member)
  simp only [Line.bytes, Line.chars]
  cases ending with
  | none =>
    have nonempty : content.toList ≠ [] := by simpa using proper.nonempty rfl
    refine .inr ⟨?_, by simpa [Ending.chars] using noFeed, last rfl⟩
    rw [Ending.chars, List.append_nil, Ne, ← Utf8.encode_nil, Utf8.encode_inj]
    exact nonempty
  | lf => exact .inl ⟨Utf8.encode content.toList, by rw [Utf8.encode_append]; rfl, noFeed⟩
  | crlf =>
    refine .inl ⟨Utf8.encode (content.toList ++ ['\r']), ?_, ?_⟩
    · simp only [Ending.chars, Utf8.encode_append, List.append_assoc]
      rfl
    · rw [feed_mem_encode]
      simpa using proper.noFeed

/-- What follows a line without an ending is nothing. -/
theorem IsFirstLine.eq_nil (first : IsFirstLine line.bytes rest) (proper : line.IsProper)
    (unended : line.ending = .none) : rest = [] := by
  rcases first with ⟨front, same, _⟩ | ⟨_, _, none⟩
  · exfalso
    have member : 0x0A ∈ line.bytes := same ▸ List.mem_append_right front List.mem_cons_self
    rw [Line.bytes, Line.chars, unended, Ending.chars, List.append_nil, feed_mem_encode] at member
    exact proper.noFeed member
  · exact none

/-! ## Reading -/

/-- What is read of a file: lines, one after another, and where one of them is no text, the error. -/
inductive Reading : Bytes → List (Except Utf8.DecodeError Line) → Prop where
  | nil : Reading [] []
  | line {line : Line} {rest : Bytes} {items : List (Except Utf8.DecodeError Line)} :
      line.IsProper → IsFirstLine line.bytes rest → Reading rest items →
        Reading (line.bytes ++ rest) (.ok line :: items)
  | broken {octets rest : Bytes} {error : Utf8.DecodeError} :
      IsFirstLine octets rest → Utf8.decode octets = .error error →
        Reading (octets ++ rest) [.error error]

/-- The lines of a file are what is read of it. -/
theorem reading_lines (content : Bytes) : Reading content (lines content) := by
  induction size : content.length using Nat.strongRecOn generalizing content with
  | ind count ih =>
    by_cases nonempty : content = []
    · rw [nonempty]
      exact .nil
    · obtain ⟨octets, rest, first, rfl⟩ := exists_firstLine nonempty
      rw [lines, first.cutLines_append, decodeLines]
      cases decoded : Utf8.decode octets with
      | error error => exact .broken first decoded
      | ok text =>
        obtain rfl := Utf8.encode_of_decode decoded
        have shorter : rest.length < count := by
          have := List.length_pos_iff.2 first.ne_nil
          rw [← size, List.length_append]
          omega
        have some_ : text ≠ [] := fun none => first.ne_nil (by rw [none, Utf8.encode_nil])
        have whole : (Line.ofChars text).bytes = Utf8.encode text := by
          rw [Line.bytes, Line.chars_ofChars]
        have later := ih rest.length shorter rest rfl
        rw [← whole] at first ⊢
        exact .line (Line.isProper_ofChars some_ (whole ▸ first).feed_notMem) first later

namespace Reading

variable {items : List (Except Utf8.DecodeError Line)}

/-- Nothing else is read of a file. -/
theorem eq_lines (reading : Reading content items) : lines content = items := by
  induction reading with
  | nil => rfl
  | @line line rest items proper first _ ih =>
    have decoded : Utf8.decode line.bytes = .ok line.chars := Utf8.decode_encode _
    rw [lines, first.cutLines_append, decodeLines, decoded, ← ih]
    simp only [proper.ofChars_chars]
    rfl
  | broken first decoded =>
    rw [lines, first.cutLines_append, decodeLines, decoded]

/-- A file is read to its end, or up to the first line that is no text. -/
theorem ok_or_broken (reading : Reading content items) :
    (∃ all : List Line, items = all.map .ok) ∨
      ∃ (front : List Line) (octets rest : Bytes) (error : Utf8.DecodeError),
        items = front.map .ok ++ [.error error] ∧
          content = front.flatMap Line.bytes ++ (octets ++ rest) ∧
          (∀ line ∈ front, line.IsProper ∧ line.ending ≠ .none) ∧
          IsFirstLine octets rest ∧ Utf8.decode octets = .error error := by
  induction reading with
  | nil => exact .inl ⟨[], rfl⟩
  | @line line rest items proper first _ ih =>
    rcases ih with ⟨all, rfl⟩ | ⟨front, octets, behind, error, rfl, rfl, ended, broken, decoded⟩
    · exact .inl ⟨line :: all, rfl⟩
    · have followed : line.ending ≠ .none := by
        intro unended
        have none := first.eq_nil proper unended
        exact broken.ne_nil (by simp_all)
      refine .inr ⟨line :: front, octets, behind, error, rfl, ?_, ?_, broken, decoded⟩
      · rw [List.flatMap_cons, List.append_assoc]
      · exact List.forall_mem_cons.2 ⟨⟨proper, followed⟩, ended⟩
  | @broken octets rest error first decoded =>
    exact .inr ⟨[], octets, rest, error, rfl, rfl, by simp, first, decoded⟩

end Reading

/-! ## The lines of a text -/

/-- Only the last line may be without an ending. -/
def Ended (all : List Line) : Prop := ∀ line ∈ all.dropLast, line.ending ≠ .none

theorem ended_cons {line : Line} {all : List Line} :
    Ended (line :: all) ↔ (line.ending = .none → all = []) ∧ Ended all := by
  cases all with
  | nil => simp [Ended]
  | cons next all =>
    unfold Ended
    rw [List.dropLast_cons_cons, List.forall_mem_cons]
    simp

/-- Lines as a text is cut into them. -/
structure AreProper (all : List Line) : Prop where
  /-- Each line is as it is cut. -/
  proper : ∀ line ∈ all, line.IsProper
  /-- A line that is followed by another one has an ending. -/
  ended : Ended all

theorem areProper_nil : AreProper [] := ⟨by simp, by simp [Ended]⟩

theorem areProper_cons {line : Line} {all : List Line} : AreProper (line :: all) ↔
    line.IsProper ∧ (line.ending = .none → all = []) ∧ AreProper all := by
  constructor
  · rintro ⟨proper, ended⟩
    obtain ⟨first, later⟩ := List.forall_mem_cons.1 proper
    obtain ⟨last, rest⟩ := ended_cons.1 ended
    exact ⟨first, last, later, rest⟩
  · rintro ⟨first, last, later, rest⟩
    exact ⟨List.forall_mem_cons.2 ⟨first, later⟩, ended_cons.2 ⟨last, rest⟩⟩

/-- The lines that a text is cut into are read of it. -/
theorem AreProper.reading (proper : AreProper all) :
    Reading (all.flatMap Line.bytes) (all.map .ok) := by
  induction all with
  | nil => exact .nil
  | cons line all ih =>
    obtain ⟨first, last, later⟩ := areProper_cons.1 proper
    refine .line first (first.isFirstLine fun unended => ?_) (ih later)
    rw [last unended]
    rfl

/-- Lines that are read to the end of a file make it up, and are as a text is cut into them. -/
theorem Reading.areProper (reading : Reading content (all.map .ok)) :
    all.flatMap Line.bytes = content ∧ AreProper all := by
  generalize same : all.map Except.ok = items at reading
  induction reading generalizing all with
  | nil =>
    obtain rfl := List.map_eq_nil_iff.1 same
    exact ⟨rfl, areProper_nil⟩
  | @line line rest items proper first _ ih =>
    obtain ⟨_, later, rfl, here, others⟩ := List.map_eq_cons_iff.1 same
    obtain rfl := Except.ok.inj here
    obtain ⟨rfl, follow⟩ := ih others
    refine ⟨rfl, areProper_cons.2 ⟨proper, fun unended => ?_, follow⟩⟩
    have none := first.eq_nil proper unended
    cases later with
    | nil => rfl
    | cons next later =>
      obtain ⟨second, last, -⟩ := areProper_cons.1 follow
      have alone : IsFirstLine next.bytes [] := second.isFirstLine fun _ => rfl
      simp [alone.ne_nil] at none
  | broken => cases all <;> simp at same

/-- The lines of a file are the only ones that make it up and are as a text is cut into them. -/
theorem lines_eq_ok_iff :
    lines content = all.map .ok ↔ all.flatMap Line.bytes = content ∧ AreProper all := by
  constructor
  · intro same
    exact (same ▸ reading_lines content).areProper
  · rintro ⟨rfl, proper⟩
    exact proper.reading.eq_lines

/-- Every text is read to its end. -/
theorem exists_lines_of_text (text : String) : ∃ all : List Line,
    lines (utf8 text) = all.map .ok ∧ all.flatMap Line.chars = text.toList ∧ AreProper all := by
  obtain ⟨all, same, -⟩ := exists_lines (Utf8.isText_encode text.toList)
  obtain ⟨whole, proper⟩ := lines_eq_ok_iff.1 same
  refine ⟨all, same, ?_, proper⟩
  rw [← Utf8.encode_inj, Utf8.encode, List.flatMap_assoc]
  exact whole

/-- What is made up of lines is a text. -/
theorem exists_text_of_lines (all : List Line) :
    ∃ text : String, all.flatMap Line.bytes = utf8 text := by
  refine ⟨.ofList (all.flatMap Line.chars), ?_⟩
  rw [utf8, String.toList_ofList, Utf8.encode, List.flatMap_assoc]
  rfl

/-- What is read to its end is a text, and its lines make it up. -/
theorem exists_text_iff : (∃ text : String, content = utf8 text) ↔
    ∃ all : List Line, lines content = all.map .ok ∧ all.flatMap Line.bytes = content ∧
      AreProper all := by
  constructor
  · rintro ⟨text, rfl⟩
    obtain ⟨all, same, -⟩ := exists_lines_of_text text
    exact ⟨all, same, lines_eq_ok_iff.1 same⟩
  · rintro ⟨all, -, rfl, -⟩
    exact exists_text_of_lines all

/-- What is no text is read up to the first line that is none. -/
theorem not_exists_text_iff : (¬ ∃ text : String, content = utf8 text) ↔
    ∃ (front : List Line) (octets rest : Bytes) (error : Utf8.DecodeError),
      lines content = front.map .ok ++ [.error error] ∧
        content = front.flatMap Line.bytes ++ (octets ++ rest) ∧
        (∀ line ∈ front, line.IsProper ∧ line.ending ≠ .none) ∧
        IsFirstLine octets rest ∧ Utf8.decode octets = .error error := by
  constructor
  · intro noText
    refine (reading_lines content).ok_or_broken.resolve_left fun whole => noText ?_
    obtain ⟨all, same⟩ := whole
    exact exists_text_iff.2 ⟨all, same, lines_eq_ok_iff.1 same⟩
  · rintro ⟨front, _, _, error, broken, -⟩ text
    obtain ⟨all, same, -⟩ := exists_text_iff.1 text
    have member : Except.error error ∈ all.map Except.ok := by
      rw [← same, broken]
      exact List.mem_append_right _ List.mem_cons_self
    simp at member

/-! ## Two readings of a template -/

theorem splitReading_ok (path : Path) (all : List Line) :
    Run.splitReading path (all.map .ok) = (all, none) := by
  induction all with
  | nil => rfl
  | cons line all ih => rw [List.map_cons, Run.splitReading, ih]

theorem splitReading_broken (path : Path) (front : List Line) (error : Utf8.DecodeError) :
    Run.splitReading path (front.map .ok ++ [.error error]) =
      (front, some (.io path (.lineNotText error))) := by
  induction front with
  | nil => rfl
  | cons line front ih => rw [List.map_cons, List.cons_append, Run.splitReading, ih]

section Readings

variable {path : Path} {world : World} (there : world.tree.read path = .ok content)

include there

/-- Reading the lines of a template fails if it is no text. -/
theorem templateLines_fails_iff :
    (∃ failure, ((Run.templateLines path).run world).1.2 = some failure) ↔
      ¬ ∃ text : String, content = utf8 text := by
  have read : ((Run.templateLines path).run world).1 = Run.splitReading path (lines content) := by
    have asked : (Task.read path).run world = (world.tree.read path, world) := rfl
    rw [Run.templateLines, Task.run_bind, asked, there]
    rfl
  rw [read]
  by_cases text : ∃ text : String, content = utf8 text
  · obtain ⟨all, same, -⟩ := exists_text_iff.1 text
    simp [same, splitReading_ok, text]
  · obtain ⟨front, _, _, error, same, -⟩ := not_exists_text_iff.1 text
    simp [same, splitReading_broken, text]

/-- Looking for the placeholders of a template fails if it is no text. -/
theorem templatePlaceholders_fails_iff :
    (∃ failure, ((Run.templatePlaceholders path).run world).1 = .error failure) ↔
      ¬ ∃ text : String, content = utf8 text := by
  have asked : (Task.read path).run world = (world.tree.read path, world) := rfl
  rw [Run.templatePlaceholders, Task.run_bind, asked, there]
  cases decoded : Utf8.decode content with
  | ok text =>
    have whole : ∃ text : String, content = utf8 text :=
      ⟨.ofList text, by rw [utf8, String.toList_ofList, Utf8.encode_of_decode decoded]⟩
    simp [decoded, whole]
  | error error =>
    have noText : ¬ ∃ text : String, content = utf8 text := by
      rintro ⟨text, rfl⟩
      rw [utf8, Utf8.decode_encode] at decoded
      simp at decoded
    simp [decoded, noText]

end Readings

/-- A file that is a text is read to its end, and its lines make it up.  Of any other file the lines
are read up to the first one that is no text, and then there is an error.  So reading a template line
by line fails exactly if looking for its placeholders does. -/
theorem lines_of_octets (content : Bytes) :
    ((∃ text : String, content = utf8 text) ↔
      ∃ all : List Line, lines content = all.map .ok ∧ all.flatMap Line.bytes = content ∧
        AreProper all) ∧
    ((¬ ∃ text : String, content = utf8 text) ↔
      ∃ (front : List Line) (octets rest : Bytes) (error : Utf8.DecodeError),
        lines content = front.map .ok ++ [.error error] ∧
          content = front.flatMap Line.bytes ++ (octets ++ rest) ∧
          (∀ line ∈ front, line.IsProper ∧ line.ending ≠ .none) ∧
          IsFirstLine octets rest ∧ Utf8.decode octets = .error error) ∧
    ∀ (path : Path) (world : World), world.tree.read path = .ok content →
      ((∃ failure, ((Run.templateLines path).run world).1.2 = some failure) ↔
        ∃ failure, ((Run.templatePlaceholders path).run world).1 = .error failure) := by
  refine ⟨exists_text_iff, not_exists_text_iff, fun path world there => ?_⟩
  exact (templateLines_fails_iff there).trans (templatePlaceholders_fails_iff there).symm

/-- A file of two lines, the second of which is no text. -/
theorem lines_of_octets_broken :
    (¬ ∃ text : String, [0x61, 0x0A, 0xFF] = utf8 text) ∧
      ∃ failure, ((Run.templateLines ⟨utf8 "t"⟩).run
        { tree := ⟨[([utf8 "t"], .file [0x61, 0x0A, 0xFF])], []⟩ }).1.2 = some failure := by
  obtain ⟨_, broken, fails⟩ := lines_of_octets [0x61, 0x0A, 0xFF]
  constructor
  · refine broken.2 ⟨[⟨"a", .lf⟩], [0xFF], [], ⟨0, some 1⟩, by decide +kernel, by decide +kernel,
      ?_, .inr (by decide +kernel), by decide +kernel⟩
    rintro _ (_ | ⟨_, ⟨⟩⟩)
    exact ⟨⟨by decide +kernel, by decide +kernel, by decide +kernel⟩, by decide +kernel⟩
  · exact (fails ⟨utf8 "t"⟩ _ (by decide +kernel)).2 ⟨.io ⟨utf8 "t"⟩ .notText, by decide +kernel⟩

end MailMerge.Template
