import MailMerge.Proofs.Dataset.Tables
import MailMerge.Proofs.Dataset.Written

/-!
# Reading back a written dataset

A header of distinct names and rows of arbitrary values are written with every field within quotes
(`written`); reading gives one row per row, which maps each name of the header to the value in its
column and has nothing else in it (`parse_written`).

The reader may be told the delimiter, it may take it from the extension of the path, or it guesses.
A guess counts the candidates in the header line.  Where no name of the header has a candidate in it,
only the separators count (`guess_written`), and in a dataset of one column, where nothing counts, any
delimiter reads the same, for none stands outside quotes.
-/

namespace MailMerge

set_option autoImplicit false

namespace Dataset

/-- The rows of a written dataset. -/
theorem rows_written {separator : Char} (valid : Settings.isDelimiter separator = true)
    {header : List String} (some_ : header ≠ []) (distinct : header.Nodup)
    (named : ∀ name ∈ header, name ≠ "" ∧ trimmed name = name) {ends : List LineEnd}
    {body : List Entry} (complete : ∀ entry ∈ body, entry.fields.length = header.length)
    (closed : Closed (⟨header, ends⟩ :: body)) :
    rows (.ofNat separator.toNat) (Utf8.encode (written separator (⟨header, ends⟩ :: body))) =
      .ok (body.map fun entry => Row.ofHeader header entry.fields) := by
  have filled : ∀ entry ∈ (⟨header, ends⟩ :: body : List Entry), entry.fields ≠ [] := by
    intro entry member
    rcases List.mem_cons.1 member with rfl | inside
    · exact some_
    · intro none_
      have := complete entry inside
      simp [none_, eq_comm, some_] at this
  have trimmedHeader : header.map trimmed = header :=
    List.map_congr_left (fun name member => (named name member).2) |>.trans header.map_id
  refine rows_eq_ok_iff.2 ⟨header, body.map Entry.fields, ?_, ?_, by simpa using complete, ?_⟩
  · rw [fields_records_written valid filled closed, List.map_cons, List.map_cons, List.map_map]
    rfl
  · rw [trimmedHeader]
    exact ⟨some_, fun name member => (named name member).1, distinct⟩
  · rw [trimmedHeader, List.map_map]
    rfl

/-! ## The header line -/

theorem textLines_of_noFeed {line : List Char} (noFeed : '\n' ∉ line) : textLines line = [line] := by
  induction line with
  | nil => rfl
  | cons c rest ih =>
    have other : c ≠ '\n' := fun same => noFeed (same ▸ List.mem_cons_self)
    simp [textLines, other, ih fun member => noFeed (List.mem_cons_of_mem _ member)]

theorem textLines_append {line : List Char} (noFeed : '\n' ∉ line) (rest : List Char) :
    textLines (line ++ '\n' :: rest) = line :: textLines rest := by
  induction line with
  | nil => simp [textLines]
  | cons c more ih =>
    have other : c ≠ '\n' := fun same => noFeed (same ▸ List.mem_cons_self)
    simp [textLines, other, ih fun member => noFeed (List.mem_cons_of_mem _ member)]

/-- A first line that is not blank is the header line. -/
theorem headerLine_of_first {text line : List Char} {more : List (List Char)}
    (first : textLines text = line :: more) {c : Char} (member : c ∈ line)
    (seen : isBlank c = false) : headerLine text = line := by
  have filled : line.all isBlank = false := List.all_eq_false.2 ⟨c, member, by simp [seen]⟩
  simp [headerLine, first, filled]

theorem mem_quotedField {c : Char} {field : String} (member : c ∈ quotedField field) :
    c = '"' ∨ c ∈ field.toList := by
  simp only [quotedField, quotedChar, List.mem_cons, List.mem_append, List.mem_flatMap] at member
  rcases member with mark | ⟨inside, there, written⟩ | mark | none_
  · exact .inl mark
  · split at written <;> simp_all
  · exact .inl mark
  · exact absurd none_ List.not_mem_nil

/-- The line of the header is its record, perhaps with a carriage return behind it. -/
theorem headerLine_written {separator : Char} {header : List String} (some_ : header ≠ [])
    (noFeed : '\n' ∉ writtenFields separator header) {ends : List LineEnd} {body : List Entry}
    (closed : Closed (⟨header, ends⟩ :: body)) :
    ∃ behind, behind ⊆ ['\r'] ∧
      headerLine (written separator (⟨header, ends⟩ :: body)) =
        writtenFields separator header ++ behind := by
  obtain ⟨inside, begins⟩ := @exists_written_cons separator ⟨header, []⟩ some_ []
  have mark : '"' ∈ writtenFields separator header := by
    have whole : written separator [⟨header, []⟩] = writtenFields separator header := by
      simp [written, Entry.written]
    rw [← whole, begins]
    exact List.mem_cons_self
  have seen : isBlank '"' = false := by decide
  cases ends with
  | nil =>
    obtain rfl := closed.eq_nil rfl
    refine ⟨[], List.nil_subset _, ?_⟩
    have single := textLines_of_noFeed noFeed
    rw [List.append_nil]
    simpa [written, Entry.written] using headerLine_of_first single mark seen
  | cons first more =>
    cases first with
    | feed =>
      refine ⟨[], List.nil_subset _, ?_⟩
      have cut := textLines_append noFeed
        (more.flatMap LineEnd.chars ++ written separator body)
      rw [List.append_nil]
      simpa [written, Entry.written, LineEnd.chars] using headerLine_of_first cut mark seen
    | returnFeed =>
      refine ⟨['\r'], List.Subset.refl _, ?_⟩
      have cut := @textLines_append (writtenFields separator header ++ ['\r'])
        (by simpa using noFeed) (more.flatMap LineEnd.chars ++ written separator body)
      simpa [written, Entry.written, LineEnd.chars] using
        headerLine_of_first cut (List.mem_append_left _ mark) seen

/-! ## Guessing the delimiter -/

/-- Of the characters outside the fields only the separators are not quotation marks. -/
theorem count_writtenFields {separator c : Char} {fields : List String} (noQuote : c ≠ '"')
    (absent : ∀ field ∈ fields, c ∉ field.toList) :
    (writtenFields separator fields).count c = if c = separator then fields.length - 1 else 0 := by
  have none_ {field : String} (noChar : c ∉ field.toList) : (quotedField field).count c = 0 :=
    List.count_eq_zero.2 fun member => (mem_quotedField member).elim noQuote noChar
  induction fields with
  | nil => simp [writtenFields]
  | cons field more ih =>
    have first := none_ (absent field List.mem_cons_self)
    cases more with
    | nil => simp [writtenFields, first]
    | cons next others =>
      have later := ih fun other member => absent other (List.mem_cons_of_mem _ member)
      simp only [writtenFields, List.count_append, first, List.count_cons, later, beq_iff_eq,
        List.length_cons]
      by_cases same : c = separator
      · simp [same]
      · simp [same, Ne.symm same]

/-- When only one candidate occurs, it is what is guessed. -/
theorem guess_of_count {text : List Char} {separator : Char} {occurrences : Nat}
    (candidate : separator ∈ candidates)
    (counts : ∀ c ∈ candidates,
      (headerLine text).count c = if c = separator then occurrences else 0) :
    guess text = if occurrences = 0 then ',' else separator := by
  simp only [candidates, List.mem_cons, List.not_mem_nil, or_false] at candidate
  have comma := counts ',' (by decide)
  have semicolon := counts ';' (by decide)
  have tabulator := counts '\t' (by decide)
  have bar := counts '|' (by decide)
  rcases Nat.eq_zero_or_pos occurrences with none_ | some_
  · simp [guess, candidates, comma, semicolon, tabulator, bar, none_]
  · rcases candidate with rfl | rfl | rfl | rfl <;>
      simp [guess, candidates, comma, semicolon, tabulator, bar, some_, Nat.pos_iff_ne_zero.1 some_]

/-- Between names without candidates in them the separator is guessed, and a comma if there is but one
name. -/
theorem guess_written {separator : Char} (candidate : separator ∈ candidates) {header : List String}
    (some_ : header ≠ []) (plain : ∀ name ∈ header, ∀ c ∈ name.toList, c ∉ candidates ∧ c ≠ '\n')
    {ends : List LineEnd} {body : List Entry} (closed : Closed (⟨header, ends⟩ :: body)) :
    guess (written separator (⟨header, ends⟩ :: body)) =
      if header.length - 1 = 0 then ',' else separator := by
  have absent {c : Char} (member : c ∈ candidates) : ∀ name ∈ header, c ∉ name.toList :=
    fun name there inside => (plain name there c inside).1 member
  have noFeed : '\n' ∉ writtenFields separator header := by
    have counted := @count_writtenFields separator '\n' header
      (by decide) fun name there inside => (plain name there _ inside).2 rfl
    have other : '\n' ≠ separator := by
      rintro rfl
      exact absurd candidate (by decide)
    rw [if_neg other] at counted
    exact List.count_eq_zero.1 counted
  obtain ⟨behind, few, line⟩ := headerLine_written some_ noFeed closed
  refine guess_of_count candidate fun c member => ?_
  have noQuote : c ≠ '"' := by
    rintro rfl
    exact absurd member (by decide)
  have notBehind : c ∉ behind := by
    intro inside
    obtain rfl := List.mem_singleton.1 (few inside)
    exact absurd member (by decide)
  rw [line, List.count_append, count_writtenFields noQuote (absent member),
    List.count_eq_zero.2 notBehind, Nat.add_zero]

/-! ## Reading back -/

theorem isDelimiter_of_accepted {field : String} {separator : Char} {delimiter : UInt8}
    (accepted : Settings.checkDelimiter field (.singleton separator) = .ok delimiter) :
    Settings.isDelimiter separator = true ∧ delimiter = .ofNat separator.toNat := by
  simp only [Settings.checkDelimiter, String.toList_singleton] at accepted
  split at accepted
  case isTrue valid => exact ⟨valid, (Except.ok.inj accepted).symm⟩
  case isFalse => exact absurd accepted (by simp)

/-- Records of one field have no separator in them. -/
theorem written_of_single {entries : List Entry}
    (single : ∀ entry ∈ entries, entry.fields.length = 1) (separator other : Char) :
    written separator entries = written other entries := by
  refine List.flatMap_congr fun entry member => ?_
  obtain ⟨field, only⟩ := List.length_eq_one_iff.1 (single entry member)
  simp [Entry.written, only, writtenFields]

theorem withoutMark_written (separator : Char) {entry : Entry} (some_ : entry.fields ≠ [])
    (more : List Entry) {mark : List Char} (marked : mark = [] ∨ mark = [Char.ofNat 0xFEFF]) :
    withoutMark (mark ++ written separator (entry :: more)) = written separator (entry :: more) := by
  obtain ⟨rest, begins⟩ := exists_written_cons separator some_ more
  rw [begins]
  rcases marked with rfl | rfl <;> rfl

/-- How the reader comes to the octet of the character that separates the fields, given the octet it
was told. -/
inductive Chosen (path : Path) (header : List String) (separator : Char) (delimiter : UInt8) :
    Option UInt8 → Prop where
  /-- It is told. -/
  | given : Chosen path header separator delimiter (some delimiter)
  /-- The extension of the path stands for it. -/
  | extension (stands : path.extension?.bind ofExtension? = some delimiter) :
    Chosen path header separator delimiter none
  /-- It is one of the candidates that are tried where the extension stands for none, and no name of
  the header has such a candidate or a line feed in it. -/
  | guessed (other : path.extension?.bind ofExtension? = none) (candidate : separator ∈ candidates)
      (plain : ∀ name ∈ header, ∀ c ∈ name.toList, c ∉ candidates ∧ c ≠ '\n') :
    Chosen path header separator delimiter none

/-- The reader takes a delimiter with which the dataset would be written just so. -/
theorem Chosen.exists_delimiter {path : Path} {header : List String} {separator : Char}
    {given : Option UInt8} (chosen : Chosen path header separator (.ofNat separator.toNat) given)
    (valid : Settings.isDelimiter separator = true) (some_ : header ≠ []) {ends : List LineEnd}
    {body : List Entry} (complete : ∀ entry ∈ body, entry.fields.length = header.length)
    (closed : Closed (⟨header, ends⟩ :: body)) :
    ∃ taken, Settings.isDelimiter taken = true ∧
      delimiterFor path given (written separator (⟨header, ends⟩ :: body)) = .ofNat taken.toNat ∧
      written separator (⟨header, ends⟩ :: body) = written taken (⟨header, ends⟩ :: body) := by
  cases chosen with
  | given => exact ⟨separator, valid, rfl, rfl⟩
  | extension stands => exact ⟨separator, valid, by simp [delimiterFor, stands], rfl⟩
  | guessed other candidate plain =>
    have taken := guess_written candidate some_ plain closed
    refine ⟨_, ?_, by rw [delimiterFor, other, taken], ?_⟩
    · split
      · decide
      · exact valid
    · split
      case isTrue none_ =>
        refine written_of_single (fun entry member => ?_) _ _
        have one : header.length = 1 := by
          have := List.length_pos_iff.2 some_
          omega
        rcases List.mem_cons.1 member with rfl | inside
        · exact one
        · exact (complete entry inside).trans one
      case isFalse => rfl

/-- A dataset that was written is read back: one row for each, in order, which maps every name of the
header to the value in its column and has nothing else in it.  Values may have any characters in
them; the delimiter may be given, be what the extension stands for, or be guessed. -/
theorem parse_written {path : Path} {given : Option UInt8} {field : String} {separator : Char}
    {delimiter : UInt8}
    (accepted : Settings.checkDelimiter field (.singleton separator) = .ok delimiter)
    {header : List String} (some_ : header ≠ []) (distinct : header.Nodup)
    (named : ∀ name ∈ header, name ≠ "" ∧ trimmed name = name) {ends : List LineEnd}
    {body : List Entry} (complete : ∀ entry ∈ body, entry.fields.length = header.length)
    (closed : Closed (⟨header, ends⟩ :: body))
    (chosen : Chosen path header separator delimiter given)
    {mark : List Char} (marked : mark = [] ∨ mark = [Char.ofNat 0xFEFF]) :
    ∃ rows : List Row,
      parse path given (mark ++ written separator (⟨header, ends⟩ :: body)) = .ok rows ∧
        List.Forall₂ (fun entry row => ∀ name value, row.get? name = some value ↔
          ∃ column : Nat, header[column]? = some name ∧ entry.fields[column]? = some value)
          body rows := by
  obtain ⟨valid, rfl⟩ := isDelimiter_of_accepted accepted
  obtain ⟨taken, validTaken, selected, same⟩ :=
    chosen.exists_delimiter valid some_ complete closed
  refine ⟨body.map fun entry => Row.ofHeader header entry.fields, ?_, ?_⟩
  · rw [parse, @withoutMark_written separator ⟨header, ends⟩ some_ body mark marked, selected, same]
    exact rows_written validTaken some_ distinct named complete closed
  · rw [List.forall₂_map_right_iff, List.forall₂_same]
    exact fun entry member name value => Row.get?_ofHeader distinct (complete entry member) name value

/-- A dataset of two columns, to be guessed, behind a mark at its start: a semicolon between the
fields, an empty line between the rows, none at the end, and values with everything in them. -/
theorem parse_written_guessed :
    ∃ rows : List Row,
      parse (.ofString "d.txt") none (['\uFEFF'] ++ written ';'
        [⟨["FileName", "A b"], [.returnFeed]⟩, ⟨["\"x;y\"", ""], [.feed, .returnFeed]⟩,
          ⟨["", "a\r\n,\t|\"\""], []⟩]) = .ok rows ∧
        List.Forall₂ (fun (entry : Entry) row => ∀ name value, row.get? name = some value ↔
          ∃ column : Nat, ["FileName", "A b"][column]? = some name ∧
            entry.fields[column]? = some value)
          [⟨["\"x;y\"", ""], [.feed, .returnFeed]⟩, ⟨["", "a\r\n,\t|\"\""], []⟩] rows :=
  @parse_written _ _ "delimiter" _ 0x3B (by decide +kernel) _ (by decide) (by decide)
    (by decide +kernel) _ _ (by decide) (by decide)
    (.guessed (by decide +kernel) (by decide) (by simp [candidates])) _ (.inr rfl)

end Dataset

end MailMerge
