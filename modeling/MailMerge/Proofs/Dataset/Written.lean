import MailMerge.Dataset.Table
import MailMerge.Proofs.Text.Encoding
import MailMerge.Settings.Basic

/-!
# Datasets as they are written

A dataset is written record by record: every field stands within quotes, in which a quotation mark is
doubled, a separator stands between two fields, and a line end closes the record, with any number of
empty lines behind it.  The last record may go without.

Splitting what is written gives the fields back (`fields_recordsFrom_written`), whatever characters
they consist of.  The splitter is followed piece by piece: `Passes` says which state a run of octets
takes it to when no record ends in the run, there is one such statement for a character within
quotes, for a field and for a record, and they are put together by `Passes.append`.
-/

namespace MailMerge.Dataset

set_option autoImplicit false

/-! ## The written form -/

/-- How a line ends. -/
inductive LineEnd where
  /-- With a line feed. -/
  | feed
  /-- With a carriage return and a line feed. -/
  | returnFeed
  deriving DecidableEq, Repr

/-- The characters that end a line. -/
def LineEnd.chars : LineEnd → List Char
  | .feed => ['\n']
  | .returnFeed => ['\r', '\n']

/-- A character within quotes. -/
def quotedChar (c : Char) : List Char := if c = '"' then ['"', '"'] else [c]

/-- A field within quotes. -/
def quotedField (field : String) : List Char := '"' :: (field.toList.flatMap quotedChar ++ ['"'])

/-- Fields within quotes, with the separator between them. -/
def writtenFields (separator : Char) : List String → List Char
  | [] => []
  | [field] => quotedField field
  | field :: more => quotedField field ++ separator :: writtenFields separator more

/-- A record with the line ends behind it.  The first of them closes the record, and each further one
is an empty line. -/
structure Entry where
  /-- The fields. -/
  fields : List String
  /-- What stands between this record and the next one. -/
  ends : List LineEnd
  deriving DecidableEq, Repr

/-- A record as it is written. -/
def Entry.written (separator : Char) (entry : Entry) : List Char :=
  writtenFields separator entry.fields ++ entry.ends.flatMap LineEnd.chars

/-- A dataset as it is written. -/
def written (separator : Char) (entries : List Entry) : List Char :=
  entries.flatMap (Entry.written separator)

/-- Every record is closed, except perhaps the last one. -/
def Closed (entries : List Entry) : Prop := ∀ entry ∈ entries.dropLast, entry.ends ≠ []

instance (entries : List Entry) : Decidable (Closed entries) :=
  inferInstanceAs (Decidable (∀ entry ∈ entries.dropLast, entry.ends ≠ []))

theorem Closed.tail {entry : Entry} {more : List Entry} (closed : Closed (entry :: more)) :
    Closed more := by
  cases more with
  | nil => exact fun _ member => absurd member (by simp)
  | cons next rest => exact fun other member => closed other (List.mem_cons_of_mem _ member)

/-- A record without a line end is the last one. -/
theorem Closed.eq_nil {entry : Entry} {more : List Entry} (closed : Closed (entry :: more))
    (open_ : entry.ends = []) : more = [] := by
  cases more with
  | nil => rfl
  | cons next rest => exact absurd open_ (closed entry (by simp))

/-- What is written for a record begins with a quotation mark. -/
theorem exists_written_cons (separator : Char) {entry : Entry} (some_ : entry.fields ≠ [])
    (more : List Entry) : ∃ rest, written separator (entry :: more) = '"' :: rest := by
  obtain ⟨fields, ends⟩ := entry
  rcases fields with _ | ⟨field, _ | ⟨next, others⟩⟩
  · exact absurd rfl some_
  all_goals exact ⟨_, rfl⟩

/-! ## Octets of single characters -/

theorem encodeChar_of_isDelimiter {c : Char} (valid : Settings.isDelimiter c = true) :
    Utf8.encodeChar c = [.ofNat c.toNat] := by
  have ascii : c.toNat < 128 := by simp [Settings.isDelimiter] at valid; omega
  rw [Utf8.encodeChar, Utf8.encodePoint, if_pos ascii]

/-- A delimiter is told apart from the octets that have a meaning of their own. -/
theorem ofNat_ne_of_isDelimiter {c : Char} (valid : Settings.isDelimiter c = true) :
    UInt8.ofNat c.toNat ≠ quote ∧ endsRecord (.ofNat c.toNat) = false := by
  simp only [Settings.isDelimiter, Bool.and_eq_true, decide_eq_true_eq, bne_iff_ne, ne_eq] at valid
  obtain ⟨⟨⟨ascii, noQuote⟩, noFeed⟩, noReturn⟩ := valid
  have apart (other : Char) (differs : c ≠ other) (small : other.toNat < 256) :
      UInt8.ofNat c.toNat ≠ .ofNat other.toNat := by
    intro same
    have numbers := congrArg UInt8.toNat same
    rw [Utf8.toNat_octet (by omega), Utf8.toNat_octet small] at numbers
    exact differs (Char.toNat_inj.1 numbers)
  refine ⟨apart '"' noQuote (by decide), ?_⟩
  have feed : UInt8.ofNat c.toNat ≠ lineFeed := apart '\n' noFeed (by decide)
  have back : UInt8.ofNat c.toNat ≠ carriageReturn := apart '\r' noReturn (by decide)
  simp [endsRecord, feed, back]

theorem quote_notMem_encodeChar {c : Char} (other : c ≠ '"') : quote ∉ Utf8.encodeChar c := by
  intro member
  have whole := Utf8.encodeChar_of_ascii_mem member (by decide)
  have same : Utf8.encode [c] = Utf8.encode ['"'] := congrArg (· ++ []) whole
  have texts := congrArg Utf8.decode same
  rw [Utf8.decode_encode, Utf8.decode_encode] at texts
  exact other (by simpa using texts)

/-! ## Runs of octets within a record -/

/-- The octets take the splitter from one state to another, and no record ends in them. -/
def Passes (delimiter : UInt8) (octets : Bytes) (state : State) (before : Unfinished)
    (next : State) (after : Unfinished) : Prop :=
  ∀ (mark : Mark) (rest : Bytes),
    recordsFrom delimiter state before mark (octets ++ rest) =
      recordsFrom delimiter next after (octets.foldl Mark.next mark) rest

variable {delimiter : UInt8}

theorem Passes.append {left right : Bytes} {state middle next : State}
    {before between after : Unfinished} (first : Passes delimiter left state before middle between)
    (second : Passes delimiter right middle between next after) :
    Passes delimiter (left ++ right) state before next after := by
  intro mark rest
  rw [List.append_assoc, first, second, List.foldl_append]

theorem Passes.nil (state : State) (unfinished : Unfinished) :
    Passes delimiter [] state unfinished state unfinished :=
  fun _ _ => rfl

/-- The record with the octet added to the field that is being read. -/
def Unfinished.keep (unfinished : Unfinished) (octets : Bytes) : Unfinished :=
  { unfinished with field := octets.reverse ++ unfinished.field }

/-- The record with the field that is being read taken as complete. -/
def Unfinished.endField (unfinished : Unfinished) : Unfinished :=
  ⟨unfinished.mark, unfinished.field.reverse :: unfinished.fields, []⟩

theorem passes_of_skip {octet : UInt8} {state next : State}
    (does : step delimiter state octet = (next, .skip)) (unfinished : Unfinished) :
    Passes delimiter [octet] state unfinished next unfinished := by
  intro mark rest
  simp [recordsFrom, does]

theorem passes_of_keep {octet : UInt8} {state next : State}
    (does : step delimiter state octet = (next, .keep)) (unfinished : Unfinished) :
    Passes delimiter [octet] state unfinished next (unfinished.keep [octet]) := by
  intro mark rest
  simp [recordsFrom, does, Unfinished.keep]

theorem passes_of_endField {octet : UInt8} {state next : State}
    (does : step delimiter state octet = (next, .endField)) (unfinished : Unfinished) :
    Passes delimiter [octet] state unfinished next unfinished.endField := by
  intro mark rest
  simp [recordsFrom, does, Unfinished.endField]

theorem Unfinished.keep_append (unfinished : Unfinished) (left right : Bytes) :
    (unfinished.keep left).keep right = unfinished.keep (left ++ right) := by
  simp [Unfinished.keep]

/-! ## Fields -/

/-- Within quotes everything but a quote is kept. -/
theorem passes_inQuotes {octets : Bytes} (plain : quote ∉ octets) (unfinished : Unfinished) :
    Passes delimiter octets .inQuotes unfinished .inQuotes (unfinished.keep octets) := by
  induction octets generalizing unfinished with
  | nil => exact .nil _ _
  | cons octet rest ih =>
    have other : octet ≠ quote := fun same => plain (same ▸ List.mem_cons_self)
    have more : quote ∉ rest := fun member => plain (List.mem_cons_of_mem _ member)
    have does : step delimiter .inQuotes octet = (.inQuotes, .keep) := by simp [step, other]
    have both := (passes_of_keep does unfinished).append (ih more (unfinished.keep [octet]))
    rwa [Unfinished.keep_append] at both

/-- A doubled quote is kept as one. -/
theorem passes_quotedChar (c : Char) (unfinished : Unfinished) :
    Passes delimiter (Utf8.encode (quotedChar c)) .inQuotes unfinished .inQuotes
      (unfinished.keep (Utf8.encodeChar c)) := by
  by_cases mark : c = '"'
  · subst mark
    have first : step delimiter .inQuotes quote = (.behindQuote, .skip) := rfl
    have second : step delimiter .behindQuote quote = (.inQuotes, .keep) := rfl
    exact (passes_of_skip first unfinished).append (passes_of_keep second unfinished)
  · have single : Utf8.encode (quotedChar c) = Utf8.encodeChar c := by simp [quotedChar, mark]
    rw [single]
    exact passes_inQuotes (quote_notMem_encodeChar mark) unfinished

theorem passes_quotedText (text : List Char) (unfinished : Unfinished) :
    Passes delimiter (Utf8.encode (text.flatMap quotedChar)) .inQuotes unfinished .inQuotes
      (unfinished.keep (Utf8.encode text)) := by
  induction text generalizing unfinished with
  | nil => exact .nil _ _
  | cons c text ih =>
    have both := (passes_quotedChar c unfinished).append (ih (unfinished.keep (Utf8.encodeChar c)))
    rwa [Unfinished.keep_append, ← Utf8.encode_append] at both

/-- The states in which a field may begin. -/
def State.StartsField (state : State) : Prop := state = .between ∨ state = .atField

theorem passes_quotedField {state : State} (start : state.StartsField) (field : String)
    (unfinished : Unfinished) :
    Passes delimiter (Utf8.encode (quotedField field)) state unfinished .behindQuote
      (unfinished.keep (utf8 field)) := by
  have opens : step delimiter state quote = (.inQuotes, .skip) := by
    rcases start with rfl | rfl <;> rfl
  have closes : step delimiter .inQuotes quote = (.behindQuote, .skip) := rfl
  have whole : Utf8.encode (quotedField field) =
      [quote] ++ (Utf8.encode (field.toList.flatMap quotedChar) ++ [quote]) := by
    rw [quotedField, Utf8.encode_cons, Utf8.encode_append]
    rfl
  rw [whole]
  exact (passes_of_skip opens unfinished).append
    ((passes_quotedText field.toList unfinished).append (passes_of_skip closes _))

/-! ## Records -/

variable {separator : Char}

/-- The separator behind a field ends it. -/
theorem passes_separator (valid : Settings.isDelimiter separator = true)
    (unfinished : Unfinished) :
    Passes (.ofNat separator.toNat) (Utf8.encodeChar separator) .behindQuote unfinished .atField
      unfinished.endField := by
  obtain ⟨noQuote, _⟩ := ofNat_ne_of_isDelimiter valid
  have does : step (.ofNat separator.toNat) .behindQuote (.ofNat separator.toNat) =
      (.atField, .endField) := by
    simp [step, stepInField, noQuote]
  rw [encodeChar_of_isDelimiter valid]
  exact passes_of_endField does unfinished

/-- Behind the last field of a record all its fields have been read. -/
theorem passes_writtenFields (valid : Settings.isDelimiter separator = true) {state : State}
    (start : state.StartsField) {fields : List String} (some_ : fields ≠ [])
    {unfinished : Unfinished} (fresh : unfinished.field = []) :
    ∃ after : Unfinished, after.finish.fields = unfinished.fields.reverse ++ fields.map utf8 ∧
      Passes (.ofNat separator.toNat) (Utf8.encode (writtenFields separator fields)) state
        unfinished .behindQuote after := by
  induction fields generalizing state unfinished with
  | nil => exact absurd rfl some_
  | cons field more ih =>
    have first := @passes_quotedField (.ofNat separator.toNat) state start field unfinished
    cases more with
    | nil => exact ⟨_, by simp [Unfinished.finish, Unfinished.keep, fresh], first⟩
    | cons next others =>
      obtain ⟨after, fields, passes⟩ :=
        @ih .atField (.inr rfl) (by simp) (unfinished.keep (utf8 field)).endField rfl
      refine ⟨after, ?_, ?_⟩
      · rw [fields]
        simp [Unfinished.endField, Unfinished.keep, fresh]
      · have joined := first.append ((passes_separator valid _).append passes)
        simpa [writtenFields] using joined

/-- Empty lines between records are skipped. -/
theorem passes_ends (ends : List LineEnd) (unfinished : Unfinished) :
    Passes delimiter (Utf8.encode (ends.flatMap LineEnd.chars)) .between unfinished .between
      unfinished := by
  have feed : step delimiter .between lineFeed = (.between, .skip) := rfl
  have back : step delimiter .between carriageReturn = (.between, .skip) := rfl
  induction ends with
  | nil => exact .nil _ _
  | cons first more ih =>
    rw [List.flatMap_cons, Utf8.encode_append]
    refine Passes.append ?_ ih
    cases first with
    | feed => exact passes_of_skip feed unfinished
    | returnFeed => exact (passes_of_skip back unfinished).append (passes_of_skip feed unfinished)

theorem recordsFrom_of_endRecord {octet : UInt8} {state next : State}
    (does : step delimiter state octet = (next, .endRecord)) (unfinished : Unfinished)
    (mark : Mark) (rest : Bytes) :
    recordsFrom delimiter state unfinished mark (octet :: rest) =
      unfinished.finish ::
        recordsFrom delimiter next (.at (mark.next octet)) (mark.next octet) rest := by
  simp [recordsFrom, does]

/-- A line end behind a field ends the record. -/
theorem recordsFrom_lineEnd (valid : Settings.isDelimiter separator = true) (lineEnd : LineEnd)
    (unfinished : Unfinished) (mark : Mark) (rest : Bytes) : ∃ start next : Mark,
    recordsFrom (.ofNat separator.toNat) .behindQuote unfinished mark
        (Utf8.encode lineEnd.chars ++ rest) =
      unfinished.finish :: recordsFrom (.ofNat separator.toNat) .between (.at start) next rest := by
  obtain ⟨noQuote, noEnd⟩ := ofNat_ne_of_isDelimiter valid
  have ends {octet : UInt8} (ending : endsRecord octet = true) (other : octet ≠ quote) :
      step (.ofNat separator.toNat) .behindQuote octet = (closing octet, .endRecord) := by
    have differs : octet ≠ .ofNat separator.toNat := fun same => by simp [same, noEnd] at ending
    simp [step, stepInField, other, differs, ending]
  cases lineEnd with
  | feed => exact ⟨_, _, recordsFrom_of_endRecord (ends rfl (by decide)) unfinished mark rest⟩
  | returnFeed =>
    have skips : step (.ofNat separator.toNat) .behindReturn lineFeed = (.between, .skip) := rfl
    refine ⟨mark.next carriageReturn, (mark.next carriageReturn).next lineFeed, ?_⟩
    calc recordsFrom (.ofNat separator.toNat) .behindQuote unfinished mark
          (carriageReturn :: lineFeed :: rest)
        = unfinished.finish :: recordsFrom (.ofNat separator.toNat) .behindReturn
            (.at (mark.next carriageReturn)) (mark.next carriageReturn) (lineFeed :: rest) :=
          recordsFrom_of_endRecord (ends rfl (by decide)) unfinished mark _
      _ = _ := congrArg _ (passes_of_skip skips _ _ rest)

/-! ## Datasets -/

/-- Splitting what was written gives the fields of every record. -/
theorem fields_recordsFrom_written (valid : Settings.isDelimiter separator = true)
    {entries : List Entry} (some_ : ∀ entry ∈ entries, entry.fields ≠ []) (closed : Closed entries)
    (start mark : Mark) :
    (recordsFrom (.ofNat separator.toNat) .between (.at start) mark
        (Utf8.encode (written separator entries))).map Record.fields =
      entries.map fun entry => entry.fields.map utf8 := by
  induction entries generalizing start mark with
  | nil => rfl
  | cons entry more ih =>
    obtain ⟨after, fields, passes⟩ := @passes_writtenFields _ valid _ (.inl rfl) _
      (some_ entry List.mem_cons_self) (.at start) rfl
    have later := ih (fun other member => some_ other (List.mem_cons_of_mem _ member)) closed.tail
    rw [written, List.flatMap_cons, Entry.written, List.append_assoc, Utf8.encode_append, passes]
    cases ends : entry.ends with
    | nil =>
      obtain rfl := closed.eq_nil ends
      simpa [recordsFrom, State.isOpen, Unfinished.at] using fields
    | cons first others =>
      rw [List.flatMap_cons, List.append_assoc, Utf8.encode_append]
      obtain ⟨start', next, ended⟩ := recordsFrom_lineEnd valid first after _ _
      rw [ended, Utf8.encode_append, passes_ends others, List.map_cons, fields, List.map_cons]
      congr 1
      exact later _ _

/-- The records of a written dataset have the fields that were written. -/
theorem fields_records_written (valid : Settings.isDelimiter separator = true)
    {entries : List Entry} (some_ : ∀ entry ∈ entries, entry.fields ≠ [])
    (closed : Closed entries) :
    (records (.ofNat separator.toNat) (Utf8.encode (written separator entries))).map
        Record.fields =
      entries.map fun entry => entry.fields.map utf8 := by
  have noMark : byteOrderMark.isPrefixOf (Utf8.encode (written separator entries)) = false := by
    cases entries with
    | nil => rfl
    | cons entry more =>
      obtain ⟨rest, begins⟩ := exists_written_cons separator (some_ entry List.mem_cons_self) more
      rw [begins]
      rfl
  rw [records, noMark]
  exact fields_recordsFrom_written valid some_ closed _ _

end MailMerge.Dataset
