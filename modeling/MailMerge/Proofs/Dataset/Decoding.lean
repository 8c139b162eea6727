import MailMerge.Proofs.Dataset.Tables
import MailMerge.Proofs.Dataset.Written
import MailMerge.Proofs.Program.Stages

/-!
# Fields of a text are texts

A dataset is cut into fields octet by octet, and each field is read as text by itself.  If the
delimiter is a character of ASCII, then so is every octet at which the splitter does anything but keep
it, and none of these is part of a longer character (`exists_step_keep`).  So the octets of a character
stay together, and all fields of a text are texts, however its quotes are placed (`isText_records`).

Settings that have been checked give no other delimiter.  With them a dataset that is text has rows or
is wrong as a table; that one of its fields is no text does not come up
(`Program.rows_of_check`).
-/

namespace MailMerge

set_option autoImplicit false

namespace Dataset

/-! ## One character -/

variable {delimiter : UInt8}

/-- An octet of a longer character is kept. -/
theorem exists_step_keep (ascii : delimiter.toNat < 0x80) {octet : UInt8}
    (high : ¬ octet.toNat < 0x80) (state : State) :
    ∃ next, step delimiter state octet = (next, .keep) := by
  have apart {other : UInt8} (low : other.toNat < 0x80) : octet ≠ other := by
    rintro rfl
    exact high low
  have noQuote : octet ≠ quote := apart (by decide)
  have noFeed : octet ≠ lineFeed := apart (by decide)
  have noReturn : octet ≠ carriageReturn := apart (by decide)
  have noEnd : endsRecord octet = false := by simp [endsRecord, noFeed, noReturn]
  have other : octet ≠ delimiter := apart ascii
  cases state <;>
    simp [step, stepBetween, stepAtField, stepInField, noQuote, noEnd, noFeed, other]

theorem exists_passes_keep (ascii : delimiter.toNat < 0x80) {octets : Bytes}
    (high : ∀ octet ∈ octets, ¬ octet.toNat < 0x80) (state : State) (unfinished : Unfinished) :
    ∃ next, Passes delimiter octets state unfinished next (unfinished.keep octets) := by
  induction octets generalizing state unfinished with
  | nil => exact ⟨state, .nil state unfinished⟩
  | cons octet rest ih =>
    obtain ⟨here, later⟩ := List.forall_mem_cons.1 high
    obtain ⟨middle, does⟩ := exists_step_keep ascii here state
    obtain ⟨next, passes⟩ := ih later middle (unfinished.keep [octet])
    have both := (passes_of_keep does unfinished).append passes
    rw [Unfinished.keep_append] at both
    exact ⟨next, both⟩

/-- What has been read of a record is text. -/
structure Unfinished.IsText (unfinished : Unfinished) : Prop where
  /-- The complete fields are texts. -/
  fields : ∀ field ∈ unfinished.fields, Utf8.isText field = true
  /-- The field that is being read is text so far. -/
  field : ∃ text, unfinished.field.reverse = Utf8.encode text

namespace Unfinished.IsText

variable {unfinished : Unfinished}

theorem at_ (mark : Mark) : (Unfinished.at mark).IsText := ⟨by simp [Unfinished.at], [], rfl⟩

theorem keep (fine : unfinished.IsText) (c : Char) :
    (unfinished.keep (Utf8.encodeChar c)).IsText := by
  obtain ⟨text, same⟩ := fine.field
  exact ⟨fine.fields, text ++ [c], by simp [Unfinished.keep, same, Utf8.encode]⟩

theorem endField (fine : unfinished.IsText) : unfinished.endField.IsText := by
  obtain ⟨text, same⟩ := fine.field
  refine ⟨List.forall_mem_cons.2 ⟨?_, fine.fields⟩, [], rfl⟩
  rw [same]
  exact Utf8.isText_encode text

theorem finish (fine : unfinished.IsText) :
    ∀ field ∈ unfinished.finish.fields, Utf8.isText field = true := by
  intro field member
  have among : field ∈ unfinished.endField.fields := by
    simpa [Unfinished.finish, Unfinished.endField, or_comm] using member
  exact fine.endField.fields field among

end Unfinished.IsText

/-! ## Records -/

/-- The records of a text have texts for their fields. -/
theorem isText_recordsFrom (ascii : delimiter.toNat < 0x80) (text : List Char) (state : State)
    {unfinished : Unfinished} (fine : unfinished.IsText) (mark : Mark) :
    ∀ record ∈ recordsFrom delimiter state unfinished mark (Utf8.encode text),
      ∀ field ∈ record.fields, Utf8.isText field = true := by
  induction text generalizing state unfinished mark with
  | nil =>
    intro record member
    simp only [Utf8.encode_nil, recordsFrom] at member
    split_ifs at member
    · obtain rfl := List.mem_singleton.1 member
      exact fine.finish
    · exact absurd member List.not_mem_nil
  | cons c text ih =>
    rw [Utf8.encode_cons]
    by_cases single : ∃ octet ∈ Utf8.encodeChar c, octet.toNat < 0x80
    · obtain ⟨octet, member, low⟩ := single
      have whole := Utf8.encodeChar_of_ascii_mem member low
      have kept := fine.keep c
      rw [whole] at kept ⊢
      rcases does : step delimiter state octet with ⟨next, _ | _ | _ | _⟩
      · rw [passes_of_skip does]
        exact ih next fine _
      · rw [passes_of_keep does]
        exact ih next kept _
      · rw [passes_of_endField does]
        exact ih next fine.endField _
      · rw [List.singleton_append, recordsFrom_of_endRecord does]
        exact List.forall_mem_cons.2 ⟨fine.finish, ih next (.at_ _) _⟩
    · obtain ⟨next, passes⟩ := exists_passes_keep ascii (by simpa using single) state unfinished
      rw [passes]
      exact ih next (fine.keep c) _

/-- A mark at the start of a text is its first character. -/
theorem exists_encode_of_marked {text : List Char}
    (marked : byteOrderMark.isPrefixOf (Utf8.encode text) = true) :
    ∃ more, (Utf8.encode text).drop 3 = Utf8.encode more := by
  obtain ⟨rest, same⟩ := List.isPrefixOf_iff_prefix.1 marked
  have first : Utf8.encodeChar (Char.ofNat 0xFEFF) = byteOrderMark := by decide
  have cut := Utf8.pieces_encodeChar_append (Char.ofNat 0xFEFF) rest
  rw [first, same, Utf8.pieces_encode] at cut
  cases text with
  | nil => simp at cut
  | cons c more =>
    obtain ⟨-, later⟩ := List.cons.inj cut
    refine ⟨more, ?_⟩
    rw [← same, Utf8.encode_of_decode (Utf8.decode_eq_ok.2 later.symm)]
    rfl

theorem isText_records (ascii : delimiter.toNat < 0x80) (text : List Char) :
    ∀ record ∈ records delimiter (Utf8.encode text),
      ∀ field ∈ record.fields, Utf8.isText field = true := by
  unfold records
  split
  case isTrue marked =>
    obtain ⟨more, same⟩ := exists_encode_of_marked marked
    rw [same]
    exact isText_recordsFrom ascii more .between (.at_ _) _
  case isFalse => exact isText_recordsFrom ascii text .between (.at_ _) _

/-- A delimiter beyond ASCII can cut a character in two. -/
example : (records 0xA9 (utf8 "é")).map Record.fields = [[[0xC3], []]] := by decide +kernel

/-- Records whose fields are texts are those of a table of texts. -/
theorem exists_table {all : List Record}
    (texts : ∀ record ∈ all, ∀ field ∈ record.fields, Utf8.isText field = true) :
    ∃ table : List (List String), all.map Record.fields = table.map (·.map utf8) := by
  have fields (octets : List Bytes) (texts : ∀ field ∈ octets, Utf8.isText field = true) :
      ∃ names : List String, octets = names.map utf8 := by
    induction octets with
    | nil => exact ⟨[], rfl⟩
    | cons field more ih =>
      obtain ⟨here, later⟩ := List.forall_mem_cons.1 texts
      obtain ⟨text, rfl⟩ := Utf8.exists_encode_of_isText here
      obtain ⟨names, rfl⟩ := ih later
      exact ⟨.ofList text :: names, by simp [utf8]⟩
  induction all with
  | nil => exact ⟨[], rfl⟩
  | cons record more ih =>
    obtain ⟨here, later⟩ := List.forall_mem_cons.1 texts
    obtain ⟨names, same⟩ := fields record.fields here
    obtain ⟨table, rest⟩ := ih later
    exact ⟨names :: table, by rw [List.map_cons, List.map_cons, same, rest]⟩

/-! ## Delimiters -/

theorem foldl_moreFrequent_mem (first : Char × Nat) (others : List (Char × Nat)) :
    others.foldl moreFrequent first ∈ first :: others := by
  induction others generalizing first with
  | nil => exact List.mem_singleton_self first
  | cons next others ih =>
    rw [List.foldl_cons]
    rcases List.mem_cons.1 (ih (moreFrequent first next)) with here | later
    · rw [here, moreFrequent]
      split <;> simp
    · exact List.mem_cons_of_mem _ (List.mem_cons_of_mem _ later)

theorem guess_mem (text : List Char) : guess text ∈ candidates := by
  unfold guess
  simp only
  split
  case h_1 => decide
  case h_2 first others counted =>
    have among := foldl_moreFrequent_mem first others
    rw [← counted] at among
    obtain ⟨c, member, same⟩ := List.mem_map.1 (List.mem_filter.1 among).1
    rw [← same]
    exact member

/-- A delimiter that is not given is one of ASCII. -/
theorem delimiterFor_lt (path : Path) {given : Option UInt8}
    (ascii : ∀ octet ∈ given, octet.toNat < 0x80) (text : List Char) :
    (delimiterFor path given text).toNat < 0x80 := by
  unfold delimiterFor
  split
  case h_1 octet => exact ascii octet rfl
  case h_2 =>
    split
    case h_1 octet stands =>
      obtain ⟨extension, -, stands⟩ := Option.bind_eq_some_iff.1 stands
      unfold ofExtension? at stands
      simp only at stands
      split_ifs at stands
      all_goals
        obtain rfl := Option.some.inj stands
        decide
    case h_2 =>
      have all : candidates.all fun c => (UInt8.ofNat c.toNat).toNat < 0x80 := by decide
      exact of_decide_eq_true (List.all_eq_true.1 all _ (guess_mem text))

end Dataset

/-! ## Checked settings -/

namespace Settings

theorem lt_of_checkDelimiter {field text : String} {octet : UInt8}
    (accepted : checkDelimiter field text = .ok octet) : octet.toNat < 0x80 := by
  unfold checkDelimiter at accepted
  split at accepted
  case h_1 c _ =>
    split at accepted
    case isTrue valid =>
      obtain rfl := Except.ok.inj accepted
      have ascii : c.toNat < 128 := by
        simp only [isDelimiter, Bool.and_eq_true, decide_eq_true_eq] at valid
        exact valid.1.1.1
      rwa [Utf8.toNat_octet (by omega)]
    case isFalse => cases accepted
  case h_2 => cases accepted

theorem lt_of_delimiterOctet {settings : Settings} {given : Option UInt8}
    (named : settings.delimiterOctet = .ok given) : ∀ octet ∈ given, octet.toNat < 0x80 := by
  unfold delimiterOctet at named
  split at named
  case h_1 =>
    obtain rfl := Except.ok.inj named
    simp
  case h_2 text _ =>
    split at named
    case h_1 octet accepted =>
      obtain rfl := Except.ok.inj named
      simpa using lt_of_checkDelimiter accepted
    case h_2 => cases named

end Settings

/-- What checked settings make of a dataset that is text.  All fields into which it is cut, at a
delimiter that is given or found, are texts.  So it has rows, or it is wrong as a table, and no field
is ever reported as none. -/
theorem Program.rows_of_check {settings : Settings} (checked : settings.check = .ok ())
    {world : World} {content : Bytes} (there : world.tree.read settings.dataset = .ok content)
    (isText : Utf8.isText content = true) :
    ∃ (given : Option UInt8) (text : List Char),
      sourceOf settings = .ok (.dataset settings.dataset given) ∧ content = Utf8.encode text ∧
      (∀ record ∈ Dataset.recordsOf settings.dataset given text, ∀ field ∈ record.fields,
        Utf8.isText field = true) ∧
      ((∃ rows, ((Run.Source.dataset settings.dataset given).rows.run world).1 = .ok rows) ∨
        ∃ line problem, ((Run.Source.dataset settings.dataset given).rows.run world).1 =
          .error (.dataset line problem)) := by
  obtain ⟨given, named⟩ := settings.exists_delimiterOctet checked
  obtain ⟨text, rfl⟩ := Utf8.exists_encode_of_isText isText
  have ascii := Dataset.delimiterFor_lt settings.dataset (Settings.lt_of_delimiterOctet named)
    (Dataset.withoutMark text)
  have texts := Dataset.isText_records ascii (Dataset.withoutMark text)
  refine ⟨given, text, by rw [sourceOf, named], rfl, texts, ?_⟩
  have read : ((Run.Source.dataset settings.dataset given).rows.run world).1 =
      Dataset.parse settings.dataset given text := by
    rw [Run.Source.rows, (Run.run_readDataset settings.dataset given world).1, FileTree.rows, there]
    simp only [Utf8.decode_encode]
  rw [read]
  obtain ⟨table, fields⟩ := Dataset.exists_table texts
  cases parsed : Dataset.parse settings.dataset given text with
  | ok rows => exact .inl ⟨rows, rfl⟩
  | error failure =>
    obtain ⟨line, problem, rfl⟩ := Dataset.failure_of_rows fields parsed
    exact .inr ⟨line, problem, rfl⟩

/-- A delimiter that is given, characters of two and three octets beside it, and quotes in the middle
of a field and without an end. -/
theorem Program.rows_of_check_quotes :
    ({ delimiter := some ";" } : Settings).check = .ok () ∧
    ∃ (given : Option UInt8) (text : List Char),
      sourceOf { delimiter := some ";" } = .ok (.dataset (.ofString "data.csv") given) ∧
      utf8 "é;ü\nx\"–;\"€;\n" = Utf8.encode text ∧
      (∀ record ∈ Dataset.recordsOf (.ofString "data.csv") given text, ∀ field ∈ record.fields,
        Utf8.isText field = true) ∧
      ((∃ rows, ((Run.Source.dataset (.ofString "data.csv") given).rows.run
          { tree := ⟨[([utf8 "data.csv"], .file (utf8 "é;ü\nx\"–;\"€;\n"))], []⟩ }).1 = .ok rows) ∨
        ∃ line problem, ((Run.Source.dataset (.ofString "data.csv") given).rows.run
          { tree := ⟨[([utf8 "data.csv"], .file (utf8 "é;ü\nx\"–;\"€;\n"))], []⟩ }).1 =
            .error (.dataset line problem)) := by
  have checked : ({ delimiter := some ";" } : Settings).check = .ok () := by decide +kernel
  exact ⟨checked, rows_of_check checked (by decide +kernel) (by decide +kernel)⟩

end MailMerge
