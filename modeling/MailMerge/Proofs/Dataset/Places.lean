import Mathlib.Data.List.TakeWhile
import MailMerge.Proofs.Dataset.Tables
import MailMerge.Proofs.Dataset.Written

/-!
# Where records stand

A record with more or fewer fields than there are columns is reported together with a line.  To say
which line that is, the octets of a dataset are laid out once more, in two strides per record: first
the line ends that belong to no record are skipped, and then the record is taken up to the octet that
ends it (`places`).  The splitter finds the same records in the same places (`forall₂_recordsFrom`).

The line that is reported is that of the end of the record before (`parse_ragged`).  It is the line on
which the record begins exactly if there is no line feed among the line ends between the two, so it is
too small behind empty lines and behind a carriage return with a line feed.
-/

namespace MailMerge.Dataset

set_option autoImplicit false

/-! ## Places -/

/-- How many octets belong to the record that is being read, with the one that ends it. -/
def recordLength (delimiter : UInt8) : State → Bytes → Nat
  | _, [] => 0
  | state, octet :: rest =>
    match step delimiter state octet with
    | (_, .endRecord) => 1
    | (next, _) => recordLength delimiter next rest + 1

theorem recordLength_pos (delimiter : UInt8) (state : State) (octet : UInt8) (rest : Bytes) :
    0 < recordLength delimiter state (octet :: rest) := by
  rw [recordLength]
  split <;> omega

/-- The place of a record in a dataset. -/
structure Place where
  /-- The octets up to the end of the record before. -/
  front : Bytes
  /-- The line ends between the two records that belong to neither. -/
  skipped : Bytes
  /-- The octets of the record. -/
  source : Bytes
  deriving DecidableEq, Repr

/-- The octets before the first one of the record. -/
def Place.before (place : Place) : Bytes := place.front ++ place.skipped

/-- The octets up to the end of the record. -/
def Place.through (place : Place) : Bytes := place.before ++ place.source

theorem Place.count_before (place : Place) :
    place.before.count lineFeed = place.front.count lineFeed + place.skipped.count lineFeed :=
  List.count_append

/-- The places of the records in some octets, given the octets before them. -/
def places (delimiter : UInt8) (front octets : Bytes) : List Place :=
  match _begins : octets.dropWhile endsRecord with
  | [] => []
  | first :: rest =>
    let length := recordLength delimiter .between (first :: rest)
    let place : Place := ⟨front, octets.takeWhile endsRecord, (first :: rest).take length⟩
    place :: places delimiter place.through ((first :: rest).drop length)
termination_by octets.length
decreasing_by
  have some_ := recordLength_pos delimiter .between first rest
  have suffix := (List.dropWhile_suffix (l := octets) endsRecord).length_le
  rw [_begins] at suffix
  simp only [List.length_drop, List.length_cons] at suffix ⊢
  omega

/-- The octets of a dataset behind a mark at their very start. -/
def unmarked (octets : Bytes) : Bytes :=
  if byteOrderMark.isPrefixOf octets then octets.drop 3 else octets

/-- The places of the records in a text.  Marks at its start belong to none of them. -/
def placesOf (path : Path) (given : Option UInt8) (text : List Char) : List Place :=
  let octets := unmarked (Utf8.encode (withoutMark text))
  places (delimiterFor path given (withoutMark text))
    ((Utf8.encode text).take ((Utf8.encode text).length - octets.length)) octets

/-! ## One octet -/

variable {delimiter octet : UInt8} {state next : State} {effect : Effect}

theorem isOpen_closing (octet : UInt8) : (closing octet).isOpen = false := by
  unfold closing
  split <;> rfl

theorem isOpen_stepAtField (delimiter octet : UInt8) :
    (stepAtField delimiter octet).1.isOpen = true ↔ (stepAtField delimiter octet).2 ≠ .endRecord := by
  unfold stepAtField
  split_ifs
  · exact iff_of_true rfl nofun
  · exact iff_of_true rfl nofun
  · simp [isOpen_closing]
  · exact iff_of_true rfl nofun

theorem isOpen_stepInField (delimiter octet : UInt8) :
    (stepInField delimiter octet).1.isOpen = true ↔ (stepInField delimiter octet).2 ≠ .endRecord := by
  unfold stepInField
  split_ifs
  · exact iff_of_true rfl nofun
  · simp [isOpen_closing]
  · exact iff_of_true rfl nofun

/-- Between records, an octet that ends none is the first one of a field. -/
theorem step_begins (closed : state.isOpen = false) (begins : endsRecord octet = false) :
    step delimiter state octet = stepAtField delimiter octet := by
  have other : octet ≠ lineFeed := by
    rintro rfl
    exact absurd begins (by decide)
  cases state with
  | between => simp [step, stepBetween, begins]
  | behindReturn => simp [step, stepBetween, begins, other]
  | atField | inField | inQuotes | behindQuote => simp [State.isOpen] at closed

/-- Between records, line ends are skipped. -/
theorem step_skips (closed : state.isOpen = false) (ends : endsRecord octet = true) :
    step delimiter state octet = (.between, .skip) := by
  cases state with
  | between => simp [step, stepBetween, ends]
  | behindReturn => simp [step, stepBetween, ends]
  | atField | inField | inQuotes | behindQuote => simp [State.isOpen] at closed

/-- A record that has begun is open until an octet ends it. -/
theorem isOpen_step (inside : state.isOpen = true ∨ endsRecord octet = false) :
    (step delimiter state octet).1.isOpen = true ↔ (step delimiter state octet).2 ≠ .endRecord := by
  by_cases closed : state.isOpen = false
  · rw [step_begins closed (inside.resolve_left (by simp [closed]))]
    exact isOpen_stepAtField delimiter octet
  · cases state with
    | between | behindReturn => simp [State.isOpen] at closed
    | atField => exact isOpen_stepAtField delimiter octet
    | inField => exact isOpen_stepInField delimiter octet
    | inQuotes =>
      simp only [step]
      split_ifs <;> simp [State.isOpen]
    | behindQuote =>
      simp only [step]
      split_ifs
      · simp [State.isOpen]
      · exact isOpen_stepInField delimiter octet

/-- As long as no record ends, an octet takes the splitter on, wherever it stands. -/
theorem exists_passes_of_step (does : step delimiter state octet = (next, effect))
    (goes : effect ≠ .endRecord) (complete : List Bytes) (field : Bytes) :
    ∃ complete' field', ∀ mark : Mark,
      Passes delimiter [octet] state ⟨mark, complete, field⟩ next ⟨mark, complete', field'⟩ := by
  cases effect with
  | skip => exact ⟨complete, field, fun mark => passes_of_skip does _⟩
  | keep => exact ⟨complete, octet :: field, fun mark => passes_of_keep does _⟩
  | endField => exact ⟨field.reverse :: complete, [], fun mark => passes_of_endField does _⟩
  | endRecord => exact absurd rfl goes

/-! ## One record -/

/-- The line ends between two records are skipped. -/
theorem exists_recordsFrom_skipped (delimiter : UInt8) {skipped : Bytes}
    (ends : ∀ octet ∈ skipped, endsRecord octet = true) (closed : state.isOpen = false)
    (unfinished : Unfinished) (here : Mark) (rest : Bytes) :
    ∃ next : State, next.isOpen = false ∧
      recordsFrom delimiter state unfinished here (skipped ++ rest) =
        recordsFrom delimiter next unfinished (skipped.foldl Mark.next here) rest := by
  induction skipped generalizing state here with
  | nil => exact ⟨state, closed, rfl⟩
  | cons octet skipped ih =>
    obtain ⟨first, more⟩ := List.forall_mem_cons.1 ends
    have skips : step delimiter state octet = (.between, .skip) := step_skips closed first
    have between : State.between.isOpen = false := rfl
    obtain ⟨next, closed', same⟩ := ih more between (here.next octet)
    refine ⟨next, closed', ?_⟩
    rw [List.cons_append, List.foldl_cons, ← same]
    exact passes_of_skip skips unfinished here (skipped ++ rest)

/-- Where a record begins it does not matter how the one before ended. -/
theorem recordsFrom_begins (closed : state.isOpen = false) (begins : endsRecord octet = false)
    (unfinished : Unfinished) (here : Mark) (rest : Bytes) :
    recordsFrom delimiter state unfinished here (octet :: rest) =
      recordsFrom delimiter .between unfinished here (octet :: rest) := by
  rw [recordsFrom, recordsFrom, step_begins closed begins, step_begins rfl begins]

/-- A record is read from its own octets alone, and the next one behind them. -/
theorem exists_fields (delimiter : UInt8) (state : State) (octets : Bytes)
    (inside : state.isOpen = true ∨ ∃ first ∈ octets.head?, endsRecord first = false)
    (complete : List Bytes) (field : Bytes) :
    ∃ fields, ∀ mark here : Mark,
      let source := octets.take (recordLength delimiter state octets)
      let behind := octets.drop (recordLength delimiter state octets)
      let there := source.foldl Mark.next here
      recordsFrom delimiter state ⟨mark, complete, field⟩ here source = [⟨mark, fields⟩] ∧
      ∃ next : State, next.isOpen = false ∧
        recordsFrom delimiter state ⟨mark, complete, field⟩ here octets =
          ⟨mark, fields⟩ :: recordsFrom delimiter next (.at there) there behind := by
  induction octets generalizing state complete field with
  | nil =>
    have open_ : state.isOpen = true := inside.resolve_right (by simp)
    refine ⟨(field.reverse :: complete).reverse, fun mark here => ⟨?_, .between, rfl, ?_⟩⟩
    · simp [recordsFrom, open_, Unfinished.finish]
    · have none_ : State.between.isOpen = false := rfl
      simp [recordsFrom, open_, none_, Unfinished.finish]
  | cons octet rest ih =>
    have opens : (step delimiter state octet).1.isOpen = true ↔
        (step delimiter state octet).2 ≠ .endRecord := isOpen_step (inside.imp_right (by simp))
    rcases does : step delimiter state octet with ⟨next, effect⟩
    rw [does] at opens
    by_cases last : effect = .endRecord
    · subst last
      have closed : next.isOpen = false := by simpa using opens
      refine ⟨(field.reverse :: complete).reverse, fun mark here => ⟨?_, next, closed, ?_⟩⟩
      · simp [recordLength, does, recordsFrom, closed, Unfinished.finish]
      · simp [recordLength, does, recordsFrom, Unfinished.finish]
    · obtain ⟨complete', field', passes⟩ := exists_passes_of_step does last complete field
      obtain ⟨fields, reads⟩ := ih next (.inl (opens.2 last)) complete' field'
      have length : recordLength delimiter state (octet :: rest) =
          recordLength delimiter next rest + 1 := by
        rw [recordLength, does]
        cases effect with
        | endRecord => exact absurd rfl last
        | _ => rfl
      refine ⟨fields, fun mark here => ?_⟩
      obtain ⟨alone, after⟩ := reads mark (here.next octet)
      rw [length]
      exact ⟨(passes mark here _).trans alone, after.imp fun next both =>
        ⟨both.1, (passes mark here rest).trans both.2⟩⟩

/-! ## All records -/

/-- A record stands at a place of a content. -/
structure Place.Holds (delimiter : UInt8) (content : Bytes) (record : Record) (place : Place) :
    Prop where
  /-- The place is in the content. -/
  inside : place.through <+: content
  /-- Nothing but line ends is skipped. -/
  ends : ∀ octet ∈ place.skipped, endsRecord octet = true
  /-- The record begins with something else. -/
  begins : ∃ first ∈ place.source.head?, endsRecord first = false
  /-- Its octets alone are read as this record. -/
  reads : ∀ mark : Mark,
    recordsFrom delimiter .between (.at mark) mark place.source = [⟨mark, record.fields⟩]
  /-- It is numbered with the line on which the record before it ends. -/
  line : record.mark.line = 1 + place.front.count lineFeed

theorem line_foldl_next (octets : Bytes) (mark : Mark) :
    (octets.foldl Mark.next mark).line = mark.line + octets.count lineFeed := by
  induction octets generalizing mark with
  | nil => rfl
  | cons octet rest ih =>
    rw [List.foldl_cons, ih, List.count_cons, Mark.next]
    by_cases feed : octet = lineFeed
    · simp only [feed, if_true, beq_self_eq_true]
      omega
    · simp [feed]

/-- The splitter finds the records at their places. -/
theorem forall₂_recordsFrom {state : State} (closed : state.isOpen = false) (front octets : Bytes)
    {mark here : Mark} (start : mark.line = 1 + front.count lineFeed)
    (there : here.line = 1 + front.count lineFeed) :
    List.Forall₂ (Place.Holds delimiter (front ++ octets))
      (recordsFrom delimiter state (.at mark) here octets) (places delimiter front octets) := by
  induction size : octets.length using Nat.strongRecOn generalizing state front octets mark here with
  | ind count ih =>
    have cut : octets.takeWhile endsRecord ++ octets.dropWhile endsRecord = octets :=
      List.takeWhile_append_dropWhile
    have ends : ∀ octet ∈ octets.takeWhile endsRecord, endsRecord octet = true :=
      fun octet member => List.mem_takeWhile_imp member
    obtain ⟨gap, closed', skips⟩ := exists_recordsFrom_skipped delimiter ends closed
      (.at mark) here (octets.dropWhile endsRecord)
    rw [cut] at skips
    rw [skips, places]
    split
    case h_1 begins =>
      rw [begins]
      simp [recordsFrom, closed']
    case h_2 first rest begins =>
      have other : endsRecord first = false := by
        simpa [begins] using List.head?_dropWhile_not endsRecord octets
      have some_ := recordLength_pos delimiter .between first rest
      obtain ⟨fields, reads⟩ := exists_fields delimiter .between (first :: rest)
        (.inr ⟨first, rfl, other⟩) [] []
      obtain ⟨-, next, closed'', same⟩ :=
        reads mark ((octets.takeWhile endsRecord).foldl Mark.next here)
      rw [begins, recordsFrom_begins closed' other, Unfinished.at, same]
      rw [begins] at cut
      generalize recordLength delimiter .between (first :: rest) = length at *
      generalize octets.takeWhile endsRecord = skipped at *
      have whole : front ++ octets =
          (⟨front, skipped, (first :: rest).take length⟩ : Place).through ++
            (first :: rest).drop length := by
        simp only [Place.through, Place.before, List.append_assoc, List.take_append_drop, cut]
      refine .cons ⟨⟨_, whole.symm⟩, ends, ⟨first, ?_, other⟩, fun mark => (reads mark mark).1, start⟩ ?_
      · simp [List.head?_take, Nat.pos_iff_ne_zero.1 some_]
      · have line : ((List.take length (first :: rest)).foldl Mark.next
            (skipped.foldl Mark.next here)).line = 1 + (⟨front, skipped,
              (first :: rest).take length⟩ : Place).through.count lineFeed := by
          simp only [line_foldl_next, there, Place.through, Place.before, List.count_append]
          omega
        rw [whole]
        refine ih _ ?_ closed'' _ _ line line rfl
        have shorter := congrArg List.length cut
        simp only [List.length_append, List.length_cons, List.length_drop] at shorter ⊢
        omega

/-! ## A whole dataset -/

/-- A mark at the beginning is left out. -/
theorem exists_mark (octets : Bytes) : ∃ mark : Bytes, mark.count lineFeed = 0 ∧
    mark ++ unmarked octets = octets := by
  unfold unmarked
  split
  case isTrue marked =>
    obtain ⟨rest, rfl⟩ := List.isPrefixOf_iff_prefix.1 marked
    exact ⟨byteOrderMark, by decide, rfl⟩
  case isFalse => exact ⟨[], rfl, rfl⟩

/-- Only marks stand before the records, and there is no line feed in them. -/
theorem exists_marks (text : List Char) : ∃ marks : Bytes, marks.count lineFeed = 0 ∧
    marks ++ unmarked (Utf8.encode (withoutMark text)) = Utf8.encode text := by
  obtain ⟨mark, noFeed, whole⟩ := exists_mark (Utf8.encode (withoutMark text))
  cases text with
  | nil => exact ⟨mark, noFeed, whole⟩
  | cons c rest =>
    by_cases marked : c = Char.ofNat 0xFEFF
    · have behind : withoutMark (c :: rest) = rest := if_pos marked
      rw [behind] at whole ⊢
      refine ⟨byteOrderMark ++ mark, by rw [List.count_append, noFeed]; rfl, ?_⟩
      rw [List.append_assoc, whole, Utf8.encode_cons, marked]
      rfl
    · have same : withoutMark (c :: rest) = c :: rest := if_neg marked
      rw [same] at whole ⊢
      exact ⟨mark, noFeed, whole⟩

/-- The records of a text stand at their places in it. -/
theorem forall₂_recordsOf (path : Path) (given : Option UInt8) (text : List Char) :
    List.Forall₂ (Place.Holds (delimiterFor path given (withoutMark text)) (Utf8.encode text))
      (recordsOf path given text) (placesOf path given text) := by
  obtain ⟨marks, noFeed, whole⟩ := exists_marks text
  have front : (Utf8.encode text).take ((Utf8.encode text).length -
      (unmarked (Utf8.encode (withoutMark text))).length) = marks := by
    rw [← whole, List.length_append, Nat.add_sub_cancel, List.take_left]
  rw [placesOf, front, ← whole, recordsOf, records, unmarked]
  split
  · exact forall₂_recordsFrom rfl marks _ (by simp [noFeed]) (by simp [noFeed])
  · exact forall₂_recordsFrom rfl marks _ (by simp [noFeed]) (by simp [noFeed])

/-- So each of them has one. -/
theorem exists_place {path : Path} {given : Option UInt8} {text : List Char} {number : Nat}
    {record : Record} (there : (recordsOf path given text)[number]? = some record) :
    ∃ place : Place, (placesOf path given text)[number]? = some place ∧
      place.Holds (delimiterFor path given (withoutMark text)) (Utf8.encode text) record := by
  have stand := forall₂_recordsOf path given text
  generalize recordsOf path given text = found at there stand
  generalize placesOf path given text = laid at stand ⊢
  induction stand generalizing number with
  | nil => simp at there
  | cons holds _ ih =>
    cases number with
    | zero =>
      obtain rfl := Option.some.inj there
      exact ⟨_, rfl, holds⟩
    | succ number => exact ih there

/-! ## Ragged tables -/

/-- The first record whose fields are not as many as the columns is what is wrong with the rows. -/
theorem rowsFrom_ragged (columns : List String) (number : Nat) {values : List String}
    {before after : List (List String)} {all : List Record}
    (fields : all.map Record.fields = (before ++ values :: after).map (·.map utf8))
    (full : ∀ others ∈ before, others.length = columns.length)
    (ragged : values.length ≠ columns.length) : ∃ record, all[before.length]? = some record ∧
      rowsFrom columns number all =
        .error (.dataset record.mark.line (.fieldCount columns.length values.length)) := by
  induction before generalizing number all with
  | nil =>
    cases all with
    | nil => simp at fields
    | cons record more =>
      obtain ⟨here, -⟩ := List.cons.inj fields
      refine ⟨record, rfl, ?_⟩
      simp only [rowsFrom, decodeFields_eq_ok_iff.2 here, if_neg ragged]
  | cons others before ih =>
    cases all with
    | nil => simp at fields
    | cons first more =>
      obtain ⟨here, behind⟩ := List.cons.inj fields
      obtain ⟨complete, full⟩ := List.forall_mem_cons.1 full
      obtain ⟨record, there, failed⟩ := ih (number + 1) behind full
      refine ⟨record, there, ?_⟩
      simp only [rowsFrom, decodeFields_eq_ok_iff.2 here, if_pos complete, failed]

/-- A dataset whose header is accepted and whose records are texts, one of which has more or fewer
fields than the header, is not read.  What is reported is the first such record, with the number of
its fields and of those of the header, and with the line on which the record before it ends.  This is
the line of its own first octet exactly if none of the line ends that are skipped between the two
records is a line feed; otherwise it is smaller by their number. -/
theorem parse_ragged {path : Path} {given : Option UInt8} {text : List Char}
    {names values : List String} {before after : List (List String)}
    (fields : (recordsOf path given text).map Record.fields =
      (names :: (before ++ values :: after)).map (·.map utf8))
    (header : IsHeader (names.map trimmed))
    (full : ∀ others ∈ before, others.length = names.length)
    (ragged : values.length ≠ names.length) :
    ∃ (place : Place) (record : Record) (line : Nat) (problem : DatasetProblem),
      (placesOf path given text)[before.length + 1]? = some place ∧
      record.fields = values.map utf8 ∧
      place.Holds (delimiterFor path given (withoutMark text)) (Utf8.encode text) record ∧
      parse path given text = .error (.dataset line problem) ∧
      problem.message = "expected " ++ toString names.length ++ " fields but found " ++
        toString values.length ∧
      line + place.skipped.count lineFeed = 1 + place.before.count lineFeed ∧
      (line = 1 + place.before.count lineFeed ↔ lineFeed ∉ place.skipped) := by
  obtain ⟨first, more, all⟩ : ∃ first more, recordsOf path given text = first :: more := by
    cases all : recordsOf path given text with
    | nil => simp [all] at fields
    | cons first more => exact ⟨first, more, rfl⟩
  rw [all] at fields
  obtain ⟨here, behind⟩ := List.cons.inj fields
  have columns : (names.map trimmed).length = names.length := List.length_map _
  obtain ⟨record, there, failed⟩ := rowsFrom_ragged (names.map trimmed) 1 behind
    (by simpa using full) (by simpa using ragged)
  have found : record.fields = values.map utf8 := by
    simpa [there] using congrArg (·[before.length]?) behind
  obtain ⟨place, stands, holds⟩ := exists_place
    (show (recordsOf path given text)[before.length + 1]? = some record by rw [all]; exact there)
  have counted := place.count_before
  refine ⟨place, record, record.mark.line, .fieldCount names.length values.length, stands, found,
    holds, ?_, rfl, ?_, ?_⟩
  · have read : readHeader (some first) = .ok (names.map trimmed) :=
      readHeader_eq_ok_iff.2 ⟨names, here, rfl, header⟩
    rw [parse, rows, ← recordsOf, all, List.head?_cons, List.tail_cons, read]
    exact failed.trans (by rw [columns])
  · rw [holds.line, counted]
    omega
  · rw [holds.line, counted, ← List.count_eq_zero]
    omega

/-- A ragged record behind one whose quoted field has a line feed in it, between them the end of a
line and an empty line, all with carriage returns. -/
theorem parse_ragged_returnFeeds :
    (recordsOf (.ofString "d.csv") none "A,B\r\n\"1\n2\",3\r\n\r\n4\r\n".toList).map Record.fields =
      (["A", "B"] :: ([["1\n2", "3"]] ++ ["4"] :: [])).map (·.map utf8) ∧
    ∃ (place : Place) (record : Record) (line : Nat) (problem : DatasetProblem),
      (placesOf (.ofString "d.csv") none "A,B\r\n\"1\n2\",3\r\n\r\n4\r\n".toList)[2]? =
        some place ∧
      record.fields = ["4"].map utf8 ∧
      place.Holds 0x2C (Utf8.encode "A,B\r\n\"1\n2\",3\r\n\r\n4\r\n".toList) record ∧
      parse (.ofString "d.csv") none "A,B\r\n\"1\n2\",3\r\n\r\n4\r\n".toList =
        .error (.dataset line problem) ∧
      problem.message = "expected " ++ toString 2 ++ " fields but found " ++ toString 1 ∧
      line + place.skipped.count lineFeed = 1 + place.before.count lineFeed ∧
      (line = 1 + place.before.count lineFeed ↔ lineFeed ∉ place.skipped) := by
  have fields : (recordsOf (.ofString "d.csv") none
      "A,B\r\n\"1\n2\",3\r\n\r\n4\r\n".toList).map Record.fields =
      (["A", "B"] :: ([["1\n2", "3"]] ++ ["4"] :: [])).map (·.map utf8) := by decide +kernel
  have header : IsHeader (["A", "B"].map trimmed) := by
    rw [← headerProblem?_eq_none_iff]
    decide +kernel
  exact ⟨fields, parse_ragged fields header (by decide) (by decide)⟩

/-- With carriage returns the line of the record before is reported, though the record begins on the
next one. -/
theorem parse_ragged_nextLine :
    ∃ place : Place, (placesOf (.ofString "d.csv") none "A,B\r\n1\r\n".toList)[1]? = some place ∧
      place.source = Utf8.encode "1\r".toList ∧
      1 + place.before.count lineFeed = 2 ∧
      parse (.ofString "d.csv") none "A,B\r\n1\r\n".toList =
        .error (.dataset 1 (.fieldCount 2 1)) := by
  refine ⟨⟨Utf8.encode "A,B\r".toList, [lineFeed], Utf8.encode "1\r".toList⟩, ?_⟩
  decide +kernel

end MailMerge.Dataset
