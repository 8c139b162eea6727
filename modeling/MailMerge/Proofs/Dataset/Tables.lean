import Mathlib.Data.List.Forall2
import MailMerge.Dataset.Table
import MailMerge.Proofs.Row
import MailMerge.Proofs.Text.Encoding

/-!
# What a table holds

A dataset is read as a table exactly if its records are texts, the first of them names the columns,
and all others have a field for each column (`rows_eq_ok_iff`).  The names are those of the header
without the blanks around them, and it is these that have to be there and to be distinct.  Then there
is a row for each further record, in their order, which has the names for its keys and under each name
the field in its column, as it is in the record (`parse_rectangular`).

How the octets are cut into records is of no matter here.
-/

namespace MailMerge

set_option autoImplicit false

/-! ## Rows under a header -/

namespace Row

variable {header values : List String}

/-- A row under a header maps each name to the value in its column and has nothing else in it. -/
theorem get?_ofHeader (distinct : header.Nodup) (complete : values.length = header.length)
    (name value : String) : (ofHeader header values).get? name = some value ↔
      ∃ column : Nat, header[column]? = some name ∧ values[column]? = some value := by
  have names : (header.zip values).map Prod.fst = header :=
    List.map_fst_zip (Nat.le_of_eq complete.symm)
  rw [ofHeader, get?_ofPairs (by rwa [names]), List.mem_iff_getElem?]
  simp [List.getElem?_zip_eq_some]

/-- A row has the names of some columns for its keys, and the values of these columns. -/
structure Under (columns values : List String) (row : Row) : Prop where
  size : row.size = columns.length
  keys : ∀ name, row.contains name = true ↔ name ∈ columns
  value : ∀ (column : Nat) (name : String), columns[column]? = some name →
    row.get? name = values[column]?

theorem under_ofHeader (distinct : header.Nodup) (complete : values.length = header.length) :
    Under header values (ofHeader header values) := by
  have names : (header.zip values).map Prod.fst = header :=
    List.map_fst_zip (Nat.le_of_eq complete.symm)
  have value (column : Nat) (name : String) (here : header[column]? = some name) :
      (ofHeader header values).get? name = values[column]? := by
    have inside : column < values.length := complete ▸ (List.getElem?_eq_some_iff.1 here).1
    rw [List.getElem?_eq_getElem inside]
    exact (get?_ofHeader distinct complete name _).2
      ⟨column, here, List.getElem?_eq_getElem inside⟩
  refine ⟨?_, ?_, value⟩
  · have arranged := fields_ofPairs_perm (names.symm ▸ distinct)
    rw [size, ofHeader, arranged.length_eq, ← List.length_map Prod.fst, names]
  · intro name
    rw [contains, Option.isSome_iff_exists]
    constructor
    · rintro ⟨value, found⟩
      obtain ⟨column, here, _⟩ := (get?_ofHeader distinct complete name value).1 found
      exact List.mem_of_getElem? here
    · intro member
      obtain ⟨column, here⟩ := List.getElem?_of_mem member
      have inside : column < values.length := complete ▸ (List.getElem?_eq_some_iff.1 here).1
      exact ⟨_, (value column name here).trans (List.getElem?_eq_getElem inside)⟩

end Row

namespace Dataset

/-! ## Fields -/

theorem decodeFieldsFrom_utf8 (number : Nat) (mark : Mark) (field : Nat) (texts : List String) :
    decodeFieldsFrom number mark field (texts.map utf8) = .ok texts := by
  induction texts generalizing field with
  | nil => rfl
  | cons text more ih =>
    have decoded : Utf8.decode (utf8 text) = .ok text.toList := Utf8.decode_encode _
    simp [decodeFieldsFrom, decoded, ih]

theorem utf8_of_decodeFieldsFrom {number field : Nat} {mark : Mark} {fields : List Bytes}
    {texts : List String} (decoded : decodeFieldsFrom number mark field fields = .ok texts) :
    fields = texts.map utf8 := by
  induction fields generalizing field texts with
  | nil =>
    obtain rfl := Except.ok.inj decoded
    rfl
  | cons octets rest ih =>
    rw [decodeFieldsFrom] at decoded
    split at decoded
    case h_1 => simp at decoded
    case h_2 text here =>
      split at decoded
      case h_1 more later =>
        obtain rfl := Except.ok.inj decoded
        rw [List.map_cons, ← ih later, utf8, String.toList_ofList, Utf8.encode_of_decode here]
      case h_2 => simp at decoded

/-- The texts of a record are those that its fields are written for. -/
theorem decodeFields_eq_ok_iff {number : Nat} {record : Record} {texts : List String} :
    decodeFields number record = .ok texts ↔ record.fields = texts.map utf8 := by
  constructor
  · exact utf8_of_decodeFieldsFrom
  · intro fields
    rw [decodeFields, fields, decodeFieldsFrom_utf8]

/-! ## The header -/

/-- Column names that a table can have. -/
structure IsHeader (columns : List String) : Prop where
  some_ : columns ≠ []
  named : ∀ name ∈ columns, name ≠ ""
  distinct : columns.Nodup

theorem columnProblem?_eq_none_iff {before columns : List String} (distinct : before.Nodup) :
    columnProblem? before columns = none ↔
      (before ++ columns).Nodup ∧ ∀ name ∈ columns, name ≠ "" := by
  induction columns generalizing before with
  | nil => simp [columnProblem?, distinct]
  | cons name more ih =>
    rw [columnProblem?]
    split_ifs with empty repeated
    · simp [String.isEmpty_iff.1 empty]
    · have member : name ∈ before := List.contains_iff_mem.1 repeated
      simp only [false_iff, not_and]
      intro apart
      exact absurd rfl ((List.nodup_append.1 apart).2.2 name member name List.mem_cons_self)
    · have filled : name ≠ "" := fun none_ => empty (String.isEmpty_iff.2 none_)
      have fresh : name ∉ before := fun member => repeated (List.contains_iff_mem.2 member)
      have distinct' : (before ++ [name]).Nodup := List.nodup_append_comm.1
        (List.nodup_cons.2 ⟨fresh, distinct⟩)
      rw [ih distinct', List.append_assoc, List.singleton_append, List.forall_mem_cons,
        and_iff_right filled]

theorem headerProblem?_eq_none_iff {columns : List String} :
    headerProblem? columns = none ↔ IsHeader columns := by
  rw [headerProblem?]
  split_ifs with blank
  · simp only [false_iff]
    rintro ⟨some_, named, -⟩
    obtain ⟨name, more, rfl⟩ := List.exists_cons_of_ne_nil some_
    have empty := List.all_eq_true.1 blank name List.mem_cons_self
    exact named name List.mem_cons_self (String.isEmpty_iff.1 empty)
  · rw [columnProblem?_eq_none_iff List.nodup_nil, List.nil_append]
    constructor
    · rintro ⟨distinct, named⟩
      refine ⟨?_, named, distinct⟩
      rintro rfl
      exact blank rfl
    · rintro ⟨-, named, distinct⟩
      exact ⟨distinct, named⟩

/-- A header that is text is read, or something is wrong with its names. -/
theorem readHeader_of_fields {first : Record} {names : List String}
    (fields : first.fields = names.map utf8) :
    readHeader (some first) = match headerProblem? (names.map trimmed) with
      | some problem => .error (.dataset 1 problem)
      | none => .ok (names.map trimmed) := by
  have decoded : decodeFields 0 first = .ok names := decodeFields_eq_ok_iff.2 fields
  cases problem : headerProblem? (names.map trimmed) with
  | some problem => simp only [readHeader, decoded, problem]
  | none => simp only [readHeader, decoded, problem]

theorem readHeader_eq_ok_iff {first : Record} {columns : List String} :
    readHeader (some first) = .ok columns ↔ ∃ names : List String,
      first.fields = names.map utf8 ∧ columns = names.map trimmed ∧ IsHeader columns := by
  constructor
  · intro read
    cases decoded : decodeFields 0 first with
    | error failure => simp [readHeader, decoded] at read
    | ok names =>
      have fields := decodeFields_eq_ok_iff.1 decoded
      rw [readHeader_of_fields fields] at read
      split at read
      case h_1 => simp at read
      case h_2 fine =>
        obtain rfl := Except.ok.inj read
        exact ⟨names, fields, rfl, headerProblem?_eq_none_iff.1 fine⟩
  · rintro ⟨names, fields, rfl, header⟩
    rw [readHeader_of_fields fields, headerProblem?_eq_none_iff.2 header]

/-! ## The rows -/

/-- The records behind the header make rows exactly if they are texts and have a field for each
column. -/
theorem rowsFrom_eq_ok_iff {columns : List String} {number : Nat} {all : List Record}
    {rows : List Row} :
    rowsFrom columns number all = .ok rows ↔ ∃ body : List (List String),
      all.map Record.fields = body.map (·.map utf8) ∧
      (∀ values ∈ body, values.length = columns.length) ∧
      rows = body.map (Row.ofHeader columns) := by
  induction all generalizing number rows with
  | nil =>
    constructor
    · intro read
      obtain rfl := Except.ok.inj read
      exact ⟨[], rfl, by simp, rfl⟩
    · rintro ⟨body, fields, -, rfl⟩
      obtain rfl : body = [] := by simpa using fields.symm
      rfl
  | cons record more ih =>
    constructor
    · intro read
      rw [rowsFrom] at read
      split at read
      case h_1 => simp at read
      case h_2 values decoded =>
        split_ifs at read with complete
        split at read
        case h_2 => simp at read
        case h_1 others later =>
          obtain rfl := Except.ok.inj read
          obtain ⟨body, fields, full, rfl⟩ := ih.1 later
          have here := decodeFields_eq_ok_iff.1 decoded
          refine ⟨values :: body, ?_, List.forall_mem_cons.2 ⟨complete, full⟩, rfl⟩
          rw [List.map_cons, List.map_cons, here, fields]
    · rintro ⟨body, fields, full, rfl⟩
      obtain ⟨values, others, rfl⟩ : ∃ values others, body = values :: others := by
        cases body with
        | nil => simp at fields
        | cons values others => exact ⟨values, others, rfl⟩
      obtain ⟨here, behind⟩ := List.cons.inj fields
      obtain ⟨complete, full⟩ := List.forall_mem_cons.1 full
      have later := (@ih (number + 1) _).2 ⟨others, behind, full, rfl⟩
      simp only [rowsFrom, decodeFields_eq_ok_iff.2 here, if_pos complete, later, List.map_cons]

/-- Records that are texts fail to make rows only because of the table. -/
theorem failure_of_rowsFrom {columns : List String} {number : Nat} {all : List Record}
    {body : List (List String)} (fields : all.map Record.fields = body.map (·.map utf8))
    {failure : Failure} (failed : rowsFrom columns number all = .error failure) :
    ∃ line problem, failure = .dataset line problem := by
  induction all generalizing number body with
  | nil => simp [rowsFrom] at failed
  | cons record more ih =>
    cases body with
    | nil => simp at fields
    | cons values others =>
      obtain ⟨here, behind⟩ := List.cons.inj fields
      simp only [rowsFrom, decodeFields_eq_ok_iff.2 here] at failed
      split_ifs at failed
      · split at failed
        case h_1 => simp at failed
        case h_2 later =>
          obtain rfl := Except.error.inj failed
          exact ih behind later
      · exact ⟨_, _, (Except.error.inj failed).symm⟩

/-! ## Tables -/

variable {delimiter : UInt8} {octets : Bytes}

/-- A dataset is read as a table exactly if its records are texts, the first of them can be a header
and the others have a field for each column. -/
theorem rows_eq_ok_iff {table : List Row} : rows delimiter octets = .ok table ↔
    ∃ (names : List String) (body : List (List String)),
      (records delimiter octets).map Record.fields = (names :: body).map (·.map utf8) ∧
      IsHeader (names.map trimmed) ∧ (∀ values ∈ body, values.length = names.length) ∧
      table = body.map (Row.ofHeader (names.map trimmed)) := by
  rw [rows]
  generalize records delimiter octets = all
  cases all with
  | nil =>
    have missing : readHeader none = .error (.dataset 1 .noHeader) := rfl
    simp [missing]
  | cons first more =>
    rw [List.head?_cons, List.tail_cons, List.map_cons]
    constructor
    · intro read
      split at read
      case h_1 => simp at read
      case h_2 header =>
        obtain ⟨names, here, rfl, fine⟩ := readHeader_eq_ok_iff.1 header
        obtain ⟨body, behind, full, rfl⟩ := rowsFrom_eq_ok_iff.1 read
        rw [List.length_map] at full
        exact ⟨names, body, by rw [here, behind, List.map_cons], fine, full, rfl⟩
    · rintro ⟨names, body, fields, fine, full, rfl⟩
      obtain ⟨here, behind⟩ := List.cons.inj fields
      rw [readHeader_eq_ok_iff.2 ⟨names, here, rfl, fine⟩]
      refine rowsFrom_eq_ok_iff.2 ⟨body, behind, ?_, rfl⟩
      rwa [List.length_map]

/-- What is wrong with a table that is not read. -/
inductive Refused : List (List String) → Prop
  /-- There is no header. -/
  | missing : Refused []
  /-- The header has no names. -/
  | blank {names : List String} (body : List (List String))
      (blank : ∀ name ∈ names, trimmed name = "") : Refused (names :: body)
  /-- A name is missing. -/
  | unnamed {names : List String} (body : List (List String)) {name : String}
      (member : name ∈ names) (empty : trimmed name = "") : Refused (names :: body)
  /-- A name is repeated. -/
  | repeated {names : List String} (body : List (List String))
      (repeated : ¬ (names.map trimmed).Nodup) : Refused (names :: body)
  /-- A record has not as many fields as there are names. -/
  | ragged (names : List String) {body : List (List String)} {values : List String}
      (member : values ∈ body) (ragged : values.length ≠ names.length) : Refused (names :: body)

theorem not_refused_iff {names : List String} {body : List (List String)} :
    ¬ Refused (names :: body) ↔
      IsHeader (names.map trimmed) ∧ ∀ values ∈ body, values.length = names.length := by
  constructor
  · intro fine
    refine ⟨⟨?_, ?_, ?_⟩, ?_⟩
    · intro none_
      obtain rfl := List.map_eq_nil_iff.1 none_
      exact fine (.blank body (by simp))
    · rintro _ member rfl
      obtain ⟨name, inside, empty⟩ := List.mem_map.1 member
      exact fine (.unnamed body inside empty)
    · by_contra repeated
      exact fine (.repeated body repeated)
    · intro values member
      by_contra ragged
      exact fine (.ragged names member ragged)
  · rintro ⟨⟨some_, named, distinct⟩, full⟩ refused
    have filled (name : String) (member : name ∈ names) : trimmed name ≠ "" :=
      named _ (List.mem_map_of_mem member)
    cases refused with
    | blank _ blank =>
      obtain ⟨name, more, rfl⟩ := List.exists_cons_of_ne_nil (List.map_eq_nil_iff.not.1 some_)
      exact filled name List.mem_cons_self (blank name List.mem_cons_self)
    | unnamed _ member empty => exact filled _ member empty
    | repeated _ repeated => exact repeated distinct
    | ragged _ member ragged => exact ragged (full _ member)

/-- A dataset whose records are texts is not read only because of the table. -/
theorem failure_of_rows {table : List (List String)}
    (fields : (records delimiter octets).map Record.fields = table.map (·.map utf8))
    {failure : Failure} (failed : rows delimiter octets = .error failure) :
    ∃ line problem, failure = .dataset line problem := by
  rw [rows] at failed
  generalize records delimiter octets = all at fields failed
  cases all with
  | nil =>
    obtain rfl := Except.error.inj failed
    exact ⟨_, _, rfl⟩
  | cons first more =>
    cases table with
    | nil => simp at fields
    | cons names body =>
      obtain ⟨here, behind⟩ := List.cons.inj fields
      rw [List.head?_cons, List.tail_cons, readHeader_of_fields here] at failed
      cases problem : headerProblem? (names.map trimmed) with
      | some problem =>
        simp only [problem] at failed
        exact ⟨_, _, (Except.error.inj failed).symm⟩
      | none =>
        simp only [problem] at failed
        exact failure_of_rowsFrom behind failed

theorem exists_failure_iff {table : List (List String)}
    (fields : (records delimiter octets).map Record.fields = table.map (·.map utf8)) :
    (∃ failure, rows delimiter octets = .error failure) ↔ Refused table := by
  cases read : rows delimiter octets with
  | ok found =>
    obtain ⟨names, body, fields', fine⟩ := rows_eq_ok_iff.1 read
    have same : table = names :: body := List.map_injective_iff.2
      (List.map_injective_iff.2 fun _ _ => utf8_inj.1) (fields.symm.trans fields')
    simp only [reduceCtorEq, exists_false, false_iff, same]
    exact not_refused_iff.2 ⟨fine.1, fine.2.1⟩
  | error failure =>
    refine iff_of_true ⟨failure, rfl⟩ ?_
    cases table with
    | nil => exact .missing
    | cons names body =>
      by_contra fine
      obtain ⟨header, full⟩ := not_refused_iff.1 fine
      rw [rows_eq_ok_iff.2 ⟨names, body, fields, header, full, rfl⟩] at read
      simp at read

/-- The records of the dataset with a path and a text. -/
def recordsOf (path : Path) (given : Option UInt8) (text : List Char) : List Record :=
  records (delimiterFor path given (withoutMark text)) (Utf8.encode (withoutMark text))

/-- Tables are rectangular, and nothing is lost in them.  What is read has a header of distinct names
that are not empty, and one row for each further record, in order, which has exactly these names for
its keys and under each name the field in its column.  A dataset of texts is not read exactly if it
has no header or a blank one, if a name is missing or repeated, or if a record has more or fewer
fields than there are columns, and then it is the dataset that is reported as wrong. -/
theorem parse_rectangular (path : Path) (given : Option UInt8) (text : List Char) :
    (∀ rows, parse path given text = .ok rows →
      ∃ (names : List String) (body : List (List String)),
        (recordsOf path given text).map Record.fields = (names :: body).map (·.map utf8) ∧
        names ≠ [] ∧ (∀ name ∈ names, trimmed name ≠ "") ∧ (names.map trimmed).Nodup ∧
        List.Forall₂ (fun values row => values.length = names.length ∧
          row.Under (names.map trimmed) values) body rows) ∧
    ∀ table : List (List String),
      (recordsOf path given text).map Record.fields = table.map (·.map utf8) →
      ((∃ failure, parse path given text = .error failure) ↔ Refused table) ∧
      ∀ failure, parse path given text = .error failure →
        ∃ line problem, failure = .dataset line problem := by
  constructor
  · intro rows read
    obtain ⟨names, body, fields, ⟨some_, named, distinct⟩, full, rfl⟩ := rows_eq_ok_iff.1 read
    refine ⟨names, body, fields, by simpa using some_, by simpa using named, distinct, ?_⟩
    rw [List.forall₂_map_right_iff, List.forall₂_same]
    intro values member
    have complete := full values member
    exact ⟨complete, Row.under_ofHeader distinct (by rw [complete, List.length_map])⟩
  · intro table fields
    refine ⟨exists_failure_iff fields, ?_⟩
    intro failure failed
    exact failure_of_rows fields failed

/-- A table with blanks around its names, an empty line, and fields that are empty or quoted; and one
in which two names are the same but for a blank. -/
theorem parse_rectangular_blanks :
    ∃ (names : List String) (body : List (List String)) (rows : List Row),
      parse (.ofString "d.csv") none " a,b \n\n\"1,2\",\n,\" x\"".toList = .ok rows ∧
      (recordsOf (.ofString "d.csv") none " a,b \n\n\"1,2\",\n,\" x\"".toList).map
        Record.fields = (names :: body).map (·.map utf8) ∧
      rows.length = body.length ∧
      ∃ failure, parse (.ofString "d.csv") none "a, a\n1,2".toList = .error failure := by
  have read : parse (.ofString "d.csv") none " a,b \n\n\"1,2\",\n,\" x\"".toList =
      .ok [.ofPairs [("a", "1,2"), ("b", "")], .ofPairs [("a", ""), ("b", " x")]] := by
    decide +kernel
  obtain ⟨names, body, fields, -, -, -, under⟩ := (parse_rectangular _ _ _).1 _ read
  refine ⟨names, body, _, read, fields, under.length_eq.symm, ?_⟩
  have fields' : (recordsOf (.ofString "d.csv") none "a, a\n1,2".toList).map Record.fields =
      [["a", " a"], ["1", "2"]].map (·.map utf8) := by decide +kernel
  exact ((parse_rectangular _ _ _).2 _ fields').1.2 (.repeated _ (by decide +kernel))

end Dataset

end MailMerge
