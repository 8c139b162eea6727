import MailMerge.Text.Utf8

/-!
# Records of a delimited dataset

A dataset is a sequence of records, a record a sequence of fields.  Fields are separated by one octet,
the delimiter; a record ends at a line feed, at a carriage return, or at both in this order, and lines
without any field are skipped.  A field that begins with a quote extends to the next quote that is not
doubled, and may contain anything; octets behind the closing quote are added to the field as they are.

The splitter goes through the octets once and keeps a state.  `step` says what one octet does in each
state, and `recordsFrom` collects the fields.  A record is numbered with the line and octet at which
the splitter stood when the record before it had ended.  Lines are counted by their line feeds, and
neither skipped lines nor the line feed that follows a carriage return belong to the record before
them, so the number is that of the first octet behind the record before.
-/

namespace MailMerge.Dataset

set_option autoImplicit false

/-- The octet of the quotation mark. -/
def quote : UInt8 := 0x22

/-- The octet of the line feed. -/
def lineFeed : UInt8 := 0x0A

/-- The octet of the carriage return. -/
def carriageReturn : UInt8 := 0x0D

/-- Whether the octet ends a record. -/
def endsRecord (octet : UInt8) : Bool := octet == lineFeed || octet == carriageReturn

/-- A place in a dataset. -/
structure Mark where
  /-- The number of the line, counted from one. -/
  line : Nat
  /-- The number of octets before the place. -/
  byte : Nat
  deriving DecidableEq, Repr

/-- The place behind one more octet. -/
def Mark.next (mark : Mark) (octet : UInt8) : Mark :=
  ⟨if octet = lineFeed then mark.line + 1 else mark.line, mark.byte + 1⟩

/-- The fields of a record, and the place where it was looked for. -/
structure Record where
  /-- Where the record before this one had ended. -/
  mark : Mark
  /-- The octets of the fields. -/
  fields : List Bytes
  deriving DecidableEq, Repr

/-- Where the splitter is. -/
inductive State where
  /-- Between records. -/
  | between
  /-- Behind a carriage return that ended a record. -/
  | behindReturn
  /-- At the start of a field that is not the first one. -/
  | atField
  /-- In a field that is not quoted. -/
  | inField
  /-- In a quoted field. -/
  | inQuotes
  /-- Behind a quote in a quoted field. -/
  | behindQuote
  deriving DecidableEq, Repr

/-- What an octet does to the record that is being read. -/
inductive Effect where
  /-- Nothing. -/
  | skip
  /-- It belongs to the field. -/
  | keep
  /-- It ends the field. -/
  | endField
  /-- It ends the record. -/
  | endRecord
  deriving DecidableEq, Repr

/-- The state behind an octet that ends a record. -/
def closing (octet : UInt8) : State := if octet = carriageReturn then .behindReturn else .between

/-- An octet at the start of a field. -/
def stepAtField (delimiter octet : UInt8) : State × Effect :=
  if octet = quote then (.inQuotes, .skip)
  else if octet = delimiter then (.atField, .endField)
  else if endsRecord octet then (closing octet, .endRecord)
  else (.inField, .keep)

/-- An octet between records. -/
def stepBetween (delimiter octet : UInt8) : State × Effect :=
  if endsRecord octet then (.between, .skip) else stepAtField delimiter octet

/-- An octet in a field that is not quoted, or no longer. -/
def stepInField (delimiter octet : UInt8) : State × Effect :=
  if octet = delimiter then (.atField, .endField)
  else if endsRecord octet then (closing octet, .endRecord)
  else (.inField, .keep)

/-- The state behind an octet and what the octet does. -/
def step (delimiter : UInt8) (state : State) (octet : UInt8) : State × Effect :=
  match state with
  | .between => stepBetween delimiter octet
  | .behindReturn =>
    if octet = lineFeed then (.between, .skip) else stepBetween delimiter octet
  | .atField => stepAtField delimiter octet
  | .inField => stepInField delimiter octet
  | .inQuotes => if octet = quote then (.behindQuote, .skip) else (.inQuotes, .keep)
  | .behindQuote =>
    if octet = quote then (.inQuotes, .keep) else stepInField delimiter octet

/-- Whether a record has begun and not ended. -/
def State.isOpen : State → Bool
  | .between | .behindReturn => false
  | .atField | .inField | .inQuotes | .behindQuote => true

/-- A record that is being read: its parts so far, the last first. -/
structure Unfinished where
  /-- Where the record before this one had ended. -/
  mark : Mark
  /-- The complete fields. -/
  fields : List Bytes
  /-- The octets of the field that is being read. -/
  field : Bytes
  deriving DecidableEq, Repr

/-- Nothing read yet, behind a record that ended here. -/
def Unfinished.at (mark : Mark) : Unfinished := ⟨mark, [], []⟩

/-- The record with the field that is being read as its last one. -/
def Unfinished.finish (unfinished : Unfinished) : Record :=
  ⟨unfinished.mark, (unfinished.field.reverse :: unfinished.fields).reverse⟩

/-- The records of the octets that follow a place, given what of the first one has been read. -/
def recordsFrom (delimiter : UInt8) : State → Unfinished → Mark → Bytes → List Record
  | state, unfinished, _, [] => if state.isOpen then [unfinished.finish] else []
  | state, unfinished, mark, octet :: rest =>
    let next := mark.next octet
    match step delimiter state octet with
    | (state, .skip) => recordsFrom delimiter state unfinished next rest
    | (state, .keep) =>
      recordsFrom delimiter state { unfinished with field := octet :: unfinished.field } next rest
    | (state, .endField) =>
      recordsFrom delimiter state
        { unfinished with fields := unfinished.field.reverse :: unfinished.fields, field := [] }
        next rest
    | (state, .endRecord) =>
      unfinished.finish :: recordsFrom delimiter state (.at next) next rest

/-- The octets that mark a text as UTF-8 at its very start. -/
def byteOrderMark : Bytes := [0xEF, 0xBB, 0xBF]

/-- The records of a dataset.  A mark at the very start belongs to none of them. -/
def records (delimiter : UInt8) (octets : Bytes) : List Record :=
  if byteOrderMark.isPrefixOf octets then
    recordsFrom delimiter .between (.at ⟨1, 0⟩) ⟨1, 3⟩ (octets.drop 3)
  else recordsFrom delimiter .between (.at ⟨1, 0⟩) ⟨1, 0⟩ octets

end MailMerge.Dataset
