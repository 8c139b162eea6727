import MailMerge.Datum

/-!
# TOML scalars

Strings, numbers, truth values, dates and times of TOML 1.1.  Each reader takes a text and gives what
it read together with the text behind it, or nothing when the text does not begin with what it reads.

Strings come in four forms: with or without escapes, on one line or on several.  On several lines a
line end directly behind the opening marks is dropped, a backslash at the end of a line swallows the
blanks and line ends behind it, and one or two quotation marks may stand directly before the closing
ones.  The other scalars are read as one word first, which is then judged as a whole.
-/

namespace MailMerge.Toml

set_option autoImplicit false

/-! ## Characters -/

/-- A blank that does not end a line. -/
def isSpace (c : Char) : Bool := c == ' ' || c == '\t'

/-- A digit in base ten. -/
def isDigit (c : Char) : Bool := '0' ≤ c && c ≤ '9'

/-- A digit in base sixteen. -/
def isHexDigit (c : Char) : Bool := isDigit c || ('a' ≤ c && c ≤ 'f') || ('A' ≤ c && c ≤ 'F')

/-- The value of a digit in base sixteen. -/
def hexValue (c : Char) : Nat :=
  if isDigit c then c.toNat - 48 else if c.toNat < 97 then c.toNat - 55 else c.toNat - 87

/-- A character that may stand as it is in a string or in a comment. -/
def isPlain (c : Char) : Bool := c == '\t' || (32 ≤ c.toNat && c.toNat != 127)

/-- The text behind a line end, if the text begins with one. -/
def lineEnd? : List Char → Option (List Char)
  | '\n' :: rest => some rest
  | '\r' :: '\n' :: rest => some rest
  | _ => none

/-! ## Strings -/

/-- The number that some digits in base sixteen stand for. -/
def hexNumber (digits : List Char) : Nat := digits.foldl (fun n c => 16 * n + hexValue c) 0

/-- The character with the number that the next digits stand for. -/
def numberedChar? (count : Nat) (text : List Char) : Option (Char × List Char) :=
  let digits := text.take count
  if digits.length = count && digits.all isHexDigit then
    let n := hexNumber digits
    if n.isValidChar then some (Char.ofNat n, text.drop count) else none
  else none

/-- The character that an escape stands for, given the text behind the backslash. -/
def escape? : List Char → Option (Char × List Char)
  | 'b' :: rest => some (Char.ofNat 8, rest)
  | 't' :: rest => some ('\t', rest)
  | 'n' :: rest => some ('\n', rest)
  | 'f' :: rest => some (Char.ofNat 12, rest)
  | 'r' :: rest => some ('\r', rest)
  | 'e' :: rest => some (Char.ofNat 27, rest)
  | '"' :: rest => some ('"', rest)
  | '\\' :: rest => some ('\\', rest)
  | 'x' :: rest => numberedChar? 2 rest
  | 'u' :: rest => numberedChar? 4 rest
  | 'U' :: rest => numberedChar? 8 rest
  | _ => none

/-- The rest of a string with escapes on one line, with the characters so far, the last first. -/
def basicRest : Nat → List Char → List Char → Option (List Char × List Char)
  | 0, _, _ => none
  | _ + 1, _, [] => none
  | fuel + 1, read, c :: text =>
    if c = '"' then some (read.reverse, text)
    else if c = '\\' then
      match escape? text with
      | some (escaped, rest) => basicRest fuel (escaped :: read) rest
      | none => none
    else if isPlain c then basicRest fuel (c :: read) text
    else none

/-- The rest of a string without escapes on one line. -/
def literalRest (text : List Char) : Option (List Char × List Char) :=
  match text.dropWhile fun c => isPlain c && c != '\'' with
  | '\'' :: rest => some (text.takeWhile fun c => isPlain c && c != '\'', rest)
  | _ => none

/-- The text behind blanks and line ends. -/
def skipBlankLines : Nat → List Char → List Char
  | 0, text => text
  | fuel + 1, text =>
    match lineEnd? text with
    | some rest => skipBlankLines fuel rest
    | none =>
      match text with
      | c :: rest => if isSpace c then skipBlankLines fuel rest else text
      | [] => []

/-- The text behind a swallowed line end, given the text behind the backslash. -/
def swallowed? (text : List Char) : Option (List Char) :=
  (lineEnd? (text.dropWhile isSpace)).map fun rest => skipBlankLines rest.length rest

/-- What some marks in a row do in a string on several lines: the number of those that belong to the
string, and whether it ends with them. -/
def closingMarks (count : Nat) : Option (Nat × Bool) :=
  if count < 3 then some (count, false) else if count ≤ 5 then some (count - 3, true) else none

/-- The rest of a string on several lines, with the characters so far, the last first. -/
def longRest (mark : Char) (escapes : Bool) :
    Nat → List Char → List Char → Option (List Char × List Char)
  | 0, _, _ => none
  | _ + 1, _, [] => none
  | fuel + 1, read, c :: text =>
    if c = mark then
      let behind := text.dropWhile (· == mark)
      match closingMarks (1 + (text.takeWhile (· == mark)).length) with
      | none => none
      | some (count, true) => some ((List.replicate count mark ++ read).reverse, behind)
      | some (count, false) =>
        longRest mark escapes fuel (List.replicate count mark ++ read) behind
    else if c = '\\' && escapes then
      match swallowed? text with
      | some rest => longRest mark escapes fuel read rest
      | none =>
        match escape? text with
        | some (escaped, rest) => longRest mark escapes fuel (escaped :: read) rest
        | none => none
    else if c = '\r' then
      match text with
      | '\n' :: rest => longRest mark escapes fuel ('\n' :: '\r' :: read) rest
      | _ => none
    else if c = '\n' || isPlain c then longRest mark escapes fuel (c :: read) text
    else none

/-- The text behind a line end, or the whole text if it does not begin with one. -/
def dropLineEnd (text : List Char) : List Char := (lineEnd? text).getD text

/-- A string on one line. -/
def shortString? : List Char → Option (String × List Char)
  | '"' :: text => (basicRest (text.length + 1) [] text).map fun (s, rest) => (.ofList s, rest)
  | '\'' :: text => (literalRest text).map fun (s, rest) => (.ofList s, rest)
  | _ => none

/-- A string. -/
def string? : List Char → Option (String × List Char)
  | '"' :: '"' :: '"' :: text =>
    let text := dropLineEnd text
    (longRest '"' true (text.length + 1) [] text).map fun (s, rest) => (.ofList s, rest)
  | '\'' :: '\'' :: '\'' :: text =>
    let text := dropLineEnd text
    (longRest '\'' false (text.length + 1) [] text).map fun (s, rest) => (.ofList s, rest)
  | text => shortString? text

/-! ## Numbers -/

/-- The digits of a number without the underscores, each of which must stand between two digits. -/
def digits? (isDigit : Char → Bool) : List Char → Option (List Char)
  | [] => none
  | [c] => if isDigit c then some [c] else none
  | c :: '_' :: rest => if isDigit c then (digits? isDigit rest).map (c :: ·) else none
  | c :: rest => if isDigit c then (digits? isDigit rest).map (c :: ·) else none

/-- The number that some digits stand for in a base. -/
def numberIn (base : Nat) (digits : List Char) : Nat :=
  digits.foldl (fun n c => base * n + hexValue c) 0

/-- The sign of a number and what is behind it. -/
def splitSign : List Char → Bool × List Char
  | '-' :: rest => (true, rest)
  | '+' :: rest => (false, rest)
  | word => (false, word)

/-- The digits of a number in base ten, which has no superfluous zero in front. -/
def decimalDigits? (word : List Char) : Option (List Char) :=
  match digits? isDigit word with
  | some ('0' :: _ :: _) => none
  | result => result

/-- The bounds of whole numbers. -/
def integerInBounds (n : Int) : Bool := -(Nat.pow 2 127 : Int) ≤ n && n < (Nat.pow 2 128 : Int)

/-- A whole number. -/
def integer? (word : List Char) : Option Datum :=
  let value : Option Int :=
    match word with
    | '0' :: 'x' :: rest => (digits? isHexDigit rest).map fun ds => (numberIn 16 ds : Int)
    | '0' :: 'o' :: rest =>
      (digits? (fun c => '0' ≤ c && c ≤ '7') rest).map fun ds => (numberIn 8 ds : Int)
    | '0' :: 'b' :: rest =>
      (digits? (fun c => c == '0' || c == '1') rest).map fun ds => (numberIn 2 ds : Int)
    | _ =>
      let (negative, rest) := splitSign word
      (decimalDigits? rest).map fun ds =>
        if negative then -(numberIn 10 ds : Int) else (numberIn 10 ds : Int)
  value.bind fun n => if integerInBounds n then some (.integer n) else none

/-- Whether a decimal number is less than the least one that is too great for a float of 64 bits. -/
def floatInBounds (digits : List Char) (exponent : Int) : Bool :=
  let n := numberIn 10 digits
  let limit := Nat.pow 2 1024 - Nat.pow 2 970
  if n = 0 then true
  else if 400 < (digits.length : Int) + exponent && n != 0 then
    decide ((Nat.toDigits 10 n).length + exponent < 309)
  else if 0 ≤ exponent then n * Nat.pow 10 exponent.toNat < limit
  else if exponent < -(digits.length : Int) then true
  else n < limit * Nat.pow 10 (-exponent).toNat

/-- A number with a fraction or an exponent. -/
def float? (word : List Char) : Option Datum :=
  let (_, rest) := splitSign word
  if rest = ['i', 'n', 'f'] || rest = ['n', 'a', 'n'] then some .real
  else
    let isExponentMark := fun c => c == 'e' || c == 'E'
    let mantissa := rest.takeWhile (!isExponentMark ·)
    let exponentPart := rest.dropWhile (!isExponentMark ·)
    let whole := mantissa.takeWhile (· != '.')
    let fraction := mantissa.dropWhile (· != '.')
    if fraction.isEmpty && exponentPart.isEmpty then none
    else do
      let wholeDigits ← decimalDigits? whole
      let fractionDigits ← if fraction.isEmpty then some [] else digits? isDigit fraction.tail
      let exponent : Int ←
        if exponentPart.isEmpty then some 0
        else
          let (negative, digits) := splitSign exponentPart.tail
          (digits? isDigit digits).map fun ds =>
            if negative then -(numberIn 10 ds : Int) else (numberIn 10 ds : Int)
      if floatInBounds (wholeDigits ++ fractionDigits) (exponent - fractionDigits.length) then
        some .real
      else none

/-! ## Dates and times -/

/-- Exactly so many digits at the start of a text, as a number. -/
def fixedDigits? (count : Nat) (text : List Char) : Option (Nat × List Char) :=
  let ds := text.take count
  if ds.length = count && ds.all isDigit then some (numberIn 10 ds, text.drop count) else none

/-- Whether a year has a leap day. -/
def isLeapYear (year : Nat) : Bool := year % 4 == 0 && (year % 100 != 0 || year % 400 == 0)

/-- The number of days of a month. -/
def daysIn (year month : Nat) : Nat :=
  if month = 2 then (if isLeapYear year then 29 else 28)
  else if [4, 6, 9, 11].contains month then 30
  else 31

/-- The text behind one given character. -/
def expect (c : Char) : List Char → Option (List Char)
  | d :: rest => if d = c then some rest else none
  | [] => none

/-- The text behind a date. -/
def date? (text : List Char) : Option (List Char) := do
  let (year, text) ← fixedDigits? 4 text
  let text ← expect '-' text
  let (month, text) ← fixedDigits? 2 text
  let text ← expect '-' text
  let (day, text) ← fixedDigits? 2 text
  if 1 ≤ month && month ≤ 12 && 1 ≤ day && day ≤ daysIn year month then some text else none

/-- The text behind a time of day, whose seconds may be left out. -/
def time? (text : List Char) : Option (List Char) := do
  let (hour, text) ← fixedDigits? 2 text
  let text ← expect ':' text
  let (minute, text) ← fixedDigits? 2 text
  if hour ≤ 23 && minute ≤ 59 then
    match text with
    | ':' :: text => do
      let (second, text) ← fixedDigits? 2 text
      if second ≤ 60 then
        match text with
        | '.' :: text =>
          if (text.takeWhile isDigit).isEmpty then none else some (text.dropWhile isDigit)
        | _ => some text
      else none
    | _ => some text
  else none

/-- The text behind the distance from universal time, which may be left out. -/
def offset? : List Char → Option (List Char)
  | [] => some []
  | c :: text =>
    if c = 'Z' || c = 'z' then some text
    else if c = '+' || c = '-' then do
      let (hour, text) ← fixedDigits? 2 text
      let text ← expect ':' text
      let (minute, text) ← fixedDigits? 2 text
      if hour ≤ 23 && minute ≤ 59 then some text else none
    else none

/-- Whether a word is a date, a time, or both. -/
def isMoment (word : List Char) : Bool :=
  match date? word with
  | some [] => true
  | some (c :: rest) =>
    (c == 'T' || c == 't' || c == ' ') && (time? rest).bind offset? == some []
  | none => time? word == some []

/-! ## Words -/

/-- A character of a scalar that is not a string. -/
def isWordChar (c : Char) : Bool :=
  c.isAlphanum || c == '_' || c == '+' || c == '-' || c == '.' || c == ':'

/-- The word that a text begins with.  A date and a time behind it, one blank apart, are one word. -/
def splitWord (text : List Char) : List Char × List Char :=
  let word := text.takeWhile isWordChar
  let behind := text.dropWhile isWordChar
  match behind with
  | ' ' :: c :: rest =>
    if date? word == some [] && isDigit c then
      (word ++ ' ' :: (c :: rest).takeWhile isWordChar, (c :: rest).dropWhile isWordChar)
    else (word, behind)
  | _ => (word, behind)

/-- The scalar that a word stands for. -/
def word? (word : List Char) : Option Datum :=
  if word = ['t', 'r', 'u', 'e'] then some (.bool true)
  else if word = ['f', 'a', 'l', 's', 'e'] then some (.bool false)
  else
    match integer? word with
    | some value => some value
    | none =>
      match float? word with
      | some value => some value
      | none => if isMoment word then some .moment else none

end MailMerge.Toml
