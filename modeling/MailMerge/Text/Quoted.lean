import MailMerge.Text.Utf8

/-!
# Quoted text

Text in a notice stands between quotation marks, with escapes for what would not be seen as it is: the
usual control characters by a letter or a number, the backslash, and the quotation mark itself.
Octets are quoted as the text they encode, and those that encode none by their numbers.
-/

namespace MailMerge.Quoted

set_option autoImplicit false

/-- The hexadecimal digits of a number in capital or small letters. -/
def hexDigits (capital : Bool) (n : Nat) : List Char :=
  (Nat.toDigits 16 n).map fun c => if capital then c.toUpper else c

/-- Whether a character is seen as it is. -/
def isVisible (c : Char) : Bool :=
  let n := c.toNat
  !(n < 0x20 || (0x7F ≤ n && n ≤ 0x9F) || n == 0xAD)

/-- A character with an escape if it needs one, which the quotation marks in `marks` do. -/
def escape (marks : List Char) (c : Char) : List Char :=
  if c = '\t' then ['\\', 't']
  else if c = '\r' then ['\\', 'r']
  else if c = '\n' then ['\\', 'n']
  else if c = Char.ofNat 0 then ['\\', '0']
  else if c = '\\' || marks.contains c then ['\\', c]
  else if isVisible c then [c]
  else ['\\', 'u', '{'] ++ hexDigits false c.toNat ++ ['}']

/-- A string between quotation marks. -/
def string (text : String) : String :=
  .ofList ('"' :: (text.toList.flatMap (escape ['"']) ++ ['"']))

/-- A character between apostrophes. -/
def char (c : Char) : String := .ofList ('\'' :: (escape ['\''] c ++ ['\'']))

/-- An octet by its number. -/
def octet (b : UInt8) : List Char :=
  ['\\', 'x'] ++ (if b < 16 then ['0'] else []) ++ hexDigits true b.toNat

/-- A piece of octets in quoted text. -/
def piece : Utf8.Piece → List Char
  | .char c => escape ['"', '\''] c
  | .invalid octets | .truncated octets => octets.flatMap octet

/-- Octets between quotation marks. -/
def octets (content : Bytes) : String :=
  .ofList ('"' :: ((Utf8.pieces content).flatMap piece ++ ['"']))

end MailMerge.Quoted
