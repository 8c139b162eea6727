/-!
# Blank characters

A name in a header, a path in the settings and a file name in a record are judged after the blanks
around them are taken off.  Blank are the characters with the Unicode property `White_Space`.
-/

namespace MailMerge

set_option autoImplicit false

/-- The characters with the Unicode property `White_Space`. -/
def isBlank (c : Char) : Bool :=
  let n := c.toNat
  (0x9 ≤ n && n ≤ 0xD) || n == 0x20 || n == 0x85 || n == 0xA0 || n == 0x1680 ||
    (0x2000 ≤ n && n ≤ 0x200A) || n == 0x2028 || n == 0x2029 || n == 0x202F || n == 0x205F ||
    n == 0x3000

/-- A text without the blanks at its start. -/
def trimStart (text : List Char) : List Char := text.dropWhile isBlank

/-- A text without the blanks at its end. -/
def trimEnd (text : List Char) : List Char := (text.reverse.dropWhile isBlank).reverse

/-- A text without the blanks at either end. -/
def trim (text : List Char) : List Char := trimEnd (trimStart text)

/-- A string without the blanks at either end. -/
def trimmed (text : String) : String := .ofList (trim text.toList)

/-- Nothing but blanks, or nothing at all. -/
def isBlankText (text : String) : Bool := text.toList.all isBlank

example : trimmed " \t a b \n" = "a b" := by decide +kernel

end MailMerge
