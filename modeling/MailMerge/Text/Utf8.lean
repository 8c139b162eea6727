/-!
# UTF-8

File contents, paths and datasets arrive as octets, and almost all of them are meant as text.  This
module cuts a sequence of octets into pieces, each of them a character or a run of octets that no
character starts with, and reads three things off the pieces: the text, when every piece is a
character; the place and length of the first piece that is none; and a readable stand-in for the
text, in which each ill-formed piece becomes one replacement character.

An ill-formed piece is as long as possible: it is the longest run of octets that begins some
character's encoding, or one octet when there is no such run.  So the length of a piece is between
one and three, and a piece at the very end may be the beginning of a character that was cut short.
-/

namespace MailMerge

set_option autoImplicit false

/-- A sequence of octets: the content of a file, a path, or a part of one. -/
abbrev Bytes := List UInt8

namespace Utf8

/-! ## Writing characters -/

/-- The octets of the code point `n`, which is assumed to be one of a character. -/
def encodePoint (n : Nat) : Bytes :=
  if n < 0x80 then [.ofNat n]
  else if n < 0x800 then [.ofNat (0xC0 + n / 64), .ofNat (0x80 + n % 64)]
  else if n < 0x10000 then
    [.ofNat (0xE0 + n / 4096), .ofNat (0x80 + n / 64 % 64), .ofNat (0x80 + n % 64)]
  else
    [.ofNat (0xF0 + n / 262144), .ofNat (0x80 + n / 4096 % 64), .ofNat (0x80 + n / 64 % 64),
      .ofNat (0x80 + n % 64)]

/-- The octets of one character. -/
def encodeChar (c : Char) : Bytes := encodePoint c.toNat

/-- The octets of a text, character after character. -/
def encode (text : List Char) : Bytes := text.flatMap encodeChar

@[simp] theorem encode_nil : encode [] = [] := rfl

@[simp] theorem encode_cons (c : Char) (text : List Char) :
    encode (c :: text) = encodeChar c ++ encode text := rfl

@[simp] theorem encode_append (left right : List Char) :
    encode (left ++ right) = encode left ++ encode right :=
  List.flatMap_append

/-! ## Cutting octets into pieces -/

/-- What the first octet of a character says about the octets after it: how many there are, and the
bounds within which the second one lies. -/
inductive Lead where
  /-- The octet is a character by itself. -/
  | alone
  /-- One more octet follows. -/
  | two
  /-- Two more octets follow, the first of them within the bounds. -/
  | three (low high : UInt8)
  /-- Three more octets follow, the first of them within the bounds. -/
  | four (low high : UInt8)
  /-- No character begins with the octet. -/
  | never
  deriving DecidableEq, Repr

/-- The class of a first octet.  The bounds leave out the encodings that are longer than necessary,
the surrogates and everything beyond the last code point. -/
def lead (b : UInt8) : Lead :=
  if b < 0x80 then .alone
  else if b < 0xC2 then .never
  else if b < 0xE0 then .two
  else if b = 0xE0 then .three 0xA0 0xBF
  else if b = 0xED then .three 0x80 0x9F
  else if b < 0xF0 then .three 0x80 0xBF
  else if b = 0xF0 then .four 0x90 0xBF
  else if b < 0xF4 then .four 0x80 0xBF
  else if b = 0xF4 then .four 0x80 0x8F
  else .never

/-- An octet that continues a character. -/
def isTail (b : UInt8) : Bool := 0x80 ≤ b && b ≤ 0xBF

/-- An octet within two bounds, both included. -/
def within (low high b : UInt8) : Bool := low ≤ b && b ≤ high

/-- A stretch of octets: a character, or octets that are none. -/
inductive Piece where
  /-- The octets encode this character. -/
  | char (c : Char)
  /-- No character begins with these octets and goes on as the input does. -/
  | invalid (octets : Bytes)
  /-- The input ends within the character that these octets begin. -/
  | truncated (octets : Bytes)
  deriving DecidableEq, Repr

/-- The six low bits that an octet contributes to a character. -/
def payload (b : UInt8) : Nat := b.toNat - 0x80

/-- The pieces of a sequence of octets, from left to right. -/
def pieces : Bytes → List Piece
  | [] => []
  | b :: rest =>
    match lead b with
    | .alone => .char (Char.ofNat b.toNat) :: pieces rest
    | .never => .invalid [b] :: pieces rest
    | .two =>
      match rest with
      | [] => [.truncated [b]]
      | c :: rest₁ =>
        if isTail c then .char (Char.ofNat ((b.toNat - 0xC0) * 64 + payload c)) :: pieces rest₁
        else .invalid [b] :: pieces (c :: rest₁)
    | .three low high =>
      match rest with
      | [] => [.truncated [b]]
      | c :: rest₁ =>
        if within low high c then
          match rest₁ with
          | [] => [.truncated [b, c]]
          | d :: rest₂ =>
            if isTail d then
              .char (Char.ofNat ((b.toNat - 0xE0) * 4096 + payload c * 64 + payload d)) ::
                pieces rest₂
            else .invalid [b, c] :: pieces (d :: rest₂)
        else .invalid [b] :: pieces (c :: rest₁)
    | .four low high =>
      match rest with
      | [] => [.truncated [b]]
      | c :: rest₁ =>
        if within low high c then
          match rest₁ with
          | [] => [.truncated [b, c]]
          | d :: rest₂ =>
            if isTail d then
              match rest₂ with
              | [] => [.truncated [b, c, d]]
              | e :: rest₃ =>
                if isTail e then
                  .char (Char.ofNat ((b.toNat - 0xF0) * 262144 + payload c * 4096 +
                    payload d * 64 + payload e)) :: pieces rest₃
                else .invalid [b, c, d] :: pieces (e :: rest₃)
            else .invalid [b, c] :: pieces (d :: rest₂)
        else .invalid [b] :: pieces (c :: rest₁)
termination_by octets => octets.length

/-! ## Reading the pieces -/

/-- Where and how a sequence of octets stops being text. -/
structure DecodeError where
  /-- The number of octets before the ill-formed piece. -/
  validUpTo : Nat
  /-- The length of the ill-formed piece, or nothing when the input ends within it. -/
  pieceLength : Option Nat
  deriving DecidableEq, Repr

/-- The error in words. -/
def DecodeError.message (error : DecodeError) : String :=
  match error.pieceLength with
  | some n =>
    "invalid utf-8 sequence of " ++ toString n ++ " bytes from index " ++ toString error.validUpTo
  | none => "incomplete utf-8 byte sequence from index " ++ toString error.validUpTo

/-- The characters of some pieces, the first of which begins at the octet `start`. -/
def charsFrom (start : Nat) : List Piece → Except DecodeError (List Char)
  | [] => .ok []
  | .char c :: rest =>
    match charsFrom (start + (encodeChar c).length) rest with
    | .ok text => .ok (c :: text)
    | .error e => .error e
  | .invalid octets :: _ => .error ⟨start, some octets.length⟩
  | .truncated _ :: _ => .error ⟨start, none⟩

/-- The text that the octets encode, or the first place where they encode none. -/
def decode (octets : Bytes) : Except DecodeError (List Char) := charsFrom 0 (pieces octets)

/-- The stand-in for an ill-formed piece. -/
def replacement : Char := Char.ofNat 0xFFFD

/-- The character that a piece is shown as. -/
def Piece.shown : Piece → Char
  | .char c => c
  | .invalid _ | .truncated _ => replacement

/-- The text that stands for the octets where text is wanted, whatever the octets are. -/
def decodeLossy (octets : Bytes) : List Char := (pieces octets).map Piece.shown

/-- Whether the octets are text. -/
def isText (octets : Bytes) : Bool :=
  match decode octets with
  | .ok _ => true
  | .error _ => false

end Utf8

/-- The octets of a string. -/
def utf8 (text : String) : Bytes := Utf8.encode text.toList

end MailMerge
