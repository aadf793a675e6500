/-
# Quoted text

How a message shows a byte or a byte string between quotes. Printable characters
stand as themselves; the quote in use and the backslash are escaped, the common
control characters have a letter, and anything else is written by its number. A byte
that belongs to no UTF-8 sequence is written by its value.
-/

import HackAssembler.Bytes
import HackAssembler.Text.Utf8
import HackAssembler.Text.Printable

namespace HackAssembler

namespace Quoted

/-- The quote around a single byte. -/
def single : Char := Char.ofNat 0x27

/-- The quote around a byte string. -/
def double : Char := Char.ofNat 0x22

/-- The escape character. -/
def backslash : Char := Char.ofNat 0x5c

/-- The hexadecimal numeral of `n`, filled up with zeros to `width` digits. -/
def hex (width n : Nat) : Bytes :=
  let digits := (Nat.toDigits 16 n).map Char.toUInt8
  List.replicate (width - digits.length) Byte.zero ++ digits

/-- The letter that names a control character after a backslash. -/
def controlLetter? (c : Char) : Option Char :=
  match c.toNat with
  | 0x07 => some 'a'
  | 0x08 => some 'b'
  | 0x0c => some 'f'
  | 0x0a => some 'n'
  | 0x0d => some 'r'
  | 0x09 => some 't'
  | 0x0b => some 'v'
  | _ => none

/-- A byte written by its value. -/
def escapeByte (b : UInt8) : Bytes := ascii "\\x" ++ hex 2 b.toNat

/-- One character inside the given quote. -/
def escapeChar (quote c : Char) : Bytes :=
  if c = quote ∨ c = backslash then [backslash.toUInt8, c.toUInt8]
  else if isPrintable c then Utf8.encode c
  else match controlLetter? c with
    | some letter => [backslash.toUInt8, letter.toUInt8]
    | none =>
      if c.toNat < 0x80 then ascii "\\x" ++ hex 2 c.toNat
      else if c.toNat < 0x10000 then ascii "\\u" ++ hex 4 c.toNat
      else ascii "\\U" ++ hex 8 c.toNat

/-- One piece of a byte string inside the given quote. -/
def escapePiece (quote : Char) : Utf8.Piece → Bytes
  | .char c => escapeChar quote c
  | .stray b => escapeByte b

/-- A byte in single quotes, shown as the character with that number. -/
def ofByte (b : UInt8) : Bytes :=
  [single.toUInt8] ++ escapeChar single (Char.ofNat b.toNat) ++ [single.toUInt8]

/-- A byte string in double quotes. -/
def ofBytes (text : Bytes) : Bytes :=
  [double.toUInt8] ++ (Utf8.Piece.ofBytes text).flatMap (escapePiece double)
    ++ [double.toUInt8]

end Quoted

end HackAssembler
