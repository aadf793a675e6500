/-
# Byte strings

Sources, symbols, paths and messages are strings of bytes, and nothing below reads
them as characters. This module supplies the type, the bytes that the assembly
language gives a meaning to, and the byte classes out of which symbols and decimal
constants are built.
-/

namespace HackAssembler

/-- A string of bytes. -/
abbrev Bytes := List UInt8

/-- The bytes of a literal text. -/
def ascii (text : String) : Bytes := text.toUTF8.data.toList

namespace Byte

/-- The horizontal tab. -/
@[match_pattern] abbrev tab : UInt8 := 0x09

/-- The line feed, which ends a line. -/
@[match_pattern] abbrev lineFeed : UInt8 := 0x0a

/-- The carriage return, which may stand before a line feed. -/
@[match_pattern] abbrev carriageReturn : UInt8 := 0x0d

/-- The blank. -/
@[match_pattern] abbrev space : UInt8 := 0x20

/-- The dollar sign, a symbol character. -/
@[match_pattern] abbrev dollar : UInt8 := 0x24

/-- The opening parenthesis of a label line. -/
@[match_pattern] abbrev openParen : UInt8 := 0x28

/-- The closing parenthesis of a label line. -/
@[match_pattern] abbrev closeParen : UInt8 := 0x29

/-- The plus sign. -/
@[match_pattern] abbrev plus : UInt8 := 0x2b

/-- The minus sign, and the mark of a command line option. -/
@[match_pattern] abbrev minus : UInt8 := 0x2d

/-- The dot, a symbol character and a part of path names. -/
@[match_pattern] abbrev dot : UInt8 := 0x2e

/-- The slash, two of which open a comment. -/
@[match_pattern] abbrev slash : UInt8 := 0x2f

/-- The digit zero. -/
@[match_pattern] abbrev zero : UInt8 := 0x30

/-- The digit one. -/
@[match_pattern] abbrev one : UInt8 := 0x31

/-- The digit nine. -/
abbrev nine : UInt8 := 0x39

/-- The colon, a symbol character. -/
@[match_pattern] abbrev colon : UInt8 := 0x3a

/-- The semicolon, which separates a computation from its jump. -/
@[match_pattern] abbrev semicolon : UInt8 := 0x3b

/-- The equals sign, which separates a destination from its computation. -/
@[match_pattern] abbrev equals : UInt8 := 0x3d

/-- The at sign, which opens an address command. -/
@[match_pattern] abbrev atSign : UInt8 := 0x40

/-- The underscore, a symbol character. -/
@[match_pattern] abbrev underscore : UInt8 := 0x5f

/-- Decimal digits. -/
def isDigit (b : UInt8) : Bool := zero ≤ b && b ≤ nine

/-- The underscore alone. -/
def isUnderscore (b : UInt8) : Bool := b == underscore

/-- The letters of both cases. -/
def isLetter (b : UInt8) : Bool := (0x41 ≤ b && b ≤ 0x5a) || (0x61 ≤ b && b ≤ 0x7a)

/-- What a symbol may start with. -/
def isSymbolStart (b : UInt8) : Bool :=
  isLetter b || isUnderscore b || b == dot || b == dollar || b == colon

/-- What a symbol may go on with. -/
def isSymbolChar (b : UInt8) : Bool := isSymbolStart b || isDigit b

/-- The value of a decimal digit. -/
def digitValue (b : UInt8) : Nat := b.toNat - zero.toNat

/-- No digit starts a symbol, so a symbol and a constant differ in their first byte. -/
theorem isSymbolStart_eq_false_of_isDigit {b : UInt8} (h : isDigit b = true) :
    isSymbolStart b = false := by
  have cases : ∀ n : Fin 256, isDigit (.ofFin n) = true → isSymbolStart (.ofFin n) = false := by
    decide +kernel
  exact cases b.toFin h

end Byte

end HackAssembler
