/-
# Source lines

Cutting a source into lines and a line into its parts. Blanks never matter inside a
line, so a line is looked at only after they are dropped together with the line's
terminator. What is left runs up to the first slash, and what stands from there on
must be a comment.
-/

import HackAssembler.Bytes

namespace HackAssembler

namespace Line

/-- The bytes that end a line. -/
def isTerminator (b : UInt8) : Bool := b == Byte.lineFeed || b == Byte.carriageReturn

/-- The bytes that are dropped wherever they stand in a line. -/
def isBlank (b : UInt8) : Bool := b == Byte.space || b == Byte.tab

/-- A line without the run of terminator bytes at its end. -/
def dropTerminator (line : Bytes) : Bytes := (line.reverse.dropWhile isTerminator).reverse

/-- A line without its terminator and without blanks. -/
def strip (line : Bytes) : Bytes := (dropTerminator line).filter fun b => !isBlank b

/-- The lines of a source, each with the line feed that ends it; only the last line may
have none. -/
def split (source : Bytes) : List Bytes := source.splitBy fun b _ => b != Byte.lineFeed

/-- Whether a line has its line feed. -/
def isComplete (line : Bytes) : Bool := line.getLast? == some Byte.lineFeed

/-- The position where the meaningful part of a line ends. -/
def commentIndex (line : Bytes) : Nat := line.findIdx (· == Byte.slash)

/-- The meaningful part of a line: all before the first slash. -/
def meaning (line : Bytes) : Bytes := line.takeWhile (· != Byte.slash)

/-- What follows the meaningful part of a line. -/
def trailer (line : Bytes) : Bytes := line.dropWhile (· != Byte.slash)

/-- Whether a trailer is proper: empty, or a comment. -/
def isTail (trailer : Bytes) : Bool :=
  trailer.isEmpty || [Byte.slash, Byte.slash].isPrefixOf trailer

/-- Whether a symbol may go on with these bytes. -/
def isSymbolTail (text : Bytes) : Bool := text.all Byte.isSymbolChar

/-- Whether a text starts like a symbol, and not like a constant. -/
def isSymbolic : Bytes → Bool
  | [] => false
  | b :: _ => Byte.isSymbolStart b

/-- Whether a text is a symbol. -/
def isSymbol : Bytes → Bool
  | [] => false
  | b :: rest => Byte.isSymbolStart b && isSymbolTail rest

/-- The parts before and after the first separator; there is no second part without one. -/
def cutAt (separator : UInt8) (text : Bytes) : Bytes × Option Bytes :=
  (text.takeWhile (· != separator), (text.dropWhile (· != separator)).tail?)

/-- No blank is left in a stripped line. -/
theorem isBlank_of_mem_strip {line : Bytes} {b : UInt8} (h : b ∈ strip line) :
    isBlank b = false := by
  simpa using (List.mem_filter.1 h).2

/-- A line without its terminator ends in no terminator byte. -/
theorem isTerminator_getLast_dropTerminator {line : Bytes} {b : UInt8}
    (h : (dropTerminator line).getLast? = some b) : isTerminator b = false := by
  rw [dropTerminator, List.getLast?_reverse] at h
  have := List.head?_dropWhile_not isTerminator line.reverse
  rw [h] at this
  simpa using this

/-- The meaningful part and the trailer put together are the line. -/
theorem meaning_append_trailer (line : Bytes) : meaning line ++ trailer line = line :=
  List.takeWhile_append_dropWhile

end Line

end HackAssembler
