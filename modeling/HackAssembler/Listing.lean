/-
# Listings

One entry for each emitted instruction: its address, its digits, and the line it came
from.
-/

import HackAssembler.Bytes
import HackAssembler.Text.Decimal

namespace HackAssembler

/-- An emitted instruction. -/
structure ListingEntry where
  /-- The address of the instruction. -/
  address : Int
  /-- The number of its source line. -/
  line : Int
  /-- The stripped source line. -/
  source : Bytes
  /-- The digits of its word. -/
  code : Bytes
  deriving Repr, DecidableEq

/-- An entry as text. Addresses stand right-aligned in a column of five. -/
def ListingEntry.render (entry : ListingEntry) : Bytes :=
  Decimal.padLeft 5 (Decimal.ofInt entry.address) ++ ascii "  " ++ entry.code ++
    ascii "  // line " ++ Decimal.ofInt entry.line ++ ascii ": " ++ entry.source

/-- The output that a listing describes: the digits of each entry, each on its own line. -/
def outputOf (entries : List ListingEntry) : Bytes :=
  entries.flatMap fun entry => entry.code ++ [Byte.lineFeed]

end HackAssembler
