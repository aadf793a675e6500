/-
# Reports

What a call prints: the diagnosis of a failure, the listing, the symbols and the help
text.
-/

import HackAssembler.Bytes
import HackAssembler.CommandLine.Options
import HackAssembler.Config
import HackAssembler.Failure
import HackAssembler.Listing
import HackAssembler.SymbolTable
import HackAssembler.Text.Decimal
import HackAssembler.Text.Quoted

namespace HackAssembler

namespace Report

/-- The report of a syntax error: its line number comes first. -/
def syntaxError (error : SyntaxError) : Bytes :=
  ascii "Syntax Error on line: " ++ Decimal.ofInt error.line ++ ascii ": " ++ error.message ++
    [Byte.lineFeed]

/-- The report of any other failure. -/
def failure (message : Bytes) : Bytes := ascii "Error: " ++ message ++ [Byte.lineFeed]

/-- The listing, one line for each entry. -/
def listing (entries : List ListingEntry) : Bytes :=
  entries.flatMap fun entry => entry.render ++ [Byte.lineFeed]

/-- A text between the codes that switch a color on and off. -/
def colored (code text : Bytes) : Bytes :=
  ascii "\x1b[" ++ code ++ ascii "m" ++ text ++ ascii "\x1b[0m"

/-- A text in a color and in bold. -/
def bold (code text : Bytes) : Bytes :=
  ascii "\x1b[" ++ code ++ ascii "m" ++ colored (ascii "1") text

/-- The colored name of the type of an entry. -/
def entryType : Bytes := ascii "internal." ++ colored (ascii "32") (ascii "SymbolEntry")

/-- A quotation mark of the symbol dump. -/
def quotationMark : Bytes := bold (ascii "31") (ascii "\"")

/-- The lines of one entry in the symbol dump. -/
def symbolBlock (entry : SymbolEntry) : Bytes :=
  ascii "  " ++ entryType ++ ascii "\x7b\n    " ++ colored (ascii "33") (ascii "Name") ++
    ascii ":  " ++ quotationMark ++ colored (ascii "31") entry.name ++ quotationMark ++
    ascii ",\n    " ++ colored (ascii "33") (ascii "Value") ++ ascii ": " ++
    bold (ascii "34") (Decimal.ofNat entry.value.toNat) ++ ascii ",\n  \x7d,\n"

/-- The most entries that a symbol dump shows; more are folded away. -/
def maxSymbolBlocks : Nat := 1024

/-- The symbol dump. -/
def symbols (entries : List SymbolEntry) : Bytes :=
  let body :=
    if entries.length ≤ maxSymbolBlocks then ascii "\n" ++ entries.flatMap symbolBlock
    else ascii "..."
  ascii "Symbols: []" ++ entryType ++ ascii "\x7b" ++ body ++ ascii "\x7d\n"

/-- The kind of value that an option takes, as the help text calls it. -/
def valueKind : Flag → Bytes
  | .output => ascii " string"
  | .maxLineLength => ascii " int"
  | .variableBase => ascii " uint16"
  | .verbose | .symbols | .help => []

/-- The value that an option has when it is not given, if the help text tells it. -/
def defaultValue : Flag → Bytes
  | .maxLineLength =>
    ascii " (default " ++ Decimal.ofInt Config.default.maxLineLength ++ ascii ")"
  | .variableBase =>
    ascii " (default " ++ Decimal.ofNat Config.default.variableBase.toNat ++ ascii ")"
  | .output | .verbose | .symbols | .help => []

/-- The column of the help text in which the purposes of the options start. -/
def purposeColumn : Nat := 31

/-- The line of an option in the help text. -/
def flagLine (flag : Flag) : Bytes :=
  let margin := match flag.letter? with
    | some letter => ascii "  -" ++ [letter] ++ ascii ", "
    | none => ascii "      "
  let form := margin ++ ascii "--" ++ flag.name ++ valueKind flag
  form.rightpad purposeColumn Byte.space ++ flag.purpose ++ defaultValue flag ++ [Byte.lineFeed]

/-- The part of the help text before the options. -/
def introduction : Bytes := ascii <| String.join [
  "Hackasm translates a program written in the hack assembly language into\n",
  "hack machine code, one line of 16 binary digits per instruction.\n",
  "\n",
  "The output file is only created when the whole program assembles; on the\n",
  "first syntax error nothing is written and the offending line is reported.\n",
  "\n",
  "Usage:\n",
  "  hackasm prog.asm [flags]\n",
  "\n",
  "Flags:\n"]

/-- The help text. -/
def help : Bytes := introduction ++ Flag.all.flatMap flagLine

end Report

end HackAssembler
