/-
# Commands

What a source line says. An address command loads a constant or a symbol's value, a
label names the address of the next instruction, a computation is recognised by its
first byte alone, and its fields are left to the encoder. A line that is none of these
is malformed, with the first reason found from left to right.
-/

import HackAssembler.Bytes
import HackAssembler.Line
import HackAssembler.Text.Decimal
import HackAssembler.Text.Quoted

namespace HackAssembler

/-- Why a line is no command. -/
inductive Malformed
  | comment
  | missingAddress
  | decimal
  | symbol
  | unclosedLabel
  | label
  | afterLabel
  | character (b : UInt8)
  deriving Repr, DecidableEq

/-- The wording of a reason. -/
def Malformed.message : Malformed → Bytes
  | .comment => ascii "comment format not correct"
  | .missingAddress => ascii "missing address after @"
  | .decimal => ascii "wrong decimal value format"
  | .symbol => ascii "wrong variable or label format"
  | .unclosedLabel => ascii "wrong label format: missing ')'"
  | .label => ascii "wrong label format"
  | .afterLabel => ascii "unexpected characters after label"
  | .character b => ascii "unexpected character " ++ Quoted.ofByte b

/-- What a line says. The trailer is what follows the command on its line. -/
inductive Command
  | skip
  | address (operand trailer : Bytes)
  | compute (text trailer : Bytes)
  | label (name trailer : Bytes)
  | malformed (reason : Malformed)
  deriving Repr, DecidableEq

namespace Command

/-- What is wrong with the operand of an address command, if anything: it has to be a
string of digits or a symbol. -/
def operandFault? : Bytes → Option Malformed
  | [] => some .missingAddress
  | b :: rest =>
    if Byte.isDigit b then
      if rest.all Byte.isDigit then none else some .decimal
    else if Line.isSymbol (b :: rest) then none
    else some .symbol

/-- The command behind an at sign. -/
def ofAddress (body : Bytes) : Command :=
  match operandFault? (Line.meaning body) with
  | some reason => .malformed reason
  | none =>
    if Line.isTail (Line.trailer body) then .address (Line.meaning body) (Line.trailer body)
    else .malformed .comment

/-- The command behind an opening parenthesis. The closing one has to stand before any
slash. -/
def ofLabel (body : Bytes) : Command :=
  match Line.cutAt Byte.closeParen body with
  | (name, some rest) =>
    if name.contains Byte.slash then .malformed .unclosedLabel
    else if !Line.isSymbol name then .malformed .label
    else if !Line.isTail rest then .malformed .afterLabel
    else .label name rest
  | (_, none) => .malformed .unclosedLabel

/-- The bytes that a computation can start with. -/
def startsCompute (b : UInt8) : Bool := (ascii "DAM01-!").contains b

/-- The command of a stripped line. -/
def ofStripped : Bytes → Command
  | [] => .skip
  | Byte.slash :: rest => if Line.isTail (Byte.slash :: rest) then .skip else .malformed .comment
  | Byte.atSign :: body => ofAddress body
  | Byte.openParen :: body => ofLabel body
  | b :: rest =>
    if startsCompute b then .compute (Line.meaning (b :: rest)) (Line.trailer (b :: rest))
    else .malformed (.character b)

/-- Whether the command becomes an instruction. -/
def emits : Command → Bool
  | .address .. | .compute .. => true
  | .skip | .label .. | .malformed _ => false

/-- The operand, name or text of a command; empty for one that has none. -/
def text : Command → Bytes
  | .address text _ | .compute text _ | .label text _ => text
  | .skip | .malformed _ => []

/-- What follows the text of a command; empty for one that has no text. -/
def trailer : Command → Bytes
  | .address _ trailer | .compute _ trailer | .label _ trailer => trailer
  | .skip | .malformed _ => []

/-- The reason of a malformed line; empty for any other. -/
def reason : Command → Bytes
  | .malformed reason => reason.message
  | _ => []

/-- The kinds of command, with one for the end of the source. -/
inductive Kind
  | skip
  | address
  | compute
  | label
  | malformed
  | endOfInput
  deriving Repr, DecidableEq

namespace Kind

/-- All kinds, in the order of their codes. -/
def all : List Kind := [.skip, .address, .compute, .label, .malformed, .endOfInput]

/-- The name of a kind. -/
def name : Kind → Bytes
  | .skip => ascii "Skip"
  | .address => ascii "ACommand"
  | .compute => ascii "CCommand"
  | .label => ascii "LCommand"
  | .malformed => ascii "InvalidCommand"
  | .endOfInput => ascii "EndOfInput"

/-- The kind with a code, counted from zero. -/
def ofCode? : Int → Option Kind
  | .ofNat code => all[code]?
  | .negSucc _ => none

/-- The name that a code is shown by; a code without a kind is shown as a number. -/
def nameOfCode (code : Int) : Bytes :=
  match ofCode? code with
  | some kind => kind.name
  | none => ascii "CommandType(" ++ Decimal.ofInt code ++ ascii ")"

end Kind

/-- The kind of a command. -/
def kind : Command → Kind
  | .skip => .skip
  | .address .. => .address
  | .compute .. => .compute
  | .label .. => .label
  | .malformed _ => .malformed

/-- One line about a command: its kind, its text, its line number and the stripped line. -/
def describe (kindName text : Bytes) (line : Int) (content : Bytes) : Bytes :=
  ascii "Command: \x7bTp: " ++ kindName ++ ascii ", Text: " ++ text ++ ascii ", Line: " ++
    Decimal.ofInt line ++ ascii ", OriginalContent: " ++ content ++ ascii "\x7d"

end Command

/-- A source line, read: its bytes without blanks and terminator, and what they say. -/
structure Statement where
  content : Bytes
  command : Command
  deriving Repr, DecidableEq

namespace Statement

/-- Read a source line, with or without its terminator. -/
def ofLine (line : Bytes) : Statement := ⟨Line.strip line, Command.ofStripped (Line.strip line)⟩

/-- One line about a statement. -/
def describe (statement : Statement) (line : Int) : Bytes :=
  Command.describe statement.command.kind.name statement.command.text line statement.content

end Statement

end HackAssembler
