/-
# Encoding commands

From the text of a command to its instruction. A symbol is looked up in a table and a
constant is read in decimal, and either has to fit the fifteen bits of an address. The
text of a computation is cut into its destination, computation and jump fields, which
are then read from left to right.
-/

import HackAssembler.Bytes
import HackAssembler.Command
import HackAssembler.Instruction
import HackAssembler.Line
import HackAssembler.SymbolTable
import HackAssembler.Text.Decimal
import HackAssembler.Word

namespace HackAssembler

/-- Why a command has no instruction. -/
inductive EncodingError
  | unknownSymbol (unknown : UnknownSymbol)
  | symbolOutOfRange (name : Bytes) (value : Word)
  | constantOutOfRange (text : Bytes)
  | comment
  | noField (text : Bytes)
  | fieldOrder (text : Bytes)
  | dest (field : Bytes)
  | comp (text : Bytes)
  | jump (field : Bytes)
  deriving Repr, DecidableEq

/-- The addresses that an instruction can carry, as text. -/
def addressRange : Bytes := ascii "0.." ++ Decimal.ofNat maxAddress

/-- The wording of an error. -/
def EncodingError.message : EncodingError → Bytes
  | .unknownSymbol unknown => unknown.message
  | .symbolOutOfRange name value =>
    ascii "symbol " ++ name ++ ascii " value " ++ Decimal.ofNat value.toNat ++
      ascii " out of range " ++ addressRange
  | .constantOutOfRange text => ascii "constant " ++ text ++ ascii " out of range " ++ addressRange
  | .comment => ascii "comment format not correct"
  | .noField text => ascii "c command " ++ text ++ ascii " needs a dest or a jump"
  | .fieldOrder text => ascii "wrong c command format near " ++ text
  | .dest field => ascii "wrong c command of dest code format near " ++ field
  | .comp text => ascii "wrong c command of comp code format near " ++ text
  | .jump field => ascii "wrong c command of jump code format near " ++ field

/-- The fields of a computation. -/
structure Fields where
  dest : Option Bytes
  comp : Bytes
  jump : Option Bytes
  deriving Repr, DecidableEq

namespace Fields

/-- Cut the text of a computation at its first semicolon, and the part before that at its
first equals sign. At least one of the two has to be there, and an equals sign may not
stand only behind the semicolon. -/
def ofText (text : Bytes) : Except EncodingError Fields :=
  match Line.cutAt Byte.semicolon text with
  | (left, jump) =>
    match Line.cutAt Byte.equals left, jump with
    | (dest, some comp), jump => .ok ⟨some dest, comp, jump⟩
    | (comp, none), some jump =>
      if jump.contains Byte.equals then .error (.fieldOrder text) else .ok ⟨none, comp, some jump⟩
    | (_, none), none => .error (.noField text)

end Fields

/-- Read a destination field; without one nothing is stored. -/
def Dest.ofField : Option Bytes → Except EncodingError Dest
  | none => .ok Dest.nowhere
  | some field =>
    match Dest.ofMnemonic? field with
    | some dest => .ok dest
    | none => .error (.dest field)

/-- Read a jump field; without one there is no jump. -/
def Jump.ofField : Option Bytes → Except EncodingError Jump
  | none => .ok .never
  | some field =>
    match Jump.ofMnemonic? field with
    | some jump => .ok jump
    | none => .error (.jump field)

namespace Instruction

/-- The instruction of an address command. -/
def ofOperand (table : SymbolTable) (operand : Bytes) : Except EncodingError Instruction :=
  if Line.isSymbolic operand then
    match table.lookup operand with
    | .error unknown => .error (.unknownSymbol unknown)
    | .ok value =>
      if value.toNat ≤ maxAddress then .ok (.address (value.setWidth 15))
      else .error (.symbolOutOfRange operand value)
  else
    match Decimal.read? maxAddress operand with
    | some value => .ok (.address (BitVec.ofNat 15 value))
    | none => .error (.constantOutOfRange operand)

/-- The instruction of a computation. -/
def ofCompute (text trailer : Bytes) : Except EncodingError Instruction := do
  if !Line.isTail trailer then throw .comment
  let fields ← Fields.ofText text
  let dest ← Dest.ofField fields.dest
  let comp ← (Comp.ofMnemonic? fields.comp).elim (throw (.comp text)) pure
  let jump ← Jump.ofField fields.jump
  return .compute comp dest jump

end Instruction

/-- The instruction of a command, for those that have one. -/
def Command.instruction? (table : SymbolTable) :
    Command → Option (Except EncodingError Instruction)
  | .address operand _ => some (Instruction.ofOperand table operand)
  | .compute text trailer => some (Instruction.ofCompute text trailer)
  | .skip | .label .. | .malformed _ => none

end HackAssembler
