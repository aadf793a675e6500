/-
# Instructions

The two kinds of instruction and their words. An address instruction is a zero bit and
fifteen bits of value. A computation is three one bits, then seven bits that choose
what is computed, three that choose where it is stored and three that choose when to
jump. Each field has a mnemonic, and each mnemonic is read by looking it up among all
values of its field.
-/

import HackAssembler.Bytes
import HackAssembler.Word

namespace HackAssembler

/-- The second operand of the arithmetic unit: the address register, or the memory cell
that it points to. -/
inductive Operand
  | address
  | memory
  deriving Repr, DecidableEq

namespace Operand

/-- Both operands. -/
def all : List Operand := [.address, .memory]

/-- The letter of the operand in a computation. -/
def mnemonic : Operand → Bytes
  | .address => ascii "A"
  | .memory => ascii "M"

/-- The selecting bit of the operand. -/
def bit : Operand → BitVec 1
  | .address => 0
  | .memory => 1

end Operand

/-- What a computation computes, from the data register `D` and the second operand. -/
inductive Comp
  | zero
  | one
  | minusOne
  | data
  | notData
  | negData
  | incData
  | decData
  | operand (y : Operand)
  | notOperand (y : Operand)
  | negOperand (y : Operand)
  | incOperand (y : Operand)
  | decOperand (y : Operand)
  | dataPlus (y : Operand)
  | dataMinus (y : Operand)
  | minusData (y : Operand)
  | dataAnd (y : Operand)
  | dataOr (y : Operand)
  deriving Repr, DecidableEq

namespace Comp

/-- All twenty-eight computations. -/
def all : List Comp :=
  [.zero, .one, .minusOne, .data, .notData, .negData, .incData, .decData] ++
    Operand.all.flatMap fun y =>
      [.operand y, .notOperand y, .negOperand y, .incOperand y, .decOperand y,
        .dataPlus y, .dataMinus y, .minusData y, .dataAnd y, .dataOr y]

/-- The text of a computation. -/
def mnemonic : Comp → Bytes
  | .zero => ascii "0"
  | .one => ascii "1"
  | .minusOne => ascii "-1"
  | .data => ascii "D"
  | .notData => ascii "!D"
  | .negData => ascii "-D"
  | .incData => ascii "D+1"
  | .decData => ascii "D-1"
  | .operand y => y.mnemonic
  | .notOperand y => ascii "!" ++ y.mnemonic
  | .negOperand y => ascii "-" ++ y.mnemonic
  | .incOperand y => y.mnemonic ++ ascii "+1"
  | .decOperand y => y.mnemonic ++ ascii "-1"
  | .dataPlus y => ascii "D+" ++ y.mnemonic
  | .dataMinus y => ascii "D-" ++ y.mnemonic
  | .minusData y => y.mnemonic ++ ascii "-D"
  | .dataAnd y => ascii "D&" ++ y.mnemonic
  | .dataOr y => ascii "D|" ++ y.mnemonic

/-- The bit that selects the second operand; a computation that reads none has it clear. -/
def operandBit : Comp → BitVec 1
  | .zero | .one | .minusOne | .data | .notData | .negData | .incData | .decData => 0
  | .operand y | .notOperand y | .negOperand y | .incOperand y | .decOperand y
  | .dataPlus y | .dataMinus y | .minusData y | .dataAnd y | .dataOr y => y.bit

/-- The six control bits of the arithmetic unit. -/
def controlBits : Comp → BitVec 6
  | .zero => 0b101010
  | .one => 0b111111
  | .minusOne => 0b111010
  | .data => 0b001100
  | .notData => 0b001101
  | .negData => 0b001111
  | .incData => 0b011111
  | .decData => 0b001110
  | .operand _ => 0b110000
  | .notOperand _ => 0b110001
  | .negOperand _ => 0b110011
  | .incOperand _ => 0b110111
  | .decOperand _ => 0b110010
  | .dataPlus _ => 0b000010
  | .dataMinus _ => 0b010011
  | .minusData _ => 0b000111
  | .dataAnd _ => 0b000000
  | .dataOr _ => 0b010101

/-- The computation field of a word. -/
def bits (comp : Comp) : BitVec 7 := comp.operandBit ++ comp.controlBits

/-- Read the mnemonic of a computation. -/
def ofMnemonic? (text : Bytes) : Option Comp := all.find? (·.mnemonic == text)

/-- Every computation is read back from its mnemonic, so no two share one. -/
@[simp]
theorem ofMnemonic?_mnemonic (comp : Comp) : ofMnemonic? comp.mnemonic = some comp := by
  cases comp with
  | operand y | notOperand y | negOperand y | incOperand y | decOperand y
  | dataPlus y | dataMinus y | minusData y | dataAnd y | dataOr y => cases y <;> decide
  | _ => decide

/-- Nothing but the mnemonic of a computation is read as that computation. -/
theorem ofMnemonic?_eq_some_iff {text : Bytes} {comp : Comp} :
    ofMnemonic? text = some comp ↔ text = comp.mnemonic := by
  constructor
  · intro h
    have found : comp.mnemonic = text := by simpa using List.find?_some h
    exact found.symm
  · rintro rfl
    exact ofMnemonic?_mnemonic comp

end Comp

/-- Where a computation is stored. -/
structure Dest where
  address : Bool
  data : Bool
  memory : Bool
  deriving Repr, DecidableEq

namespace Dest

/-- No register at all. -/
def nowhere : Dest := ⟨false, false, false⟩

/-- The seven destinations that have a mnemonic. -/
def all : List Dest :=
  [⟨false, false, true⟩, ⟨false, true, false⟩, ⟨false, true, true⟩, ⟨true, false, false⟩,
    ⟨true, false, true⟩, ⟨true, true, false⟩, ⟨true, true, true⟩]

/-- The letters of the registers that are stored to, in the order `A`, `M`, `D`. -/
def mnemonic (dest : Dest) : Bytes :=
  (if dest.address then ascii "A" else []) ++ (if dest.memory then ascii "M" else []) ++
    (if dest.data then ascii "D" else [])

/-- The destination field of a word. -/
def bits (dest : Dest) : BitVec 3 :=
  BitVec.ofBool dest.address ++ BitVec.ofBool dest.data ++ BitVec.ofBool dest.memory

/-- Read the mnemonic of a destination. -/
def ofMnemonic? (text : Bytes) : Option Dest := all.find? (·.mnemonic == text)

/-- Only the empty destination has no mnemonic. -/
theorem mem_all_iff (dest : Dest) : dest ∈ all ↔ dest ≠ nowhere := by
  obtain ⟨address, data, memory⟩ := dest
  cases address <;> cases data <;> cases memory <;> decide

/-- A text is read as a destination exactly if it is the mnemonic of one that stores
anywhere. -/
theorem ofMnemonic?_eq_some_iff {text : Bytes} {dest : Dest} :
    ofMnemonic? text = some dest ↔ dest ≠ nowhere ∧ text = dest.mnemonic := by
  constructor
  · intro h
    have found : dest.mnemonic = text := by simpa using List.find?_some h
    exact ⟨(mem_all_iff dest).1 (List.mem_of_find?_eq_some h), found.symm⟩
  · rintro ⟨stores, rfl⟩
    obtain ⟨address, data, memory⟩ := dest
    revert stores
    cases address <;> cases data <;> cases memory <;> decide

end Dest

/-- When a computation jumps, by the sign of what it computes. -/
inductive Jump
  | never
  | positive
  | zero
  | nonnegative
  | negative
  | nonzero
  | nonpositive
  | always
  deriving Repr, DecidableEq

namespace Jump

/-- The seven jumps that have a mnemonic. -/
def all : List Jump :=
  [.positive, .zero, .nonnegative, .negative, .nonzero, .nonpositive, .always]

/-- The text of a jump. -/
def mnemonic : Jump → Bytes
  | .never => []
  | .positive => ascii "JGT"
  | .zero => ascii "JEQ"
  | .nonnegative => ascii "JGE"
  | .negative => ascii "JLT"
  | .nonzero => ascii "JNE"
  | .nonpositive => ascii "JLE"
  | .always => ascii "JMP"

/-- The jump field of a word. -/
def bits : Jump → BitVec 3
  | .never => 0b000
  | .positive => 0b001
  | .zero => 0b010
  | .nonnegative => 0b011
  | .negative => 0b100
  | .nonzero => 0b101
  | .nonpositive => 0b110
  | .always => 0b111

/-- Read the mnemonic of a jump. -/
def ofMnemonic? (text : Bytes) : Option Jump := all.find? (·.mnemonic == text)

/-- Only the jump that is never taken has no mnemonic. -/
theorem mem_all_iff (jump : Jump) : jump ∈ all ↔ jump ≠ never := by
  cases jump <;> decide

/-- A text is read as a jump exactly if it is the mnemonic of one that can be taken. -/
theorem ofMnemonic?_eq_some_iff {text : Bytes} {jump : Jump} :
    ofMnemonic? text = some jump ↔ jump ≠ never ∧ text = jump.mnemonic := by
  constructor
  · intro h
    have found : jump.mnemonic = text := by simpa using List.find?_some h
    exact ⟨(mem_all_iff jump).1 (List.mem_of_find?_eq_some h), found.symm⟩
  · rintro ⟨taken, rfl⟩
    revert taken
    cases jump <;> decide

end Jump

/-- A machine instruction. -/
inductive Instruction
  | address (value : BitVec 15)
  | compute (comp : Comp) (dest : Dest) (jump : Jump)
  deriving Repr, DecidableEq

namespace Instruction

/-- The word of an instruction. -/
def toWord : Instruction → Word
  | .address value => 0#1 ++ value
  | .compute comp dest jump => 0b111#3 ++ comp.bits ++ dest.bits ++ jump.bits

/-- The sixteen digits of an instruction. -/
def digits (instruction : Instruction) : Bytes := binaryDigits instruction.toWord

end Instruction

end HackAssembler
