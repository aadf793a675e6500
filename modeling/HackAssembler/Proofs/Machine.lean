/-
# Computations on the machine

What a computation does, said twice. The machine reads the digits of a word as switches: six
of them set up the arithmetic unit, one chooses its second input, and the others say where its
output is stored and for which signs of it there is a jump. A text is read as an expression
over the registers, with the registers to store to before it and the condition of a jump
behind it. Neither reading knows of the other, nor of the tables that lead from a text to
its word.

The two agree on every computation that the assembler accepts, for all contents of the
registers.
-/

import Mathlib.Data.BitVec
import HackAssembler.Proofs.Mnemonics

namespace HackAssembler

/-! ## Words as switches -/

namespace Machine

/-- What a computation reads and stores to: the address register, the data register, and the
memory cell that the address register points to. -/
structure Registers where
  address : Word
  data : Word
  memory : Word
  deriving Repr, DecidableEq

/-- What a computation does: the value it computes, what the registers hold then, and whether
there is a jump. -/
structure Effect where
  value : Word
  registers : Registers
  jumps : Bool
  deriving Repr, DecidableEq

/-- The switches of the arithmetic unit. The first four clear and complement its two inputs,
the fifth chooses between their sum and their conjunction, and the last complements the
output. -/
structure Control where
  zx : Bool
  nx : Bool
  zy : Bool
  ny : Bool
  f : Bool
  no : Bool
  deriving Repr, DecidableEq

/-- An input behind its two switches. -/
def switched (clear complement : Bool) (input : Word) : Word :=
  let cleared := if clear then 0 else input
  if complement then ~~~cleared else cleared

/-- What the arithmetic unit makes of its inputs. -/
def Control.output (control : Control) (x y : Word) : Word :=
  let x := switched control.zx control.nx x
  let y := switched control.zy control.ny y
  let out := if control.f then x + y else x &&& y
  if control.no then ~~~out else out

/-- All switches of a computation. -/
structure Switches where
  fromMemory : Bool
  control : Control
  toAddress : Bool
  toData : Bool
  toMemory : Bool
  ifNegative : Bool
  ifZero : Bool
  ifPositive : Bool
  deriving Repr, DecidableEq

namespace Switches

/-- Whether a digit sets its switch. -/
def isSet (digit : UInt8) : Bool := digit == Byte.one

/-- The switches that the digits of a word set. A computation has three leading ones, and each
of its other digits has its own switch. -/
def ofWord? : Bytes → Option Switches
  | [Byte.one, Byte.one, Byte.one, a, zx, nx, zy, ny, f, no, d₁, d₂, d₃, j₁, j₂, j₃] =>
    some {
      fromMemory := isSet a
      control := ⟨isSet zx, isSet nx, isSet zy, isSet ny, isSet f, isSet no⟩
      toAddress := isSet d₁
      toData := isSet d₂
      toMemory := isSet d₃
      ifNegative := isSet j₁
      ifZero := isSet j₂
      ifPositive := isSet j₃ }
  | _ => none

/-- The value that is computed. -/
def value (switches : Switches) (registers : Registers) : Word :=
  switches.control.output registers.data
    (if switches.fromMemory then registers.memory else registers.address)

/-- The registers when a value is stored. -/
def store (switches : Switches) (value : Word) (registers : Registers) : Registers where
  address := if switches.toAddress then value else registers.address
  data := if switches.toData then value else registers.data
  memory := if switches.toMemory then value else registers.memory

/-- Whether there is a jump on a value, by its sign in two's complement. -/
def jumps (switches : Switches) (value : Word) : Bool :=
  (switches.ifNegative && decide (value.toInt < 0)) ||
    (switches.ifZero && decide (value.toInt = 0)) ||
    (switches.ifPositive && decide (0 < value.toInt))

end Switches

/-- What the machine does on a word, if that is a computation. -/
def execute? (word : Bytes) (registers : Registers) : Option Effect :=
  (Switches.ofWord? word).map fun switches =>
    let value := switches.value registers
    ⟨value, switches.store value registers, switches.jumps value⟩

end Machine

/-! ## Texts as expressions -/

namespace Meaning

open Machine

/-- What a letter stands for in an expression. -/
def letters (registers : Registers) : List (Bytes × Word) :=
  [(ascii "0", 0), (ascii "1", 1), (ascii "A", registers.address), (ascii "D", registers.data),
    (ascii "M", registers.memory)]

/-- The signs before a letter. -/
def signs : List (Bytes × (Word → Word)) := [(ascii "-", fun x => -x), (ascii "!", fun x => ~~~x)]

/-- The operators between two letters. -/
def operators : List (Bytes × (Word → Word → Word)) :=
  [(ascii "+", fun x y => x + y), (ascii "-", fun x y => x - y), (ascii "&", fun x y => x &&& y),
    (ascii "|", fun x y => x ||| y)]

/-- The value of an expression. -/
def value? (registers : Registers) : Bytes → Option Word
  | [x] => (letters registers).lookup [x]
  | [sign, x] => do
    let apply ← signs.lookup [sign]
    let x ← (letters registers).lookup [x]
    return apply x
  | [x, operator, y] => do
    let apply ← operators.lookup [operator]
    let x ← (letters registers).lookup [x]
    let y ← (letters registers).lookup [y]
    return apply x y
  | _ => none

/-- The registers when a value is stored to those that a destination names. -/
def store (dest : Bytes) (value : Word) (registers : Registers) : Registers where
  address := if ascii "A" ⊆ dest then value else registers.address
  data := if ascii "D" ⊆ dest then value else registers.data
  memory := if ascii "M" ⊆ dest then value else registers.memory

/-- The conditions of jumps by their names, for a value read in two's complement. -/
def conditions (value : Int) : List (Bytes × Bool) :=
  [(ascii "JGT", decide (0 < value)), (ascii "JEQ", decide (value = 0)),
    (ascii "JGE", decide (0 ≤ value)), (ascii "JLT", decide (value < 0)),
    (ascii "JNE", decide (value ≠ 0)), (ascii "JLE", decide (value ≤ 0)), (ascii "JMP", true)]

/-- What is done by fields that say it. Without a destination nothing is stored, and without
the name of a condition there is no jump. -/
def ofFields? (dest : Option Bytes) (comp : Bytes) (jump : Option Bytes)
    (registers : Registers) : Option Effect := do
  let value ← value? registers comp
  let jumps ← jump.elim (some false) fun jump => (conditions value.toInt).lookup jump
  return ⟨value, store (dest.getD []) value registers, jumps⟩

/-- What is done by a text that says it. -/
def ofText? (text : Bytes) (registers : Registers) : Option Effect :=
  match (text.splitOn Byte.semicolon).map (·.splitOn Byte.equals) with
  | [[dest, comp]] => ofFields? (some dest) comp none registers
  | [[comp], [jump]] => ofFields? none comp (some jump) registers
  | [[dest, comp], [jump]] => ofFields? (some dest) comp (some jump) registers
  | _ => none

end Meaning

/-! ## What is computed -/

namespace Comp

open Machine

/-- What a computation makes of the data register and a second operand. -/
def operation (x y : Word) : Comp → Word
  | .zero => 0
  | .one => 1
  | .minusOne => -1
  | .data => x
  | .notData => ~~~x
  | .negData => -x
  | .incData => x + 1
  | .decData => x - 1
  | .operand _ => y
  | .notOperand _ => ~~~y
  | .negOperand _ => -y
  | .incOperand _ => y + 1
  | .decOperand _ => y - 1
  | .dataPlus _ => x + y
  | .dataMinus _ => x - y
  | .minusData _ => y - x
  | .dataAnd _ => x &&& y
  | .dataOr _ => x ||| y

/-- The second operand of a computation. -/
def second (registers : Registers) (comp : Comp) : Word :=
  if comp.operandBit.getMsbD 0 then registers.memory else registers.address

/-- The value of a computation. -/
def value (registers : Registers) (comp : Comp) : Word :=
  comp.operation registers.data (comp.second registers)

/-- The mnemonic of a computation is an expression for its value. -/
theorem value?_mnemonic (registers : Registers) (comp : Comp) :
    Meaning.value? registers comp.mnemonic = some (comp.value registers) := by
  cases comp with
  | operand y | notOperand y | negOperand y | incOperand y | decOperand y
  | dataPlus y | dataMinus y | minusData y | dataAnd y | dataOr y => cases y <;> rfl
  | _ => rfl

/-- The switches of the arithmetic unit for a computation. -/
def control (comp : Comp) : Control :=
  let bits := comp.controlBits
  ⟨bits.getMsbD 0, bits.getMsbD 1, bits.getMsbD 2, bits.getMsbD 3, bits.getMsbD 4, bits.getMsbD 5⟩

/-- A complement is a difference, which makes what the unit adds up linear. -/
theorem not_eq_neg_sub_one (x : Word) : ~~~x = -x - 1 := BitVec.not_eq_neg_add x

theorem and_not_zero (x : Word) : x &&& ~~~0 = x := BitVec.and_allOnes

/-- The control bits of a computation set up the arithmetic unit for it. -/
theorem output_control (x y : Word) (comp : Comp) :
    comp.control.output x y = comp.operation x y := by
  -- with the bits in sight, each case can be restated as what the unit is set up to do
  cases comp <;> dsimp only [control, controlBits, operation]
  case zero => rfl
  case one =>
      show ~~~(~~~0 + ~~~0) = (1 : Word)
      decide
  case minusOne =>
      show ~~~0 + 0 = (-1 : Word)
      decide
  case data =>
      show x &&& ~~~0 = x
      rw [and_not_zero]
  case notData =>
      show ~~~(x &&& ~~~0) = ~~~x
      rw [and_not_zero]
  case operand =>
      show ~~~0 &&& y = y
      rw [BitVec.and_comm, and_not_zero]
  case notOperand =>
      show ~~~(~~~0 &&& y) = ~~~y
      rw [BitVec.and_comm, and_not_zero]
  case dataPlus | dataAnd => rfl
  case dataOr =>
      show ~~~(~~~x &&& ~~~y) = x ||| y
      rw [BitVec.not_and, BitVec.not_not, BitVec.not_not]
  case negData =>
      show ~~~(x + ~~~0) = -x
      simp only [not_eq_neg_sub_one]
      ring
  case incData =>
      show ~~~(~~~x + ~~~0) = x + 1
      simp only [not_eq_neg_sub_one]
      ring
  case decData =>
      show x + ~~~0 = x - 1
      simp only [not_eq_neg_sub_one]
      ring
  case negOperand =>
      show ~~~(~~~0 + y) = -y
      simp only [not_eq_neg_sub_one]
      ring
  case incOperand =>
      show ~~~(~~~0 + ~~~y) = y + 1
      simp only [not_eq_neg_sub_one]
      ring
  case decOperand =>
      show ~~~0 + y = y - 1
      simp only [not_eq_neg_sub_one]
      ring
  case dataMinus =>
      show ~~~(~~~x + y) = x - y
      simp only [not_eq_neg_sub_one]
      ring
  case minusData =>
      show ~~~(x + ~~~y) = y - x
      simp only [not_eq_neg_sub_one]
      ring

end Comp

namespace Jump

/-- The condition of a jump, for a value read in two's complement. -/
def holds (value : Int) : Jump → Bool
  | .never => false
  | .positive => decide (0 < value)
  | .zero => decide (value = 0)
  | .nonnegative => decide (0 ≤ value)
  | .negative => decide (value < 0)
  | .nonzero => decide (value ≠ 0)
  | .nonpositive => decide (value ≤ 0)
  | .always => true

theorem lookup_mnemonic {jump : Jump} (taken : jump ≠ .never) (value : Int) :
    (Meaning.conditions value).lookup jump.mnemonic = some (jump.holds value) := by
  cases jump with
  | never => exact absurd rfl taken
  | _ => rfl

end Jump

/-! ## What the machine makes of a word -/

namespace Machine

namespace Switches

variable {comp : Comp} {dest : Dest} {jump : Jump}

/-- The switches of a computation. -/
def ofCompute (comp : Comp) (dest : Dest) (jump : Jump) : Switches where
  fromMemory := comp.operandBit.getMsbD 0
  control := comp.control
  toAddress := dest.address
  toData := dest.data
  toMemory := dest.memory
  ifNegative := jump.bits.getMsbD 0
  ifZero := jump.bits.getMsbD 1
  ifPositive := jump.bits.getMsbD 2

theorem isSet_bitDigit (bit : Bool) : isSet (bitDigit bit) = bit := by
  cases bit <;> rfl

theorem binaryDigits_comp (comp : Comp) :
    binaryDigits comp.bits =
      bitDigit (comp.operandBit.getMsbD 0) :: binaryDigits comp.controlBits := by
  rw [Comp.bits, binaryDigits_append]
  rfl

theorem binaryDigits_dest (dest : Dest) :
    binaryDigits dest.bits = [bitDigit dest.address, bitDigit dest.data, bitDigit dest.memory] := by
  obtain ⟨address, data, memory⟩ := dest
  cases address <;> cases data <;> cases memory <;> decide

/-- The digits of a word set the switches of its computation. -/
theorem ofWord?_digits (comp : Comp) (dest : Dest) (jump : Jump) :
    ofWord? (Instruction.compute comp dest jump).digits = some (ofCompute comp dest jump) := by
  rw [Instruction.digits_compute, binaryDigits_comp, binaryDigits_dest]
  -- the sixteen digits stand there one by one now, and are matched
  show some _ = some _
  simp only [isSet_bitDigit]
  rfl

theorem value_ofCompute (registers : Registers) :
    (ofCompute comp dest jump).value registers = comp.value registers :=
  comp.output_control registers.data (comp.second registers)

/-- A value is stored to the registers that the mnemonic of the destination names. -/
theorem store_ofCompute (value : Word) (registers : Registers) :
    (ofCompute comp dest jump).store value registers =
      Meaning.store dest.mnemonic value registers := by
  obtain ⟨address, data, memory⟩ := dest
  cases address <;> cases data <;> cases memory <;> rfl

/-- There is a jump for just the signs that the bits of the jump select. -/
theorem jumps_ofCompute (value : Word) :
    (ofCompute comp dest jump).jumps value = jump.holds value.toInt := by
  rw [Bool.eq_iff_iff]
  cases jump <;> simp [jumps, ofCompute, Jump.bits, Jump.holds] <;> omega

end Switches

/-- What the machine does on the word of a computation. -/
theorem execute?_digits (comp : Comp) (dest : Dest) (jump : Jump) (registers : Registers) :
    execute? (Instruction.compute comp dest jump).digits registers =
      some ⟨comp.value registers, Meaning.store dest.mnemonic (comp.value registers) registers,
        jump.holds (comp.value registers).toInt⟩ := by
  simp only [execute?, Switches.ofWord?_digits, Option.map_some, Switches.value_ofCompute,
    Switches.store_ofCompute, Switches.jumps_ofCompute]

end Machine

/-! ## What a text says -/

namespace Meaning

open Machine

variable {comp : Comp} {dest : Dest} {jump : Jump}

theorem getD_field (dest : Dest) : dest.field.getD [] = dest.mnemonic := by
  obtain ⟨address, data, memory⟩ := dest
  cases address <;> cases data <;> cases memory <;> rfl

/-- The fields of a computation say what it does. -/
theorem ofFields?_compute (comp : Comp) (dest : Dest) (jump : Jump) (registers : Registers) :
    ofFields? dest.field comp.mnemonic jump.field registers =
      some ⟨comp.value registers, store dest.mnemonic (comp.value registers) registers,
        jump.holds (comp.value registers).toInt⟩ := by
  have condition : jump.field.elim (some false)
      (fun jump => (conditions (comp.value registers).toInt).lookup jump) =
        some (jump.holds (comp.value registers).toInt) := by
    by_cases never : jump = .never
    · rw [Jump.field, if_pos never, never]
      rfl
    · rw [Jump.field, if_neg never]
      exact Jump.lookup_mnemonic never _
  simp [ofFields?, comp.value?_mnemonic, condition, getD_field]

theorem splitOn_pair {separator : UInt8} {left right : Bytes} (noLeft : separator ∉ left)
    (noRight : separator ∉ right) :
    (left ++ [separator] ++ right).splitOn separator = [left, right] := by
  rw [List.append_assoc, List.singleton_append, List.splitOn_append_cons_self_of_not_mem noLeft,
    List.splitOn_eq_singleton noRight]

/-- The text of a computation is cut into its fields. -/
theorem ofText?_computeText (storesOrJumps : dest ≠ Dest.nowhere ∨ jump ≠ .never)
    (registers : Registers) :
    ofText? (Instruction.computeText comp dest jump) registers =
      ofFields? dest.field comp.mnemonic jump.field registers := by
  obtain ⟨compEquals, compSemicolon⟩ := comp.plain_mnemonic
  obtain ⟨destEquals, destSemicolon⟩ := dest.plain_mnemonic
  have jumpEquals := jump.equals_not_mem_mnemonic
  have jumpSemicolon : Byte.semicolon ∉ jump.mnemonic := by cases jump <;> decide
  have equals : ascii "=" = [Byte.equals] := by decide
  have semicolon : ascii ";" = [Byte.semicolon] := by decide
  have frontSemicolon : Byte.semicolon ∉ dest.mnemonic ++ [Byte.equals] ++ comp.mnemonic := by
    have differs : Byte.semicolon ≠ Byte.equals := by decide
    simp [destSemicolon, differs, compSemicolon]
  by_cases nowhere : dest = Dest.nowhere
  · have taken : jump ≠ .never := storesOrJumps.resolve_left (absurd nowhere)
    rw [nowhere, Instruction.computeText_jump taken, semicolon, ofText?,
      splitOn_pair compSemicolon jumpSemicolon, List.map_cons, List.map_cons,
      List.splitOn_eq_singleton compEquals, List.splitOn_eq_singleton jumpEquals,
      Jump.field, if_neg taken]
    rfl
  · by_cases never : jump = .never
    · rw [never, Instruction.computeText_store nowhere, equals, ofText?,
        List.splitOn_eq_singleton frontSemicolon, List.map_cons,
        splitOn_pair destEquals compEquals, Dest.field, if_neg nowhere]
      rfl
    · rw [Instruction.computeText_storeAndJump nowhere never, equals, semicolon, ofText?,
        splitOn_pair frontSemicolon jumpSemicolon, List.map_cons, List.map_cons,
        splitOn_pair destEquals compEquals, List.splitOn_eq_singleton jumpEquals, Dest.field,
        if_neg nowhere, Jump.field, if_neg never]
      rfl

end Meaning

namespace Statement

open Machine

/-- An accepted computation means what its text says. When the machine executes the word of
the line, it computes the value of the expression in the text, stores it to the registers
that the text names and to no others, and jumps under the condition that the text names, or
not at all if it names none. This is so for all contents of the registers. -/
theorem execute?_of_computes {line word : Bytes} (accepted : (ofLine line).Computes word)
    (registers : Registers) :
    ∃ effect, execute? word registers = some effect ∧
      Meaning.ofText? (ofLine line).command.text registers = some effect := by
  obtain ⟨text, trailer, instruction, read, encoded, rfl⟩ := accepted
  obtain ⟨-, comp, dest, jump, storesOrJumps, rfl, rfl⟩ :=
    Instruction.ofCompute_eq_ok_iff.1 encoded
  refine ⟨_, execute?_digits comp dest jump registers, ?_⟩
  rw [read, Command.text, Meaning.ofText?_computeText storesOrJumps,
    Meaning.ofFields?_compute]

/-- A difference that wraps around: what is taken from the lowest value comes out as the
highest one, so that there is no jump. -/
theorem execute?_of_computes_wrapped :
    ∃ (line word : Bytes) (registers : Registers),
      line = ascii " AMD = D - M; JLE // down\r\n" ∧ word = ascii "1111010011111110" ∧
      registers = ⟨5, 0x8000, 1⟩ ∧ (ofLine line).Computes word ∧
      execute? word registers = some ⟨0x7fff, ⟨0x7fff, 0x7fff, 0x7fff⟩, false⟩ ∧
      ∃ effect, execute? word registers = some effect ∧
        Meaning.ofText? (ofLine line).command.text registers = some effect := by
  have accepted : (ofLine (ascii " AMD = D - M; JLE // down\r\n")).Computes
      (ascii "1111010011111110") :=
    ⟨ascii "AMD=D-M;JLE", ascii "//down", .compute (.dataMinus .memory) ⟨true, true, true⟩
      .nonpositive, by decide +kernel, by rfl, by decide +kernel⟩
  exact ⟨_, _, ⟨5, 0x8000, 1⟩, rfl, rfl, rfl, accepted, by decide +kernel,
    execute?_of_computes accepted ⟨5, 0x8000, 1⟩⟩

end Statement

end HackAssembler
