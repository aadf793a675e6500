/-
# Disassembly

Machine code is turned back into a source. A word with a leading zero is an address command
for its value, and any other one is a computation whose fields are found by their bits.
Nothing is left of symbols, labels and layout, but the source says the same: what an assembly
wrote can be disassembled, and the result is assembled to what it was disassembled from.
-/

import HackAssembler.Proofs.Lines
import HackAssembler.Proofs.Numerals
import HackAssembler.Proofs.Translation

namespace HackAssembler

namespace Instruction

/-- What has these digits as the bits of its field. -/
def findField? {α : Type} {n : Nat} (all : List α) (bits : α → BitVec n) (digits : Bytes) :
    Option α :=
  all.find? fun item => binaryDigits (bits item) == digits

/-- The computation with these digits behind its leading ones. -/
def ofFields? (fields : Bytes) : Option Instruction := do
  let comp ← findField? Comp.all Comp.bits (fields.take 7)
  let dest ← findField? (Dest.nowhere :: Dest.all) Dest.bits ((fields.drop 7).take 3)
  let jump ← findField? (Jump.never :: Jump.all) Jump.bits (fields.drop 10)
  return .compute comp dest jump

/-- The instruction with these digits. -/
def ofDigits? : Bytes → Option Instruction
  | Byte.zero :: value => (readBinary? 15 value).map .address
  | Byte.one :: Byte.one :: Byte.one :: fields => ofFields? fields
  | _ => none

/-- The source of an instruction. -/
def source : Instruction → Bytes
  | .address value => Byte.atSign :: Decimal.ofNat value.toNat
  | .compute comp dest jump => computeText comp dest jump

/-- Whether the source of an instruction is accepted: a computation has to store or to
jump. -/
def HasSource : Instruction → Prop
  | .address _ => True
  | .compute _ dest jump => dest ≠ Dest.nowhere ∨ jump ≠ .never

/-! ## Words -/

theorem findField?_comp (comp : Comp) :
    findField? Comp.all Comp.bits (binaryDigits comp.bits) = some comp := by
  cases comp with
  | operand y | notOperand y | negOperand y | incOperand y | decOperand y
  | dataPlus y | dataMinus y | minusData y | dataAnd y | dataOr y => cases y <;> decide
  | _ => decide

theorem findField?_dest (dest : Dest) :
    findField? (Dest.nowhere :: Dest.all) Dest.bits (binaryDigits dest.bits) = some dest := by
  obtain ⟨address, data, memory⟩ := dest
  cases address <;> cases data <;> cases memory <;> decide

theorem findField?_jump (jump : Jump) :
    findField? (Jump.never :: Jump.all) Jump.bits (binaryDigits jump.bits) = some jump := by
  cases jump <;> decide

theorem ofFields?_append (comp : Comp) (dest : Dest) (jump : Jump) :
    ofFields? (binaryDigits comp.bits ++ (binaryDigits dest.bits ++ binaryDigits jump.bits)) =
      some (.compute comp dest jump) := by
  have behindComp : (binaryDigits comp.bits ++
      (binaryDigits dest.bits ++ binaryDigits jump.bits)).drop 7 =
        binaryDigits dest.bits ++ binaryDigits jump.bits :=
    List.drop_left' (length_binaryDigits _)
  have behindDest : (binaryDigits comp.bits ++
      (binaryDigits dest.bits ++ binaryDigits jump.bits)).drop 10 = binaryDigits jump.bits := by
    rw [← List.append_assoc]
    exact List.drop_left' (by simp)
  rw [ofFields?, List.take_left' (length_binaryDigits _), behindComp,
    List.take_left' (length_binaryDigits _), behindDest, findField?_comp, findField?_dest,
    findField?_jump]
  rfl

/-- An instruction is read back from its digits. -/
theorem ofDigits?_digits (instruction : Instruction) :
    ofDigits? instruction.digits = some instruction := by
  cases instruction with
  | address value =>
      have read : ofDigits? (Byte.zero :: binaryDigits value) =
          (readBinary? 15 (binaryDigits value)).map .address := rfl
      rw [digits_address_eq_cons, read, readBinary?_binaryDigits, Option.map_some]
  | compute comp dest jump =>
      have leading : digits (.compute comp dest jump) = Byte.one :: Byte.one :: Byte.one ::
          (binaryDigits comp.bits ++ (binaryDigits dest.bits ++ binaryDigits jump.bits)) := by
        rw [digits_compute, List.append_assoc, List.append_assoc]
        rfl
      rw [leading]
      exact ofFields?_append comp dest jump

end Instruction

/-! ## Sources -/

/-- Whether a byte is read as it stands, wherever it stands in a line. -/
def Byte.isPlain (b : UInt8) : Bool :=
  !Line.isBlank b && !Line.isTerminator b && b != Byte.slash

section Plain

variable {content : Bytes} (plain : content.all Byte.isPlain = true)

include plain

theorem lineFeed_not_mem_of_plain : Byte.lineFeed ∉ content := fun member =>
  absurd (List.all_eq_true.1 plain _ member) (by decide)

theorem isTerminator_getLast_of_plain : ∀ b ∈ content.getLast?, Line.isTerminator b = false := by
  intro b last
  have plainLast := List.all_eq_true.1 plain b (List.mem_of_mem_getLast? last)
  simp only [Byte.isPlain, Bool.and_eq_true, Bool.not_eq_true'] at plainLast
  exact plainLast.1.2

theorem dropTerminator_of_plain :
    Line.dropTerminator (content ++ [Byte.lineFeed]) = content := by
  rw [Line.dropTerminator_append (List.forall_mem_singleton.2 rfl)]
  exact Line.dropTerminator_eq_self (isTerminator_getLast_of_plain plain)

theorem strip_of_plain : Line.strip (content ++ [Byte.lineFeed]) = content := by
  rw [Line.strip, dropTerminator_of_plain plain, List.filter_eq_self]
  intro b member
  have plainByte := List.all_eq_true.1 plain b member
  simp only [Byte.isPlain, Bool.and_eq_true] at plainByte
  exact plainByte.1.1

end Plain

/-- Plain lines are found again in their text. -/
theorem split_join_of_plain {α : Type} {content : α → Bytes}
    (plain : ∀ item, (content item).all Byte.isPlain = true) (items : List α) :
    Line.split (Line.join (items.map content)) =
      items.map fun item => content item ++ [Byte.lineFeed] := by
  have noFeed : ∀ line ∈ items.map content, Byte.lineFeed ∉ line := by
    intro line member
    obtain ⟨item, -, rfl⟩ := List.mem_map.1 member
    exact lineFeed_not_mem_of_plain (plain item)
  rw [Line.split_join noFeed, List.map_map]
  rfl

/-- A destination as it stands before a computation. -/
def Dest.text (dest : Dest) : Bytes :=
  if dest = Dest.nowhere then [] else dest.mnemonic ++ [Byte.equals]

/-- A jump as it stands behind a computation. -/
def Jump.text (jump : Jump) : Bytes :=
  if jump = .never then [] else Byte.semicolon :: jump.mnemonic

theorem Comp.mnemonic_shape (comp : Comp) :
    comp.mnemonic.head?.any Command.startsCompute = true ∧
      comp.mnemonic.all Byte.isPlain = true ∧ comp.mnemonic.length ≤ 3 := by
  cases comp with
  | operand y | notOperand y | negOperand y | incOperand y | decOperand y
  | dataPlus y | dataMinus y | minusData y | dataAnd y | dataOr y => cases y <;> decide
  | _ => decide

theorem Dest.text_shape (dest : Dest) :
    dest.text.head?.all Command.startsCompute = true ∧
      dest.text.all Byte.isPlain = true ∧ dest.text.length ≤ 4 := by
  obtain ⟨address, data, memory⟩ := dest
  cases address <;> cases data <;> cases memory <;> decide

theorem Jump.text_shape (jump : Jump) :
    jump.text.all Byte.isPlain = true ∧ jump.text.length ≤ 4 := by
  cases jump <;> decide

namespace Instruction

theorem computeText_eq (comp : Comp) (dest : Dest) (jump : Jump) :
    computeText comp dest jump = dest.text ++ comp.mnemonic ++ jump.text := by
  rw [computeText, Fields.text, Dest.field, Jump.field, Dest.text, Jump.text]
  by_cases nowhere : dest = Dest.nowhere <;> by_cases never : jump = .never <;>
    simp [nowhere, never]

/-- A computation starts like one. -/
theorem exists_computeText_eq_cons (comp : Comp) (dest : Dest) (jump : Jump) :
    ∃ b rest, computeText comp dest jump = b :: rest ∧ Command.startsCompute b = true := by
  have compStarts := comp.mnemonic_shape.1
  have destStarts := dest.text_shape.1
  rw [computeText_eq]
  cases destText : dest.text with
  | cons b rest =>
      rw [destText] at destStarts
      exact ⟨b, _, rfl, destStarts⟩
  | nil =>
      cases compText : comp.mnemonic with
      | nil =>
          rw [compText] at compStarts
          cases compStarts
      | cons b rest =>
          rw [compText] at compStarts
          exact ⟨b, _, rfl, compStarts⟩

/-- The source of an instruction is read as it stands. -/
theorem all_isPlain_source (instruction : Instruction) :
    instruction.source.all Byte.isPlain = true := by
  cases instruction with
  | address value =>
      have digits : ∀ n : Fin 256, Byte.isDigit (.ofFin n) = true →
          Byte.isPlain (.ofFin n) = true := by
        decide +kernel
      have numeral := List.all_eq_true.1 (Decimal.all_isDigit_ofNat value.toNat)
      have atSign : Byte.isPlain Byte.atSign = true := by decide
      rw [source, List.all_cons, atSign, Bool.true_and, List.all_eq_true]
      exact fun b member => digits b.toFin (numeral b member)
  | compute comp dest jump =>
      rw [source, computeText_eq, List.all_append, List.all_append, dest.text_shape.2.1,
        comp.mnemonic_shape.2.1, jump.text_shape.1]
      rfl

theorem length_source_le (instruction : Instruction) : instruction.source.length ≤ 11 := by
  cases instruction with
  | address value =>
      have numeral := Decimal.length_ofNat_le (by decide : 0 < 5)
        (Nat.lt_trans value.isLt (by decide : 2 ^ 15 < 10 ^ 5))
      rw [source, List.length_cons]
      omega
  | compute comp dest jump =>
      have destLength := dest.text_shape.2.2
      have compLength := comp.mnemonic_shape.2.2
      have jumpLength := jump.text_shape.2
      rw [source, computeText_eq, List.length_append, List.length_append]
      omega

theorem all_isPlain_digits (instruction : Instruction) :
    instruction.digits.all Byte.isPlain = true := by
  rw [List.all_eq_true]
  intro b member
  obtain rfl | rfl := isBit_of_mem_binaryDigits member
  · decide
  · decide

theorem ofStripped_source_address (value : BitVec 15) :
    Command.ofStripped (source (.address value)) =
      .address (Decimal.ofNat value.toNat) [] := by
  have digits := Decimal.all_isDigit_ofNat value.toNat
  have proper : Command.operandFault? (Decimal.ofNat value.toNat) = none := by
    cases numeral : Decimal.ofNat value.toNat with
    | nil => exact absurd numeral (Decimal.ofNat_ne_nil _)
    | cons b rest =>
        rw [numeral, List.all_cons, Bool.and_eq_true] at digits
        rw [Command.operandFault?, if_pos digits.1, if_pos digits.2]
  refine Command.ofStripped_eq_address_iff.2 ⟨?_, proper, rfl⟩
  rw [List.append_nil, source]

theorem ofStripped_source_compute (comp : Comp) (dest : Dest) (jump : Jump) :
    Command.ofStripped (source (.compute comp dest jump)) =
      .compute (computeText comp dest jump) [] := by
  have noSlash : Byte.slash ∉ computeText comp dest jump := fun member =>
    absurd (List.all_eq_true.1 (all_isPlain_source (.compute comp dest jump)) _ member)
      (by decide)
  obtain ⟨b, rest, text, starts⟩ := exists_computeText_eq_cons comp dest jump
  have whole := Line.meaning_eq_self noSlash
  have nothing := Line.trailer_eq_nil noSlash
  have other (mark : UInt8) (isMark : Command.startsCompute mark = false) : b ≠ mark := by
    rintro rfl
    rw [isMark] at starts
    cases starts
  rw [text] at whole nothing
  rw [source, text, Command.ofStripped_of_plain (other _ (by decide)) (other _ (by decide))
    (other _ (by decide)), if_pos starts, whole, nothing]

/-- The source of an instruction is encoded as that instruction, whatever symbols are
known. -/
theorem instruction?_source {instruction : Instruction} (accepted : instruction.HasSource)
    (table : SymbolTable) :
    (Command.ofStripped instruction.source).instruction? table = some (.ok instruction) := by
  cases instruction with
  | address value =>
      have constant : Line.isSymbolic (Decimal.ofNat value.toNat) = false :=
        Line.isSymbolic_eq_false_of_digits (Decimal.all_isDigit_ofNat _)
      have small : value.toNat ≤ maxAddress := Nat.le_of_lt_succ value.isLt
      rw [ofStripped_source_address, Command.instruction?, ofOperand, constant,
        Decimal.read?_ofNat small]
      simp
  | compute comp dest jump =>
      rw [ofStripped_source_compute, Command.instruction?,
        ofCompute_eq_ok_iff.2 ⟨rfl, comp, dest, jump, accepted, rfl, rfl⟩]

theorem reference?_source (instruction : Instruction) :
    (Command.ofStripped instruction.source).reference? = none := by
  cases instruction with
  | address value =>
      rw [ofStripped_source_address, Command.reference?,
        Line.isSymbolic_eq_false_of_digits (Decimal.all_isDigit_ofNat _)]
      rfl
  | compute comp dest jump =>
      rw [ofStripped_source_compute]
      rfl

end Instruction

/-! ## Programs -/

/-- The source of machine code, one instruction on a line. -/
def disassemble (output : Bytes) : Option Bytes :=
  ((Line.split output).mapM fun line =>
    (Instruction.ofDigits? (Line.dropTerminator line)).map Instruction.source).map Line.join

/-- The words of instructions are disassembled to their sources. -/
theorem disassemble_join_digits (instructions : List Instruction) :
    disassemble (Line.join (instructions.map Instruction.digits)) =
      some (Line.join (instructions.map Instruction.source)) := by
  have read : (instructions.map fun instruction => instruction.digits ++ [Byte.lineFeed]).mapM
      (fun line => (Instruction.ofDigits? (Line.dropTerminator line)).map Instruction.source) =
        some (instructions.map Instruction.source) := by
    induction instructions with
    | nil => rfl
    | cons instruction instructions ih =>
        rw [List.map_cons, List.mapM_cons, ih,
          dropTerminator_of_plain instruction.all_isPlain_digits, instruction.ofDigits?_digits]
        rfl
  rw [disassemble, split_join_of_plain Instruction.all_isPlain_digits, read, Option.map_some]

/-! ## Sources as lines -/

/-- The lines on which the sources of instructions stand. -/
def sourceLines (instructions : List Instruction) : List Bytes :=
  instructions.map fun instruction => instruction.source ++ [Byte.lineFeed]

theorem split_join_source (instructions : List Instruction) :
    Line.split (Line.join (instructions.map Instruction.source)) = sourceLines instructions :=
  split_join_of_plain Instruction.all_isPlain_source instructions

theorem ofLine_source (instruction : Instruction) :
    Command.ofLine (instruction.source ++ [Byte.lineFeed]) =
      Command.ofStripped instruction.source := by
  rw [Command.ofLine, Statement.ofLine, strip_of_plain instruction.all_isPlain_source]

/-- Sources of instructions refer to no symbol. -/
theorem references_sourceLines (instructions : List Instruction) :
    (Program.ofLines (sourceLines instructions)).references = [] := by
  rw [Program.references, Program.ofLines, sourceLines, List.map_map, List.filterMap_map,
    List.filterMap_eq_nil_iff]
  intro instruction _
  rw [Function.comp_apply, Function.comp_apply, ofLine_source, instruction.reference?_source]

section Accepted

variable {instructions : List Instruction}
  (accepted : ∀ instruction ∈ instructions, instruction.HasSource)

include accepted

/-- No source of an instruction is refused by a first pass, if short lines are allowed. -/
theorem collect_scanFault?_sourceLines {config : Config} (roomy : 11 ≤ config.maxLineLength) :
    collect (scanFault? config) [] (sourceLines instructions) = [] := by
  apply collect_eq_nil
  intro before line member
  obtain ⟨instruction, listed, rfl⟩ := List.mem_map.1 member
  have encoded := Instruction.instruction?_source (accepted instruction listed) SymbolTable.empty
  have length := instruction.length_source_le
  rw [scanFault?_eq_none_iff, dropTerminator_of_plain instruction.all_isPlain_source,
    ofLine_source]
  refine ⟨by omega, ?_, ?_⟩
  · intro reason read
    rw [read] at encoded
    cases encoded
  · intro name trailer read
    rw [read] at encoded
    cases encoded

theorem collect_encodingFault?_sourceLines (table : SymbolTable) :
    collect (encodingFault? table) [] (sourceLines instructions) = [] := by
  apply collect_eq_nil
  intro before line member
  obtain ⟨instruction, listed, rfl⟩ := List.mem_map.1 member
  rw [encodingFault?, ofLine_source,
    Instruction.instruction?_source (accepted instruction listed)]

/-- What is listed for the sources of instructions are their words. -/
theorem code_collect_listed?_sourceLines (table : SymbolTable) (before : List Bytes) :
    (collect (listed? table) before (sourceLines instructions)).map ListingEntry.code =
      instructions.map Instruction.digits := by
  induction instructions generalizing before with
  | nil => rfl
  | cons instruction instructions ih =>
      rw [List.forall_mem_cons] at accepted
      have encoded := Instruction.instruction?_source accepted.1 table
      rw [sourceLines, List.map_cons, ← sourceLines, collect, List.map_append, ih accepted.2,
        listed?, ofLine_source, encoded]
      rfl

end Accepted

/-! ## What an assembly wrote -/

/-- The word of a command is the word of an instruction that has a source. -/
theorem Command.HasWord.exists_instruction {resolve : Bytes → Nat} {command : Command}
    {word : Bytes} (hasWord : command.HasWord resolve word) :
    ∃ instruction : Instruction, instruction.HasSource ∧ instruction.digits = word := by
  cases hasWord with
  | constant _ small carries =>
      exact ⟨.address _, trivial, (Instruction.carries_address small).unique carries⟩
  | symbol _ small carries =>
      exact ⟨.address _, trivial, (Instruction.carries_address small).unique carries⟩
  | @compute text trailer comp dest jump storesOrJumps _ =>
      exact ⟨.compute comp dest jump, storesOrJumps, Instruction.digits_compute comp dest jump⟩

theorem exists_instructions_of_forall₂ {resolve : Bytes → Nat} {program : Program}
    {words : List Bytes} (related : List.Forall₂ (Command.HasWord resolve) program words) :
    ∃ instructions : List Instruction,
      (∀ instruction ∈ instructions, instruction.HasSource) ∧
      instructions.map Instruction.digits = words := by
  induction related with
  | nil => exact ⟨[], List.forall_mem_nil _, rfl⟩
  | cons head _ ih =>
      obtain ⟨instruction, accepted, rfl⟩ := head.exists_instruction
      obtain ⟨instructions, others, rfl⟩ := ih
      exact ⟨instruction :: instructions, List.forall_mem_cons.2 ⟨accepted, others⟩, rfl⟩

namespace Session

variable {instructions : List Instruction} {session : Session}

/-- Sources of instructions are assembled to the words of these, whatever symbols are
known. -/
theorem exists_assemble_sources (valid : session.config.validate = .ok ())
    (roomy : 11 ≤ session.config.maxLineLength)
    (accepted : ∀ instruction ∈ instructions, instruction.HasSource) :
    ∃ written final,
      assemble { content := Line.join (instructions.map Instruction.source) } {} false session =
        .ok written final ∧
      written.received.toList = Line.join (instructions.map Instruction.digits) := by
  let source : Source := { content := Line.join (instructions.map Instruction.source) }
  have lines : source.lines = sourceLines instructions := split_join_source instructions
  have clean : collect (scanFault? session.config) [] source.lines = [] := by
    rw [lines]
    exact collect_scanFault?_sourceLines accepted roomy
  have fits : ((Program.ofLines source.lines).variableNames session.table).length ≤
      session.room := by
    rw [lines, Program.variableNames, references_sourceLines]
    exact Nat.zero_le _
  have passed : firstPass source false session = .ok () (session.linked source.lines) :=
    firstPass_eq_ok_iff.2 ⟨rfl, rfl, clean, fits, rfl⟩
  rw [assemble_of_firstPass valid rfl passed]
  rcases secondPass_cases rfl (ready_linked clean fits) (rfl : ({} : Sink).limit = none) with
    ⟨-, written, done, received⟩ | ⟨failure, more, _, _, _, faults, -⟩
  · refine ⟨written, _, done, ?_⟩
    have codes := code_collect_listed?_sourceLines accepted (session.linked source.lines).table []
    rw [received, lines, outputOf, ← codes, Line.join, List.flatMap_map, lines]
    rfl
  · rw [lines, collect_encodingFault?_sourceLines accepted] at faults
    cases faults

/-- What an assembly wrote are the words of instructions that have a source. -/
theorem exists_instructions_of_assemble {source : Source} {final : Session} {written : Sink}
    {canceled : Bool} (done : assemble source {} canceled session = .ok written final) :
    ∃ instructions : List Instruction,
      (∀ instruction ∈ instructions, instruction.HasSource) ∧
      written.received.toList = Line.join (instructions.map Instruction.digits) := by
  obtain ⟨middle, passed, done⟩ := exists_passes_of_assemble done
  obtain ⟨words, related, received⟩ :=
    exists_words_of_passes (rfl : ({} : Sink).limit = none) passed done
  obtain ⟨instructions, accepted, rfl⟩ := exists_instructions_of_forall₂ related
  exact ⟨instructions, accepted, received⟩

/-- What an assembly wrote can be disassembled, and a new session assembles the result to
the same output. -/
theorem assemble_disassemble {source : Source} {session final : Session} {written : Sink}
    {canceled : Bool} (done : assemble source {} canceled session = .ok written final) :
    ∃ program, disassemble written.received.toList = some program ∧
      ∃ rewritten refinal,
        assemble { content := program } {} false (new .default) = .ok rewritten refinal ∧
        rewritten.received.toList = written.received.toList := by
  obtain ⟨instructions, accepted, output⟩ := exists_instructions_of_assemble done
  have valid : (new .default).config.validate = .ok () := rfl
  have roomy : 11 ≤ (new .default).config.maxLineLength := by decide
  rw [output]
  exact ⟨_, disassemble_join_digits instructions, exists_assemble_sources valid roomy accepted⟩

/-- A forward reference, a variable and computations with and without a destination. -/
theorem assemble_disassemble_loop :
    ∃ written final,
      assemble { content := ascii "@END\n@i\nAMD=!M // flip\n(END)\n0;JMP" } {} false
        (new .default) = .ok written final ∧
      ∃ program, disassemble written.received.toList = some program ∧
        ∃ rewritten refinal,
          assemble { content := program } {} false (new .default) = .ok rewritten refinal ∧
          rewritten.received.toList = written.received.toList := by
  have succeeds : failure? (assemble
      { content := ascii "@END\n@i\nAMD=!M // flip\n(END)\n0;JMP" } {} false) (new .default) =
        none := by
    decide +kernel
  obtain ⟨written, done⟩ := exists_ok_of_failure?_eq_none succeeds
  exact ⟨written, _, done, assemble_disassemble done⟩

end Session

end HackAssembler
