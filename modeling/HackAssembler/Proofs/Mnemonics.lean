/-
# Computations and their words

The fields of a computation, written out in tables: each mnemonic with the digits that stand
for it. A line is accepted as a computation exactly if it is put together from these
mnemonics in one of three forms, with at most a comment behind it, and its word is put
together from the digits beside them. That the first byte of the line was enough to take it
for a computation, and that its fields were cut out at the first separators, is a part of
this.

The tables can be read backwards as well. A word determines the text of its computation, down
to the last byte, and it is not the word of any address.
-/

import HackAssembler.Proofs.Disassembly
import HackAssembler.Proofs.Grammar
import HackAssembler.Proofs.Provenance

namespace HackAssembler

namespace Grammar

/-- The rows of a table as bytes. -/
def codes (rows : List (String × String)) : List (Bytes × Bytes) :=
  rows.map fun row => (ascii row.1, ascii row.2)

/-- What can be computed. The first digit is set if the second operand is read from the
memory. -/
def compCodes : List (Bytes × Bytes) := codes [
  ("0", "0101010"), ("1", "0111111"), ("-1", "0111010"), ("D", "0001100"),
  ("!D", "0001101"), ("-D", "0001111"), ("D+1", "0011111"), ("D-1", "0001110"),
  ("A", "0110000"), ("!A", "0110001"), ("-A", "0110011"), ("A+1", "0110111"),
  ("A-1", "0110010"), ("D+A", "0000010"), ("D-A", "0010011"), ("A-D", "0000111"),
  ("D&A", "0000000"), ("D|A", "0010101"),
  ("M", "1110000"), ("!M", "1110001"), ("-M", "1110011"), ("M+1", "1110111"),
  ("M-1", "1110010"), ("D+M", "1000010"), ("D-M", "1010011"), ("M-D", "1000111"),
  ("D&M", "1000000"), ("D|M", "1010101")]

/-- Where the result can be stored. -/
def destCodes : List (Bytes × Bytes) := codes [
  ("M", "001"), ("D", "010"), ("MD", "011"), ("A", "100"), ("AM", "101"), ("AD", "110"),
  ("AMD", "111")]

/-- When there can be a jump. -/
def jumpCodes : List (Bytes × Bytes) := codes [
  ("JGT", "001"), ("JEQ", "010"), ("JGE", "011"), ("JLT", "100"), ("JNE", "101"),
  ("JLE", "110"), ("JMP", "111")]

/-- The text of a computation, and its word. Zeros stand for a field that is left out. -/
inductive IsComputation : Bytes → Bytes → Prop
  | store {dest comp destCode compCode : Bytes} (stored : (dest, destCode) ∈ destCodes)
      (computed : (comp, compCode) ∈ compCodes) :
      IsComputation (dest ++ ascii "=" ++ comp)
        (ascii "111" ++ compCode ++ destCode ++ ascii "000")
  | jump {comp jump compCode jumpCode : Bytes} (computed : (comp, compCode) ∈ compCodes)
      (jumped : (jump, jumpCode) ∈ jumpCodes) :
      IsComputation (comp ++ ascii ";" ++ jump)
        (ascii "111" ++ compCode ++ ascii "000" ++ jumpCode)
  | storeAndJump {dest comp jump destCode compCode jumpCode : Bytes}
      (stored : (dest, destCode) ∈ destCodes) (computed : (comp, compCode) ∈ compCodes)
      (jumped : (jump, jumpCode) ∈ jumpCodes) :
      IsComputation (dest ++ ascii "=" ++ comp ++ ascii ";" ++ jump)
        (ascii "111" ++ compCode ++ destCode ++ jumpCode)

/-- The form of a line with a computation on it, and the word of that. -/
def IsComputationLine (stripped word : Bytes) : Prop :=
  ∃ text tail, stripped = text ++ tail ∧ IsTail tail ∧ IsComputation text word

/-! ## Tables and fields -/

theorem mem_compCodes_iff {text code : Bytes} :
    (text, code) ∈ compCodes ↔
      ∃ comp : Comp, comp.mnemonic = text ∧ binaryDigits comp.bits = code := by
  have table : compCodes =
      Comp.all.map fun comp => (comp.mnemonic, binaryDigits comp.bits) := by
    decide +kernel
  have every (comp : Comp) : comp ∈ Comp.all :=
    List.mem_of_find?_eq_some (Comp.ofMnemonic?_mnemonic comp)
  simp [table, every]

theorem mem_destCodes_iff {text code : Bytes} :
    (text, code) ∈ destCodes ↔ ∃ dest : Dest, dest ≠ Dest.nowhere ∧
      dest.mnemonic = text ∧ binaryDigits dest.bits = code := by
  have table : destCodes =
      Dest.all.map fun dest => (dest.mnemonic, binaryDigits dest.bits) := by
    decide +kernel
  simp [table, Dest.mem_all_iff]

theorem mem_jumpCodes_iff {text code : Bytes} :
    (text, code) ∈ jumpCodes ↔ ∃ jump : Jump, jump ≠ .never ∧
      jump.mnemonic = text ∧ binaryDigits jump.bits = code := by
  have table : jumpCodes =
      Jump.all.map fun jump => (jump.mnemonic, binaryDigits jump.bits) := by
    decide +kernel
  simp [table, Jump.mem_all_iff]

end Grammar

namespace Instruction

variable {comp : Comp} {dest : Dest} {jump : Jump}

theorem computeText_store (stores : dest ≠ Dest.nowhere) :
    computeText comp dest .never = dest.mnemonic ++ ascii "=" ++ comp.mnemonic := by
  have equals : ascii "=" = [Byte.equals] := by decide
  rw [computeText_eq, Dest.text, if_neg stores, Jump.text, if_pos rfl, equals, List.append_nil]

theorem computeText_jump (taken : jump ≠ .never) :
    computeText comp .nowhere jump = comp.mnemonic ++ ascii ";" ++ jump.mnemonic := by
  have semicolon : ascii ";" = [Byte.semicolon] := by decide
  rw [computeText_eq, Dest.text, if_pos rfl, Jump.text, if_neg taken, semicolon, List.nil_append,
    List.append_assoc, List.singleton_append]

theorem computeText_storeAndJump (stores : dest ≠ Dest.nowhere) (taken : jump ≠ .never) :
    computeText comp dest jump =
      dest.mnemonic ++ ascii "=" ++ comp.mnemonic ++ ascii ";" ++ jump.mnemonic := by
  have equals : ascii "=" = [Byte.equals] := by decide
  have semicolon : ascii ";" = [Byte.semicolon] := by decide
  rw [computeText_eq, Dest.text, if_neg stores, Jump.text, if_neg taken, equals, semicolon,
    List.append_assoc _ [Byte.semicolon], List.singleton_append]

end Instruction

namespace Grammar

theorem binaryDigits_nowhere : binaryDigits Dest.nowhere.bits = ascii "000" := by decide

theorem binaryDigits_never : binaryDigits Jump.never.bits = ascii "000" := by decide

/-- The grammar has just the computations that store or jump, with their texts and words. -/
theorem isComputation_iff {text word : Bytes} :
    IsComputation text word ↔ ∃ comp dest jump, (dest ≠ Dest.nowhere ∨ jump ≠ .never) ∧
      text = Instruction.computeText comp dest jump ∧
      word = (Instruction.compute comp dest jump).digits := by
  constructor
  · intro isComputation
    cases isComputation with
    | store stored computed =>
        obtain ⟨dest, stores, rfl, rfl⟩ := mem_destCodes_iff.1 stored
        obtain ⟨comp, rfl, rfl⟩ := mem_compCodes_iff.1 computed
        refine ⟨comp, dest, .never, .inl stores, ?_, ?_⟩
        · rw [Instruction.computeText_store stores]
        · rw [Instruction.digits_compute, binaryDigits_never]
    | jump computed jumped =>
        obtain ⟨comp, rfl, rfl⟩ := mem_compCodes_iff.1 computed
        obtain ⟨jump, taken, rfl, rfl⟩ := mem_jumpCodes_iff.1 jumped
        refine ⟨comp, .nowhere, jump, .inr taken, ?_, ?_⟩
        · rw [Instruction.computeText_jump taken]
        · rw [Instruction.digits_compute, binaryDigits_nowhere]
    | storeAndJump stored computed jumped =>
        obtain ⟨dest, stores, rfl, rfl⟩ := mem_destCodes_iff.1 stored
        obtain ⟨comp, rfl, rfl⟩ := mem_compCodes_iff.1 computed
        obtain ⟨jump, taken, rfl, rfl⟩ := mem_jumpCodes_iff.1 jumped
        refine ⟨comp, dest, jump, .inl stores, ?_, ?_⟩
        · rw [Instruction.computeText_storeAndJump stores taken]
        · rw [Instruction.digits_compute]
  · rintro ⟨comp, dest, jump, storesOrJumps, rfl, rfl⟩
    have computed : (comp.mnemonic, binaryDigits comp.bits) ∈ compCodes :=
      mem_compCodes_iff.2 ⟨comp, rfl, rfl⟩
    have stored (stores : dest ≠ Dest.nowhere) :
        (dest.mnemonic, binaryDigits dest.bits) ∈ destCodes :=
      mem_destCodes_iff.2 ⟨dest, stores, rfl, rfl⟩
    have jumped (taken : jump ≠ .never) : (jump.mnemonic, binaryDigits jump.bits) ∈ jumpCodes :=
      mem_jumpCodes_iff.2 ⟨jump, taken, rfl, rfl⟩
    rw [Instruction.digits_compute]
    by_cases stores : dest = Dest.nowhere
    · obtain taken : jump ≠ .never := storesOrJumps.resolve_left (absurd stores)
      rw [stores, Instruction.computeText_jump taken, binaryDigits_nowhere]
      exact .jump computed (jumped taken)
    · by_cases taken : jump = .never
      · rw [taken, Instruction.computeText_store stores, binaryDigits_never]
        exact .store (stored stores) computed
      · rw [Instruction.computeText_storeAndJump stores taken]
        exact .storeAndJump (stored stores) computed (jumped taken)

end Grammar

/-! ## Lines -/

namespace Instruction

open Grammar

/-- The encoder accepts the computations of the grammar, with a comment or nothing behind
them. -/
theorem ofCompute_follows_grammar {text trailer word : Bytes} :
    (∃ instruction, ofCompute text trailer = .ok instruction ∧ instruction.digits = word) ↔
      IsTail trailer ∧ IsComputation text word := by
  rw [isComputation_iff, ← isTail_iff]
  simp only [ofCompute_eq_ok_iff]
  constructor
  · rintro ⟨_, ⟨tail, comp, dest, jump, storesOrJumps, isText, rfl⟩, rfl⟩
    exact ⟨tail, comp, dest, jump, storesOrJumps, isText, rfl⟩
  · rintro ⟨tail, comp, dest, jump, storesOrJumps, isText, rfl⟩
    exact ⟨_, ⟨tail, comp, dest, jump, storesOrJumps, isText, rfl⟩, rfl⟩

end Instruction

namespace Grammar

/-- A computation and what is behind it are a line of the form that the reader looks for. -/
theorem IsComputation.isCompute {text word tail : Bytes} (isComputation : IsComputation text word)
    (isTail : IsTail tail) : IsCompute (text ++ tail) text tail := by
  obtain ⟨comp, dest, jump, -, rfl, -⟩ := isComputation_iff.1 isComputation
  obtain ⟨b, rest, isText, starts⟩ := Instruction.exists_computeText_eq_cons comp dest jump
  have noSlash : Byte.slash ∉ Instruction.computeText comp dest jump := fun member =>
    absurd (List.all_eq_true.1 (Instruction.all_isPlain_source (.compute comp dest jump)) _ member)
      (by decide)
  refine ⟨rfl, ⟨b, List.contains_iff_mem.1 starts, ?_⟩, noSlash, ?_⟩
  · rw [isText]
    rfl
  · obtain rfl | ⟨remark, rfl⟩ := isTail
    · exact .inl rfl
    · exact .inr rfl

end Grammar

namespace Statement

open Grammar

/-- The line was read as a computation, and this is its word. -/
def Computes (statement : Statement) (word : Bytes) : Prop :=
  ∃ text trailer instruction, statement.command = .compute text trailer ∧
    Instruction.ofCompute text trailer = .ok instruction ∧ instruction.digits = word

theorem computes_iff (line word : Bytes) :
    (ofLine line).Computes word ↔ IsComputationLine (Line.strip line) word := by
  constructor
  · rintro ⟨text, trailer, instruction, read, encoded⟩
    have form := Command.ofStripped_eq_compute_iff_isCompute.1 read
    obtain ⟨isTail, isComputation⟩ :=
      Instruction.ofCompute_follows_grammar.1 ⟨instruction, encoded⟩
    exact ⟨text, trailer, form.whole, isTail, isComputation⟩
  · rintro ⟨text, tail, whole, isTail, isComputation⟩
    obtain ⟨instruction, encoded⟩ :=
      Instruction.ofCompute_follows_grammar.2 ⟨isTail, isComputation⟩
    refine ⟨text, tail, instruction, ?_, encoded⟩
    rw [ofLine, whole]
    exact Command.ofStripped_eq_compute_iff_isCompute.2 (isComputation.isCompute isTail)

/-- A line is read as a computation and has a word exactly if it follows the grammar, and the
word is the one that the grammar gives to it, of sixteen binary digits. Any other line is not
read as a computation, or refused by the encoder. -/
theorem computes_follows_grammar (line : Bytes) :
    (∀ word, (ofLine line).Computes word ↔ IsComputationLine (Line.strip line) word) ∧
    (∀ word, IsComputationLine (Line.strip line) word →
      word.length = 16 ∧ ∀ b ∈ word, b = Byte.zero ∨ b = Byte.one) ∧
    ((∀ word, ¬ IsComputationLine (Line.strip line) word) →
      (ofLine line).command.kind ≠ .compute ∨
        ∃ text trailer error, (ofLine line).command = .compute text trailer ∧
          Instruction.ofCompute text trailer = .error error) := by
  refine ⟨computes_iff line, ?_, ?_⟩
  · rintro word ⟨text, tail, -, -, isComputation⟩
    obtain ⟨comp, dest, jump, -, -, rfl⟩ := isComputation_iff.1 isComputation
    exact ⟨length_binaryDigits _, fun b member => isBit_of_mem_binaryDigits member⟩
  · intro other
    cases read : (ofLine line).command with
    | skip | address operand trailer | label name trailer | malformed reason =>
        exact .inl nofun
    | compute text trailer =>
        cases encoded : Instruction.ofCompute text trailer with
        | error error => exact .inr ⟨text, trailer, error, rfl, encoded⟩
        | ok instruction =>
            exact absurd ((computes_iff line _).1 ⟨text, trailer, instruction, read, encoded, rfl⟩)
              (other _)

end Statement

/-! ## Words read backwards -/

namespace Instruction

/-- The text of the computation that has these digits, if there is one. -/
def computationOfDigits? (word : Bytes) : Option Bytes :=
  match ofDigits? word with
  | some (.compute comp dest jump) => some (computeText comp dest jump)
  | some (.address _) | none => none

theorem computationOfDigits?_digits {text trailer : Bytes} {instruction : Instruction}
    (encoded : ofCompute text trailer = .ok instruction) :
    computationOfDigits? instruction.digits = some text := by
  obtain ⟨-, comp, dest, jump, -, rfl, rfl⟩ := ofCompute_eq_ok_iff.1 encoded
  rw [computationOfDigits?, ofDigits?_digits]

theorem computationOfDigits?_address {table : SymbolTable} {operand : Bytes}
    {instruction : Instruction} (encoded : ofOperand table operand = .ok instruction) :
    computationOfDigits? instruction.digits = none := by
  obtain ⟨value, rfl⟩ := exists_address_of_ofOperand encoded
  rw [computationOfDigits?, ofDigits?_digits]

/-- The text of a computation is found again in its word, for every text and trailer that the
encoder accepts. So another computation with the same word has the same text, and no operand
of an address command has that word, whatever symbols are known. -/
theorem computationOfDigits?_of_ofCompute {text trailer : Bytes} {instruction : Instruction}
    (encoded : ofCompute text trailer = .ok instruction) :
    computationOfDigits? instruction.digits = some text ∧
    (∀ text' trailer' instruction', ofCompute text' trailer' = .ok instruction' →
      instruction'.digits = instruction.digits → text' = text) ∧
    ∀ table operand address, ofOperand table operand = .ok address →
      address.digits ≠ instruction.digits := by
  have found := computationOfDigits?_digits encoded
  refine ⟨found, ?_, ?_⟩
  · intro text' trailer' instruction' encoded' sameWord
    have found' := computationOfDigits?_digits encoded'
    rw [sameWord, found] at found'
    exact (Option.some.inj found').symm
  · intro table operand address encoded' sameWord
    have nothing := computationOfDigits?_address encoded'
    rw [sameWord, found] at nothing
    cases nothing

/-- All three fields, and a comment behind them. -/
theorem computationOfDigits?_of_ofCompute_full :
    ∃ instruction, ofCompute (ascii "AMD=D|M;JLE") (ascii "//x") = .ok instruction ∧
      instruction.digits = ascii "1111010101111110" ∧
      computationOfDigits? instruction.digits = some (ascii "AMD=D|M;JLE") ∧
      (∀ text' trailer' instruction', ofCompute text' trailer' = .ok instruction' →
        instruction'.digits = instruction.digits → text' = ascii "AMD=D|M;JLE") ∧
      ∀ table operand address, ofOperand table operand = .ok address →
        address.digits ≠ instruction.digits := by
  have encoded : ofCompute (ascii "AMD=D|M;JLE") (ascii "//x") =
      .ok (.compute (.dataOr .memory) ⟨true, true, true⟩ .nonpositive) := by
    rfl
  exact ⟨_, encoded, by decide +kernel, computationOfDigits?_of_ofCompute encoded⟩

end Instruction

end HackAssembler
