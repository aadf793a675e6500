/-
# Operands and their words

Which operands of address commands have a word, and which number that word carries. A numeral
may have any length, since its leading zeros do not count and a value that is too large is
noticed however far it is over; a symbol is as good as what the table binds it to. Numbers are
taken from digits by position here, in decimal on the one side and in binary on the other.
-/

import HackAssembler.Proofs.Grammar
import HackAssembler.Proofs.Numerals
import HackAssembler.Proofs.Translation

namespace HackAssembler

namespace Instruction

open Grammar

variable {operand : Bytes} {table : SymbolTable}

/-- An operand that stands for a number has a word exactly if the number fits an address, and
the word carries it then. -/
theorem carries_of_number {number : Nat} {error : EncodingError}
    (encoding : ofOperand table operand =
      if number ≤ maxAddress then .ok (.address (BitVec.ofNat 15 number)) else .error error) :
    ((∃ instruction, ofOperand table operand = .ok instruction) ↔ number ≤ maxAddress) ∧
      ∀ instruction, ofOperand table operand = .ok instruction →
        Carries instruction.digits number := by
  by_cases small : number ≤ maxAddress
  · rw [encoding, if_pos small]
    refine ⟨⟨fun _ => small, fun _ => ⟨_, rfl⟩⟩, ?_⟩
    rintro instruction ⟨⟩
    exact carries_address small
  · rw [encoding, if_neg small]
    simp [small]

theorem ofOperand_of_isNumeral (numeral : IsNumeral operand) :
    ofOperand table operand =
      if denoted 10 operand ≤ maxAddress then
        .ok (.address (BitVec.ofNat 15 (denoted 10 operand)))
      else .error (.constantOutOfRange operand) := by
  have digits := (isNumeral_iff operand).2 numeral
  rw [ofOperand_of_digits table (Line.isSymbolic_eq_false_of_digits digits.2) digits,
    Decimal.value_eq_denoted]

theorem isSymbolic_of_isSymbol (symbol : IsSymbol operand) : Line.isSymbolic operand = true := by
  obtain ⟨starts, -⟩ := symbol
  exact (isSymbolStart_iff _).2 starts

theorem ofOperand_of_bound {value : Word} (symbol : IsSymbol operand)
    (bound : table.get? operand = some value) :
    ofOperand table operand =
      if value.toNat ≤ maxAddress then .ok (.address (BitVec.ofNat 15 value.toNat))
      else .error (.symbolOutOfRange operand value) := by
  rw [ofOperand_of_symbolic table (isSymbolic_of_isSymbol symbol), bound, BitVec.ofNat_toNat]

theorem ofOperand_of_unbound (symbol : IsSymbol operand) (unbound : table.get? operand = none) :
    ofOperand table operand = .error (.unknownSymbol ⟨operand⟩) := by
  rw [ofOperand_of_symbolic table (isSymbolic_of_isSymbol symbol), unbound]

/-- Only a symbol without a value is unknown. -/
theorem ofOperand_eq_unknownSymbol_iff (proper : IsNumeral operand ∨ IsSymbol operand)
    (unknown : UnknownSymbol) :
    ofOperand table operand = .error (.unknownSymbol unknown) ↔
      IsSymbol operand ∧ table.get? operand = none ∧ unknown = ⟨operand⟩ := by
  constructor
  · intro refused
    obtain numeral | symbol := proper
    · rw [ofOperand_of_isNumeral numeral] at refused
      split at refused <;> cases refused
    · cases bound : table.get? operand with
      | none =>
          rw [ofOperand_of_unbound symbol bound] at refused
          cases refused
          exact ⟨symbol, rfl, rfl⟩
      | some value =>
          rw [ofOperand_of_bound symbol bound] at refused
          split at refused <;> cases refused
  · rintro ⟨symbol, unbound, rfl⟩
    exact ofOperand_of_unbound symbol unbound

end Instruction

namespace Statement

open Grammar Instruction

/-- An address command carries its exact value in fifteen bits or is refused. Its operand is a
numeral or a symbol. A numeral, however long, has a word exactly if its number is at most
32767, and a symbol exactly if the table binds it to a value of at most 32767; the word then
carries this number. The symbol is complained about as unknown exactly if it is unbound. -/
theorem carries_of_address {line operand trailer : Bytes}
    (read : (ofLine line).command = .address operand trailer) (table : SymbolTable) :
    (IsNumeral operand ∨ IsSymbol operand) ∧
    (IsNumeral operand →
      ((∃ instruction, ofOperand table operand = .ok instruction) ↔
        denoted 10 operand ≤ 32767) ∧
      ∀ instruction, ofOperand table operand = .ok instruction →
        Carries instruction.digits (denoted 10 operand)) ∧
    (IsSymbol operand →
      ((∃ instruction, ofOperand table operand = .ok instruction) ↔
        ∃ value, table.get? operand = some value ∧ value.toNat ≤ 32767) ∧
      ∀ value instruction, table.get? operand = some value →
        ofOperand table operand = .ok instruction → Carries instruction.digits value.toNat) ∧
    ∀ unknown, ofOperand table operand = .error (.unknownSymbol unknown) ↔
      IsSymbol operand ∧ table.get? operand = none ∧ unknown = ⟨operand⟩ := by
  have largest : 32767 = maxAddress := rfl
  have proper : IsNumeral operand ∨ IsSymbol operand :=
    (Command.ofStripped_eq_address_iff_isAddress.1 read).operand.symm
  rw [largest]
  refine ⟨proper, ?_, ?_, ofOperand_eq_unknownSymbol_iff proper⟩
  · intro numeral
    exact carries_of_number (ofOperand_of_isNumeral numeral)
  · intro symbol
    cases bound : table.get? operand with
    | none => simp [ofOperand_of_unbound symbol bound]
    | some value =>
        obtain ⟨accepted, carried⟩ := carries_of_number (ofOperand_of_bound symbol bound)
        refine ⟨accepted.trans ⟨fun small => ⟨value, rfl, small⟩, ?_⟩, ?_⟩
        · rintro ⟨_, ⟨⟩, small⟩
          exact small
        · rintro _ instruction ⟨⟩ encoded
          exact carried instruction encoded

/-- The largest number that fits, behind more zeros than it has digits. -/
theorem carries_of_address_padded :
    ∃ (line operand trailer : Bytes) (instruction : Instruction),
      line = ascii " @ 000000000000000000000000032767 // the last one\r\n" ∧
      (ofLine line).command = .address operand trailer ∧ IsNumeral operand ∧
      ofOperand .initial operand = .ok instruction ∧
      instruction.digits = ascii "0111111111111111" ∧ denoted 10 operand = 32767 ∧
      Carries instruction.digits (denoted 10 operand) := by
  let operand := ascii "000000000000000000000000032767"
  have read : (ofLine (ascii " @ 000000000000000000000000032767 // the last one\r\n")).command =
      .address operand (ascii "//thelastone") := by
    decide +kernel
  have numeral : IsNumeral operand := (isNumeral_iff operand).1 (by decide +kernel)
  have encoded : ofOperand .initial operand = .ok (.address 32767) := by rfl
  have digits : (Instruction.address 32767).digits = ascii "0111111111111111" := by decide +kernel
  have number : denoted 10 operand = 32767 := by decide +kernel
  obtain ⟨-, carried⟩ := (carries_of_address read .initial).2.1 numeral
  exact ⟨_, operand, _, .address 32767, rfl, read, numeral, encoded, digits, number,
    carried (.address 32767) encoded⟩

end Statement

end HackAssembler
