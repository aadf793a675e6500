/-
# What an assembly writes

The meaning of a program as words, and that an assembly which succeeds writes just these
words. A word is tied to its command by a relation that does not look at a table: the word
of a constant carries the number that its digits denote, that of a symbol carries what the
program and the bindings from before make of it, and that of a computation has the bits of
its fields.
-/

import Mathlib.Data.List.Forall2
import HackAssembler.Proofs.Assembly
import HackAssembler.Proofs.Numerals
import HackAssembler.Proofs.Symbols

namespace HackAssembler

/-- The word of a command, when symbols stand for the values given by `resolve`. -/
inductive Command.HasWord (resolve : Bytes → Nat) : Command → Bytes → Prop
  | constant {operand trailer word : Bytes} (digits : operand.all Byte.isDigit = true)
      (small : denoted 10 operand ≤ maxAddress) (carries : Carries word (denoted 10 operand)) :
      HasWord resolve (.address operand trailer) word
  | symbol {name trailer word : Bytes} (symbolic : Line.isSymbolic name = true)
      (small : resolve name ≤ maxAddress) (carries : Carries word (resolve name)) :
      HasWord resolve (.address name trailer) word
  | compute {text trailer : Bytes} {comp : Comp} {dest : Dest} {jump : Jump}
      (storesOrJumps : dest ≠ Dest.nowhere ∨ jump ≠ .never)
      (isText : text = Instruction.computeText comp dest jump) :
      HasWord resolve (.compute text trailer)
        (ascii "111" ++ binaryDigits comp.bits ++ binaryDigits dest.bits ++
          binaryDigits jump.bits)

namespace Instruction

theorem digits_address_eq_cons (value : BitVec 15) :
    digits (.address value) = Byte.zero :: binaryDigits value := by
  rw [digits, toWord, binaryDigits_append]
  rfl

/-- An address that fits is written with a leading zero and is otherwise itself. -/
theorem digits_address {value : Nat} (small : value ≤ maxAddress) :
    digits (.address (BitVec.ofNat 15 value)) = binaryDigits (BitVec.ofNat 16 value) := by
  rw [maxAddress] at small
  have same : (0#1 ++ BitVec.ofNat 15 value : Word) = BitVec.ofNat 16 value := by
    apply BitVec.eq_of_toNat_eq
    rw [BitVec.toNat_append, BitVec.toNat_ofNat, BitVec.toNat_ofNat, BitVec.toNat_ofNat,
      Nat.zero_mod, Nat.zero_shiftLeft, Nat.zero_or]
    omega
  rw [digits, toWord, same]

/-- An address that fits is carried by its word. -/
theorem carries_address {number : Nat} (small : number ≤ maxAddress) :
    Carries (digits (.address (BitVec.ofNat 15 number))) number where
  length := length_binaryDigits _
  leading := by rw [digits_address_eq_cons, List.head?_cons]
  binary := fun _ member => isBit_of_mem_binaryDigits member
  number := by
    rw [maxAddress] at small
    rw [digits_address small, ← binaryValue_eq_denoted, binaryValue_binaryDigits,
      BitVec.toNat_ofNat]
    omega

theorem digits_compute (comp : Comp) (dest : Dest) (jump : Jump) :
    digits (.compute comp dest jump) =
      ascii "111" ++ binaryDigits comp.bits ++ binaryDigits dest.bits ++
        binaryDigits jump.bits := by
  have leading : binaryDigits 0b111#3 = ascii "111" := by decide
  rw [digits, toWord, binaryDigits_append, binaryDigits_append, binaryDigits_append, leading]

end Instruction

/-- A string of digits is no symbol. -/
theorem Line.isSymbolic_eq_false_of_digits {operand : Bytes}
    (digits : operand.all Byte.isDigit = true) : isSymbolic operand = false := by
  cases operand with
  | nil => rfl
  | cons b rest =>
      rw [List.all_cons, Bool.and_eq_true] at digits
      exact Byte.isSymbolStart_eq_false_of_isDigit digits.1

namespace Command

variable {resolve : Bytes → Nat} {table : SymbolTable}

/-- A command has at most one word: constants are no symbols, and the text of a
computation determines its fields. -/
theorem rightUnique_hasWord : Relator.RightUnique (HasWord resolve) := by
  intro command first second one other
  cases one with
  | constant digits small carries =>
      cases other with
      | constant _ _ carries' => exact carries.unique carries'
      | symbol symbolic => simp [Line.isSymbolic_eq_false_of_digits digits] at symbolic
  | symbol symbolic small carries =>
      cases other with
      | constant digits => simp [Line.isSymbolic_eq_false_of_digits digits] at symbolic
      | symbol _ _ carries' => exact carries.unique carries'
  | @compute text trailer comp dest jump storesOrJumps isText =>
      cases other with
      | compute storesOrJumps' isText' =>
          have empty : Line.isTail [] = true := rfl
          have read := Instruction.ofCompute_eq_ok_iff.2
            ⟨empty, comp, dest, jump, storesOrJumps, isText, rfl⟩
          have read' := Instruction.ofCompute_eq_ok_iff.2
            ⟨empty, _, _, _, storesOrJumps', isText', rfl⟩
          rw [read] at read'
          cases read'
          rfl

/-- The digits of an instruction are the word of its command, if the table binds the
symbol of the command to what it stands for. -/
theorem hasWord_digits {line : Bytes} {instruction : Instruction}
    (resolved : ∀ name, (ofLine line).reference? = some name →
      ∃ value, table.get? name = some value ∧ value.toNat = resolve name)
    (encoded : (ofLine line).instruction? table = some (.ok instruction)) :
    HasWord resolve (ofLine line) instruction.digits := by
  cases command : ofLine line with
  | skip | label name trailer | malformed reason =>
      rw [command] at encoded
      cases encoded
  | compute text trailer =>
      rw [command] at encoded
      obtain ⟨-, comp, dest, jump, storesOrJumps, isText, rfl⟩ :=
        Instruction.ofCompute_eq_ok_iff.1 (Option.some.inj encoded)
      rw [Instruction.digits_compute]
      exact .compute storesOrJumps isText
  | address operand trailer =>
      rw [command] at encoded resolved
      have encoded : Instruction.ofOperand table operand = .ok instruction :=
        Option.some.inj encoded
      cases symbolic : Line.isSymbolic operand with
      | true =>
          obtain ⟨value, bound, meaning⟩ := resolved operand (if_pos symbolic)
          simp only [Instruction.ofOperand_of_symbolic table symbolic, bound] at encoded
          split at encoded
          · next small =>
              cases encoded
              rw [meaning] at small
              rw [← BitVec.ofNat_toNat, meaning]
              exact .symbol symbolic small (Instruction.carries_address small)
          · cases encoded
      | false =>
          have digits := isDigits_of_not_symbolic command symbolic
          rw [Instruction.ofOperand_of_digits table symbolic digits] at encoded
          split at encoded
          · next small =>
              cases encoded
              rw [Decimal.value_eq_denoted] at small ⊢
              exact .constant digits.2 small (Instruction.carries_address small)
          · cases encoded

end Command

/-- The words of a text that has all its instructions are those of its listing. -/
theorem forall₂_hasWord_listing {table : SymbolTable} {resolve : Bytes → Nat}
    {before lines : List Bytes}
    (resolved : ∀ line ∈ lines, ∀ name, (Command.ofLine line).reference? = some name →
      ∃ value, table.get? name = some value ∧ value.toNat = resolve name)
    (sound : collect (encodingFault? table) before lines = []) :
    List.Forall₂ (Command.HasWord resolve) ((Program.ofLines lines).filter Command.emits)
      ((collect (listed? table) before lines).map ListingEntry.code) := by
  induction lines generalizing before with
  | nil => exact .nil
  | cons line lines ih =>
      obtain ⟨soundLine, soundRest⟩ := List.append_eq_nil_iff.1 sound
      have rest := ih (fun later member => resolved later (List.mem_cons_of_mem line member))
        soundRest
      have emits := Command.emits_eq_isSome_instruction? table (Command.ofLine line)
      rw [Program.ofLines, List.map_cons, ← Program.ofLines, collect]
      -- a command that has an instruction is both kept by the filter and listed
      cases encoded : (Command.ofLine line).instruction? table with
      | none =>
          rw [encoded] at emits
          have nothing : listed? table before line = none := by simp [listed?, encoded]
          rw [List.filter_cons_of_neg (by simp [emits]), nothing]
          exact rest
      | some result =>
          cases result with
          | error error => simp [encodingFault?, encoded] at soundLine
          | ok instruction =>
              rw [encoded] at emits
              have listed : (listed? table before line).map ListingEntry.code =
                  some instruction.digits := by
                simp [listed?, encoded]
              rw [List.filter_cons_of_pos emits, List.map_append, ← Option.toList_map, listed]
              exact .cons (Command.hasWord_digits (resolved line List.mem_cons_self) encoded)
                rest

namespace Session

/-- The two passes write the words of the program, if they succeed. -/
theorem exists_words_of_passes {source : Source} {session middle final : Session}
    {sink written : Sink} {canceled : Bool} (unlimited : sink.limit = none)
    (passed : firstPass source canceled session = .ok () middle)
    (done : secondPass source sink canceled middle.rewound = .ok written final) :
    ∃ words : List Bytes,
      List.Forall₂ (Command.HasWord ((Program.ofLines source.lines).resolve session.table
          session.nextVariable.toNat))
        ((Program.ofLines source.lines).filter Command.emits) words ∧
      written.received.toList =
        sink.received.toList ++ words.flatMap fun word => word ++ [Byte.lineFeed] := by
  obtain ⟨rfl, readable, clean, fits, rfl⟩ := firstPass_eq_ok_iff.1 passed
  rcases secondPass_cases readable (ready_linked clean fits) unlimited with
    ⟨sound, same, emitted, received⟩ | ⟨failure, _, _, _, _, -, -, -, -, stopped⟩
  · rw [done] at emitted
    cases emitted
    refine ⟨_, forall₂_hasWord_listing ?_ sound, ?_⟩
    · intro line member name referred
      exact exists_get?_linked clean fits (Program.mem_references_of_mem member referred)
    · rw [received, List.flatMap_map]
      rfl
  · rw [stopped] at done
    cases done

/-- An assembly that succeeds writes one word for each instruction of the program, in
their order, each on its own line. In a new session only the reserved names are bound
beforehand, and the variables start at the configured base. -/
theorem received_of_assemble {session final : Session} {text : Bytes} {sink written : Sink}
    {canceled : Bool} (unlimited : sink.limit = none)
    (done : assemble { content := text } sink canceled session = .ok written final) :
    (∃ words : List Bytes,
      (∀ candidate, List.Forall₂ (Command.HasWord ((Program.ofLines (Line.split text)).resolve
          session.table session.nextVariable.toNat))
        ((Program.ofLines (Line.split text)).filter Command.emits) candidate ↔
          candidate = words) ∧
      written.received.toList =
        sink.received.toList ++ words.flatMap fun word => word ++ [Byte.lineFeed]) ∧
    ∀ config, session = new config →
      session.nextVariable = config.withDefaults.variableBase ∧
      ∀ name, session.table.get? name =
        (SymbolTable.reserved.find? (·.name == name)).map SymbolEntry.value := by
  obtain ⟨middle, passed, done⟩ := exists_passes_of_assemble done
  obtain ⟨words, related, received⟩ := exists_words_of_passes unlimited passed done
  refine ⟨⟨words, ?_, received⟩, ?_⟩
  · intro candidate
    constructor
    · intro others
      exact Command.rightUnique_hasWord.forall₂ others related
    · rintro rfl
      exact related
  · rintro config rfl
    exact ⟨rfl, SymbolTable.get?_initial⟩

/-- A reference ahead of its label, a label that is declared twice, a reserved name on a
label line and two variables. -/
theorem received_of_assemble_mixed :
    ∃ text written final,
      text = ascii "@END\n@i\n(SP)\nM=1\n(END)\n@j\n(END)\n@SP\n@i\n0;JMP" ∧
      assemble { content := text } {} false (new .default) = .ok written final ∧
      ∃ words : List Bytes,
        (∀ candidate, List.Forall₂ (Command.HasWord ((Program.ofLines (Line.split text)).resolve
            (new .default).table (new .default).nextVariable.toNat))
          ((Program.ofLines (Line.split text)).filter Command.emits) candidate ↔
            candidate = words) ∧
        written.received.toList = words.flatMap fun word => word ++ [Byte.lineFeed] := by
  have succeeds : failure? (assemble
      { content := ascii "@END\n@i\n(SP)\nM=1\n(END)\n@j\n(END)\n@SP\n@i\n0;JMP" } {} false)
      (new .default) = none := by
    decide +kernel
  obtain ⟨written, done⟩ := exists_ok_of_failure?_eq_none succeeds
  exact ⟨_, written, _, rfl, done, (received_of_assemble rfl done).1⟩

end Session

end HackAssembler
