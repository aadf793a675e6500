/-
# The grammar of lines

Which lines are commands, said without reading them from left to right. A stripped line
has one of four forms, and each form says how the line is put together: nothing but a
comment, an at sign and an operand, a label between parentheses, or any text that starts
like a computation. The reader of lines accepts just these forms and takes a line apart
in the way it was put together; a line of no form is malformed.

The bytes of symbols and numerals are listed here one by one, since their classes are a
part of what the reader has to get right.
-/

import HackAssembler.Proofs.Layout
import HackAssembler.Proofs.Lines

namespace HackAssembler

namespace Grammar

/-- The letters of both cases. -/
def letters : Bytes := ascii "ABCDEFGHIJKLMNOPQRSTUVWXYZabcdefghijklmnopqrstuvwxyz"

/-- What a symbol is made of besides letters and digits. -/
def marks : Bytes := ascii "_.$:"

/-- The decimal digits. -/
def digits : Bytes := ascii "0123456789"

/-- A symbol starts with a letter or a mark, and goes on with letters, marks and digits. -/
inductive IsSymbol : Bytes → Prop
  | mk {b : UInt8} {rest : Bytes} (starts : b ∈ letters ++ marks)
      (goesOn : ∀ c ∈ rest, c ∈ letters ++ marks ++ digits) : IsSymbol (b :: rest)

/-- A numeral is any digits, leading zeros included, but at least one. -/
structure IsNumeral (text : Bytes) : Prop where
  nonempty : text ≠ []
  digits : ∀ b ∈ text, b ∈ digits

/-- What may stand behind a command: nothing, or a comment. -/
def IsTail (text : Bytes) : Prop := text = [] ∨ ∃ remark, text = ascii "//" ++ remark

/-- The form of an address command. -/
structure IsAddress (stripped operand trailer : Bytes) : Prop where
  whole : stripped = ascii "@" ++ operand ++ trailer
  operand : IsSymbol operand ∨ IsNumeral operand
  tail : IsTail trailer

/-- The form of a label. -/
structure IsLabel (stripped name trailer : Bytes) : Prop where
  whole : stripped = ascii "(" ++ name ++ ascii ")" ++ trailer
  name : IsSymbol name
  tail : IsTail trailer

/-- The form of a computation. Only its first byte is looked at, and whether its trailer is
a comment is left open. -/
structure IsCompute (stripped text trailer : Bytes) : Prop where
  whole : stripped = text ++ trailer
  starts : ∃ b ∈ ascii "DAM01-!", stripped.head? = some b
  noSlash : Byte.slash ∉ text
  trailer : trailer = [] ∨ trailer.head? = some Byte.slash

/-! ## Classes of bytes -/

theorem isSymbolStart_iff (b : UInt8) :
    Byte.isSymbolStart b = true ↔ b ∈ letters ++ marks := by
  have listed : ∀ n : Fin 256, Byte.isSymbolStart (.ofFin n) = true →
      UInt8.ofFin n ∈ letters ++ marks := by
    decide +kernel
  have accepted : ∀ c ∈ letters ++ marks, Byte.isSymbolStart c = true := by decide +kernel
  exact ⟨listed b.toFin, accepted b⟩

theorem isDigit_iff (b : UInt8) : Byte.isDigit b = true ↔ b ∈ digits := by
  have listed : ∀ n : Fin 256, Byte.isDigit (.ofFin n) = true → UInt8.ofFin n ∈ digits := by
    decide +kernel
  have accepted : ∀ c ∈ digits, Byte.isDigit c = true := by decide +kernel
  exact ⟨listed b.toFin, accepted b⟩

theorem isSymbolChar_iff (b : UInt8) :
    Byte.isSymbolChar b = true ↔ b ∈ letters ++ marks ++ digits := by
  rw [Byte.isSymbolChar, Bool.or_eq_true, isSymbolStart_iff, isDigit_iff,
    List.mem_append (s := letters ++ marks)]

theorem isTerminator_iff (b : UInt8) : Line.isTerminator b = true ↔ b ∈ ascii "\r\n" := by
  have bytes : ascii "\r\n" = [Byte.carriageReturn, Byte.lineFeed] := by decide
  simp [Line.isTerminator, bytes, or_comm]

theorem isBlank_iff (b : UInt8) : Line.isBlank b = true ↔ b ∈ ascii " \t" := by
  have bytes : ascii " \t" = [Byte.space, Byte.tab] := by decide
  simp [Line.isBlank, bytes]

theorem isSymbol_iff (text : Bytes) : Line.isSymbol text = true ↔ IsSymbol text := by
  cases text with
  | nil => exact iff_of_false Bool.false_ne_true nofun
  | cons b rest =>
      rw [Line.isSymbol, Line.isSymbolTail, Bool.and_eq_true, isSymbolStart_iff, List.all_eq_true]
      simp only [isSymbolChar_iff]
      constructor
      · rintro ⟨starts, goesOn⟩
        exact .mk starts goesOn
      · rintro ⟨starts, goesOn⟩
        exact ⟨starts, goesOn⟩

theorem isNumeral_iff (text : Bytes) :
    text ≠ [] ∧ text.all Byte.isDigit = true ↔ IsNumeral text := by
  simp only [List.all_eq_true, isDigit_iff]
  exact ⟨fun ⟨nonempty, digits⟩ => ⟨nonempty, digits⟩,
    fun ⟨nonempty, digits⟩ => ⟨nonempty, digits⟩⟩

theorem isTail_iff (text : Bytes) : Line.isTail text = true ↔ IsTail text := by
  constructor
  · exact Line.isTail_cases
  · rintro (rfl | ⟨remark, rfl⟩) <;> rfl

/-- An operand is without fault exactly if it is a symbol or a numeral. The first byte
decides which of the two it has to be. -/
theorem operandFault?_eq_none_iff (operand : Bytes) :
    Command.operandFault? operand = none ↔ IsSymbol operand ∨ IsNumeral operand := by
  rw [← isSymbol_iff, ← isNumeral_iff]
  cases operand with
  | nil => exact iff_of_false nofun (by simp [Line.isSymbol])
  | cons b rest =>
      rw [Command.operandFault?]
      by_cases digit : Byte.isDigit b = true
      · have noSymbol : Line.isSymbol (b :: rest) = false := by
          rw [Line.isSymbol, Byte.isSymbolStart_eq_false_of_isDigit digit, Bool.false_and]
        simp [digit, noSymbol]
      · simp [digit]

end Grammar

namespace Command

open Grammar

variable {stripped text trailer : Bytes}

/-! ## What is read in a stripped line -/

theorem ofStripped_eq_address_iff_isAddress :
    ofStripped stripped = .address text trailer ↔ IsAddress stripped text trailer := by
  rw [ofStripped_eq_address_iff, operandFault?_eq_none_iff, isTail_iff]
  constructor
  · rintro ⟨whole, operand, tail⟩
    exact ⟨whole, operand, tail⟩
  · rintro ⟨whole, operand, tail⟩
    exact ⟨whole, operand, tail⟩

theorem ofStripped_eq_label_iff_isLabel :
    ofStripped stripped = .label text trailer ↔ IsLabel stripped text trailer := by
  have shape : ascii "(" ++ text ++ ascii ")" ++ trailer =
      Byte.openParen :: (text ++ Byte.closeParen :: trailer) := by
    rw [List.append_assoc, List.append_assoc]
    rfl
  rw [ofStripped_eq_label_iff, isSymbol_iff, isTail_iff, ← shape]
  constructor
  · rintro ⟨whole, name, tail⟩
    exact ⟨whole, name, tail⟩
  · rintro ⟨whole, name, tail⟩
    exact ⟨whole, name, tail⟩

theorem ofStripped_eq_skip_iff_isTail : ofStripped stripped = .skip ↔ IsTail stripped := by
  rw [ofStripped_eq_skip_iff, Line.dropComment_eq_nil_iff, isTail_iff]

/-- What is read in a line starts with none of the marks of the other forms. -/
theorem ofStripped_of_startsCompute {b : UInt8} (starts : startsCompute b = true)
    (rest : Bytes) :
    ofStripped (b :: rest) = .compute (Line.meaning (b :: rest)) (Line.trailer (b :: rest)) := by
  have differs (mark : UInt8) (other : startsCompute mark = false) : b ≠ mark := by
    rintro rfl
    rw [starts] at other
    cases other
  rw [ofStripped_of_plain (differs Byte.slash (by decide)) (differs Byte.atSign (by decide))
    (differs Byte.openParen (by decide)), if_pos starts]

/-- A text without a slash is told from what follows it by the slash there. -/
theorem meaning_trailer_append (noSlash : Byte.slash ∉ text)
    (begins : trailer = [] ∨ trailer.head? = some Byte.slash) :
    Line.meaning (text ++ trailer) = text ∧ Line.trailer (text ++ trailer) = trailer := by
  have before := Line.forall_ne_slash noSlash
  rw [Line.meaning, Line.trailer, List.takeWhile_append_of_pos before,
    List.dropWhile_append_of_pos before]
  cases trailer with
  | nil => simp
  | cons b rest =>
      obtain rfl : b = Byte.slash := by simpa using begins
      simp

theorem trailer_begins (line : Bytes) :
    Line.trailer line = [] ∨ (Line.trailer line).head? = some Byte.slash := by
  have stops := List.head?_dropWhile_not (· != Byte.slash) line
  rw [← Line.trailer] at stops
  cases rest : Line.trailer line with
  | nil => exact .inl rfl
  | cons b after =>
      rw [rest] at stops
      exact .inr (by simpa using stops)

theorem ofStripped_eq_compute_iff_isCompute :
    ofStripped stripped = .compute text trailer ↔ IsCompute stripped text trailer := by
  constructor
  · intro read
    rw [ofStripped.eq_def] at read
    split at read
    · cases read
    · split at read <;> cases read
    · rw [ofAddress] at read
      repeat' split at read
      all_goals cases read
    · rw [ofLabel] at read
      repeat' split at read
      all_goals cases read
    · next b rest _ _ _ =>
        split at read
        · next starts =>
            cases read
            exact ⟨(Line.meaning_append_trailer _).symm, ⟨b, List.contains_iff_mem.1 starts, rfl⟩,
              Line.slash_not_mem_meaning _, trailer_begins _⟩
        · cases read
  · rintro ⟨rfl, ⟨b, starts, head⟩, noSlash, begins⟩
    obtain ⟨rest, whole⟩ := List.head?_eq_some_iff.1 head
    obtain ⟨isText, isTrailer⟩ := meaning_trailer_append noSlash begins
    rw [whole] at isText isTrailer ⊢
    rw [ofStripped_of_startsCompute (List.contains_iff_mem.2 starts), isText, isTrailer]

/-- Every reason has its wording. -/
theorem message_ne_nil (reason : Malformed) : reason.message ≠ [] := by
  cases reason with
  | character b =>
      have opening : ascii "unexpected character " ≠ [] := by decide
      exact List.append_ne_nil_of_left_ne_nil opening _
  | _ => decide

/-- A line is malformed exactly if it has none of the four forms. -/
theorem isMalformed_iff :
    ((ofStripped stripped).kind = .malformed ∧ (ofStripped stripped).text = [] ∧
        (ofStripped stripped).trailer = [] ∧ (ofStripped stripped).reason ≠ []) ↔
      ¬ IsTail stripped ∧ ∀ text trailer, ¬ IsAddress stripped text trailer ∧
        ¬ IsLabel stripped text trailer ∧ ¬ IsCompute stripped text trailer := by
  simp only [← ofStripped_eq_skip_iff_isTail, ← ofStripped_eq_address_iff_isAddress,
    ← ofStripped_eq_label_iff_isLabel, ← ofStripped_eq_compute_iff_isCompute]
  cases ofStripped stripped with
  | malformed reason => simp [kind, Command.text, Command.trailer, Command.reason, message_ne_nil]
  | _ => simp [kind]

end Command

namespace Statement

open Grammar

/-- A line is freed of its terminator and its blanks, and what is left is kept. -/
theorem exists_content_eq (line : Bytes) :
    ∃ body terminator, line = body ++ terminator ∧ (∀ b ∈ terminator, b ∈ ascii "\r\n") ∧
      (∀ b ∈ body.getLast?, b ∉ ascii "\r\n") ∧
      (ofLine line).content = body.filter (· ∉ ascii " \t") := by
  obtain ⟨terminator, whole, proper⟩ := Line.exists_terminator line
  refine ⟨Line.dropTerminator line, terminator, whole, ?_, ?_, ?_⟩
  · intro b member
    rw [← isTerminator_iff]
    exact proper b member
  · intro b last
    rw [← isTerminator_iff, Line.isTerminator_getLast_dropTerminator last]
    exact Bool.false_ne_true
  · apply List.filter_congr
    intro b _
    simp [← isBlank_iff]

/-- The reader of lines accepts the lines of the grammar and no others. What it keeps of a
line is the line without the terminator bytes at its end and without blanks; the parts of a
command are those that this was put together from; and a line of no form is malformed, with
a reason and without parts. -/
theorem ofLine_follows_grammar (line : Bytes) :
    let stripped := (ofLine line).content
    let command := (ofLine line).command
    (∃ body terminator, line = body ++ terminator ∧ (∀ b ∈ terminator, b ∈ ascii "\r\n") ∧
      (∀ b ∈ body.getLast?, b ∉ ascii "\r\n") ∧ stripped = body.filter (· ∉ ascii " \t")) ∧
    (∀ operand trailer, command = .address operand trailer ↔ IsAddress stripped operand trailer) ∧
    (∀ name trailer, command = .label name trailer ↔ IsLabel stripped name trailer) ∧
    (command = .skip ↔ IsTail stripped) ∧
    (∀ text trailer, command = .compute text trailer ↔ IsCompute stripped text trailer) ∧
    ((command.kind = .malformed ∧ command.text = [] ∧ command.trailer = [] ∧
        command.reason ≠ []) ↔
      ¬ IsTail stripped ∧ ∀ text trailer, ¬ IsAddress stripped text trailer ∧
        ¬ IsLabel stripped text trailer ∧ ¬ IsCompute stripped text trailer) := by
  intro stripped command
  have read : command = Command.ofStripped stripped := rfl
  rw [read]
  refine ⟨exists_content_eq line, ?_, ?_, ?_, ?_, ?_⟩
  · intro operand trailer
    exact Command.ofStripped_eq_address_iff_isAddress
  · intro name trailer
    exact Command.ofStripped_eq_label_iff_isLabel
  · exact Command.ofStripped_eq_skip_iff_isTail
  · intro text trailer
    exact Command.ofStripped_eq_compute_iff_isCompute
  · exact Command.isMalformed_iff

end Statement

end HackAssembler
