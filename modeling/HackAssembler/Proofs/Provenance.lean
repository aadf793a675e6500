/-
# Where listed words come from

A listing says of each word at which address it stands and which line of the text it was
made from. This module ties these entries to the bytes of the text: the number of a line
counts the line feeds before it, and the lines of a listing are just the lines with an
instruction, up to where the second pass has come. What is written is what is listed, and
the counters end where the listing does.

Lines are described here by where they stand in the text, and not by how the text is split.
-/

import HackAssembler.Proofs.Assembly
import HackAssembler.Proofs.Lines
import HackAssembler.Proofs.Numerals
import HackAssembler.Proofs.Translation

namespace HackAssembler

/-! ## Lines in a text -/

namespace Line

/-- `line` is a line of the text, with `before` in front of it and `rest` behind it. It
starts where no line is open, and it goes up to its line feed; only the last line of the
text may have none. -/
structure IsLineOf (text before line rest : Bytes) : Prop where
  whole : text = before ++ line ++ rest
  starts : IsClosed before
  nonempty : line ≠ []
  ends : (Byte.lineFeed ∉ line ∧ rest = []) ∨
    ∃ content, Byte.lineFeed ∉ content ∧ line = content ++ [Byte.lineFeed]

/-- What is a line of a text is a line in front of which other lines stand. -/
theorem IsLineOf.cons {text before line rest : Bytes} (isLine : IsLineOf text before line rest)
    (content : Bytes) :
    IsLineOf (content ++ Byte.lineFeed :: text) (content ++ Byte.lineFeed :: before) line rest where
  whole := by simp [isLine.whole]
  starts := by
    right
    obtain rfl | ends := isLine.starts
    · simp
    · simp [List.getLast?_append, List.getLast?_cons, ends]
  nonempty := isLine.nonempty
  ends := isLine.ends

/-- A line that a text is split into is a line of the text, and there are as many line feeds
before it as there are lines. -/
theorem isLineOf_of_split {text line : Bytes} {above below : List Bytes}
    (h : split text = above ++ line :: below) :
    IsLineOf text above.flatten line below.flatten ∧
      above.flatten.count Byte.lineFeed = above.length := by
  induction text using text_induction generalizing above with
  | last content noFeed =>
      by_cases empty : content = []
      · subst empty
        simp [split] at h
      · rw [split_of_open noFeed empty, eq_comm, List.append_eq_singleton_iff] at h
        obtain ⟨rfl, isLine⟩ | ⟨-, noLine⟩ := h
        · cases isLine
          exact ⟨⟨by simp, .inl rfl, empty, .inl ⟨noFeed, rfl⟩⟩, rfl⟩
        · cases noLine
  | line content rest noFeed ih =>
      rw [split_cons noFeed] at h
      cases above with
      | nil =>
          obtain ⟨rfl, rfl⟩ := List.cons.inj h
          rw [flatten_split]
          exact ⟨⟨by simp, .inl rfl, by simp, .inr ⟨content, noFeed, rfl⟩⟩, rfl⟩
      | cons first above =>
          obtain ⟨rfl, later⟩ := List.cons.inj h
          obtain ⟨isLine, count⟩ := ih later
          have before : ((content ++ [Byte.lineFeed]) :: above).flatten =
              content ++ Byte.lineFeed :: above.flatten := by
            simp
          rw [before]
          refine ⟨isLine.cons content, ?_⟩
          rw [List.count_append, List.count_eq_zero_of_not_mem noFeed, List.count_cons_self, count,
            List.length_cons, Nat.zero_add]

/-- Every line of a text is split from it. -/
theorem IsLineOf.exists_split {text before line rest : Bytes}
    (isLine : IsLineOf text before line rest) :
    ∃ above below, split text = above ++ line :: below ∧ above.flatten = before := by
  refine ⟨split before, split rest, ?_, flatten_split before⟩
  rw [isLine.whole, List.append_assoc, split_append isLine.starts]
  congr 1
  obtain ⟨noFeed, rfl⟩ | ⟨content, noFeed, rfl⟩ := isLine.ends
  · rw [List.append_nil, split_of_open noFeed isLine.nonempty]
    rfl
  · rw [List.append_assoc, List.singleton_append, split_cons noFeed]

/-- The number of lines of a text: one for each line feed, and one more if a line is left
open at the end. -/
theorem length_split (text : Bytes) :
    (split text).length = text.count Byte.lineFeed + if IsClosed text then 0 else 1 := by
  induction text using text_induction with
  | last content noFeed =>
      by_cases empty : content = []
      · subst empty
        rfl
      · have isOpen : ¬ IsClosed content := by
          rintro (nothing | ends)
          · exact empty nothing
          · exact noFeed (List.mem_of_getLast? ends)
        rw [split_of_open noFeed empty, List.count_eq_zero_of_not_mem noFeed, if_neg isOpen]
        rfl
  | line content rest noFeed ih =>
      have same : IsClosed (content ++ Byte.lineFeed :: rest) ↔ IsClosed rest := by
        cases rest <;> simp [IsClosed, List.getLast?_append, List.getLast?_cons]
      rw [split_cons noFeed, List.length_cons, ih, List.count_append,
        List.count_eq_zero_of_not_mem noFeed, List.count_cons_self]
      simp only [same]
      omega

end Line

/-! ## Words -/

/-- The code is the word of a line: sixteen binary digits that encode its command, the first
of which tell address commands from computations. -/
structure IsWordOf (table : SymbolTable) (line code : Bytes) : Prop where
  encoded : ∃ instruction, (Command.ofLine line).instruction? table = some (.ok instruction) ∧
    code = instruction.digits
  length : code.length = 16
  binary : ∀ b ∈ code, b = Byte.zero ∨ b = Byte.one
  address : ∀ operand trailer, Command.ofLine line = .address operand trailer →
    ascii "0" <+: code
  compute : ∀ text trailer, Command.ofLine line = .compute text trailer → ascii "111" <+: code

theorem Instruction.exists_address_of_ofOperand {table : SymbolTable} {operand : Bytes}
    {instruction : Instruction} (h : ofOperand table operand = .ok instruction) :
    ∃ value, instruction = .address value := by
  rw [ofOperand] at h
  repeat' split at h
  all_goals cases h
  all_goals exact ⟨_, rfl⟩

theorem isWordOf_digits {table : SymbolTable} {line : Bytes} {instruction : Instruction}
    (encoded : (Command.ofLine line).instruction? table = some (.ok instruction)) :
    IsWordOf table line instruction.digits where
  encoded := ⟨instruction, encoded, rfl⟩
  length := length_binaryDigits _
  binary _ member := isBit_of_mem_binaryDigits member
  address operand trailer command := by
    rw [command] at encoded
    obtain ⟨value, rfl⟩ := Instruction.exists_address_of_ofOperand (Option.some.inj encoded)
    have leading : binaryDigits 0#1 = ascii "0" := by decide
    rw [Instruction.digits, Instruction.toWord, binaryDigits_append, leading]
    exact List.prefix_append _ _
  compute text trailer command := by
    rw [command] at encoded
    obtain ⟨-, comp, dest, jump, -, -, rfl⟩ :=
      Instruction.ofCompute_eq_ok_iff.1 (Option.some.inj encoded)
    rw [Instruction.digits_compute, List.append_assoc, List.append_assoc]
    exact List.prefix_append _ _

/-! ## Listings -/

/-- What the lines of a text give is what they give one by one. -/
theorem mem_collect_iff {α : Type} {look : List Bytes → Bytes → Option α}
    {before lines : List Bytes} {found : α} :
    found ∈ collect look before lines ↔
      ∃ above line below, lines = above ++ line :: below ∧
        look (before ++ above) line = some found := by
  constructor
  · intro member
    induction lines generalizing before with
    | nil => cases member
    | cons line lines ih =>
        obtain here | later := List.mem_append.1 member
        · refine ⟨[], line, lines, rfl, ?_⟩
          rw [List.append_nil]
          exact Option.mem_toList.1 here
        · obtain ⟨above, other, below, rfl, given⟩ := ih later
          refine ⟨line :: above, other, below, rfl, ?_⟩
          rw [List.append_cons]
          exact given
  · rintro ⟨above, line, below, rfl, given⟩
    rw [collect_append, collect]
    exact List.mem_append_right _ (List.mem_append_left _ (Option.mem_toList.2 given))

/-- The lines of a listing come in the order of the text. -/
theorem pairwise_line_collect (table : SymbolTable) (before lines : List Bytes) :
    (collect (listed? table) before lines).Pairwise fun first second =>
      first.line < second.line := by
  induction lines generalizing before with
  | nil => exact .nil
  | cons line lines ih =>
      refine List.pairwise_append.2 ⟨?_, ih (before ++ [line]), ?_⟩
      · cases listed? table before line with
        | none => exact .nil
        | some entry => exact List.pairwise_singleton _ entry
      · intro first here second later
        have alone : first ∈ collect (listed? table) before [line] := by
          rw [collect, collect, List.append_nil]
          exact here
        have upper := (line_of_mem_collect alone).2
        have lower := (line_of_mem_collect later).1
        omega

/-- The entry is that of a line with `before` in front of it. -/
structure IsEntryOf (table : SymbolTable) (before line : Bytes) (entry : ListingEntry) : Prop where
  number : entry.line = before.count Byte.lineFeed + 1
  source : entry.source = Line.strip line
  word : IsWordOf table line entry.code

/-- The listing is that of the lines of a text that start before a place: each entry has its
line there, and each line with an instruction has its entry. -/
structure Lists (table : SymbolTable) (text : Bytes) (stop : Nat)
    (listing : List ListingEntry) : Prop where
  address : ∀ (index : Nat) (entry : ListingEntry), listing[index]? = some entry →
    entry.address = index
  increasing : listing.Pairwise fun first second => first.line < second.line
  origin : ∀ entry ∈ listing, ∃ before line rest, Line.IsLineOf text before line rest ∧
    before.length < stop ∧ (Command.ofLine line).emits = true ∧
    IsEntryOf table before line entry
  complete : ∀ before line rest, Line.IsLineOf text before line rest → before.length < stop →
    (Command.ofLine line).emits = true → ∃ entry ∈ listing, IsEntryOf table before line entry

/-- A line that is listed has its instruction. -/
theorem listed?_eq_some_iff {table : SymbolTable} {before : List Bytes} {line : Bytes}
    {entry : ListingEntry} :
    listed? table before line = some entry ↔
      ∃ instruction, (Command.ofLine line).instruction? table = some (.ok instruction) ∧
        entry = ⟨(Program.ofLines before).emitted, before.length + 1, Line.strip line,
          instruction.digits⟩ := by
  rw [listed?]
  cases (Command.ofLine line).instruction? table with
  | none => simp
  | some result => cases result <;> simp [eq_comm]

/-- A line that is refused has its fault. -/
theorem encodingFault?_eq_some_iff {table : SymbolTable} {before : List Bytes} {line : Bytes}
    {failure : Failure} :
    encodingFault? table before line = some failure ↔
      ∃ error, (Command.ofLine line).instruction? table = some (.error error) ∧
        failure = .syntaxError ⟨before.length + 1, Line.strip line, error.message⟩ := by
  rw [encodingFault?]
  cases (Command.ofLine line).instruction? table with
  | none => simp
  | some result => cases result <;> simp [eq_comm]

/-- A line that starts within the lines that were read is one of them. -/
theorem exists_read_eq {read unread above below : List Bytes} {line : Bytes}
    (same : above ++ line :: below = read ++ unread)
    (early : above.flatten.length < read.flatten.length) :
    ∃ later, read = above ++ line :: later := by
  obtain ⟨between, rfl, later⟩ | ⟨between, rfl, -⟩ := List.append_eq_append_iff.1 same
  · cases between with
    | nil => simp at early
    | cons first between =>
        obtain ⟨rfl, -⟩ := List.cons.inj later
        exact ⟨between, rfl⟩
  · rw [List.flatten_append, List.length_append] at early
    omega

theorem lists_collect {table : SymbolTable} {text : Bytes} {read unread : List Bytes}
    (lines : Line.split text = read ++ unread)
    (sound : collect (encodingFault? table) [] read = []) :
    Lists table text read.flatten.length (collect (listed? table) [] read) where
  address index entry place :=
    (address_of_getElem?_collect sound place).trans (Int.zero_add index)
  increasing := pairwise_line_collect table [] read
  origin := by
    intro entry member
    obtain ⟨above, line, below, rfl, listed⟩ := mem_collect_iff.1 member
    obtain ⟨instruction, encoded, rfl⟩ := listed?_eq_some_iff.1 listed
    rw [List.append_assoc] at lines
    obtain ⟨isLine, number⟩ := Line.isLineOf_of_split lines
    have some_byte : 0 < line.length := List.length_pos_iff.2 isLine.nonempty
    refine ⟨above.flatten, line, _, isLine, ?_, ?_, ?_, rfl, isWordOf_digits encoded⟩
    · simp only [List.flatten_append, List.flatten_cons, List.length_append]
      omega
    · rw [Command.emits_eq_isSome_instruction? table, encoded]
      rfl
    · rw [number]
      rfl
  complete := by
    intro before line rest isLine early emits
    obtain ⟨above, below, found, rfl⟩ := isLine.exists_split
    obtain ⟨later, rfl⟩ := exists_read_eq (found.symm.trans lines) early
    have number := (Line.isLineOf_of_split found).2
    have noFault := look_eq_none_of_collect_eq_nil sound
    rw [Command.emits_eq_isSome_instruction? table, Option.isSome_iff_exists] at emits
    obtain ⟨result, encoded⟩ := emits
    cases result with
    | error error => simp [encodingFault?, encoded] at noFault
    | ok instruction =>
        refine ⟨_, mem_collect_iff.2 ⟨above, line, later, rfl,
          listed?_eq_some_iff.2 ⟨instruction, encoded, rfl⟩⟩, ?_, rfl, isWordOf_digits encoded⟩
        rw [number]
        rfl

namespace Session

/-- Behind a first pass that went through, an assembly either succeeds, and then every line
with an instruction is listed, what is written is what is listed, and the counters stand at
the end of the listing and of the text; or it fails at a line whose command has no
instruction, and then the lines before that one are listed. -/
theorem lists_of_assemble {session middle : Session} {text : Bytes} {sink : Sink}
    {canceled : Bool} (valid : session.config.validate = .ok ())
    (passed : firstPass { content := text } canceled session = .ok () middle)
    (unlimited : sink.limit = none) :
    (∃ written final, assemble { content := text } sink canceled session = .ok written final ∧
      Lists final.table text text.length final.listing.toList ∧
      written.received.toList = sink.received.toList ++ outputOf final.listing.toList ∧
      final.instructions = final.listing.size ∧
      final.line = text.count Byte.lineFeed + if Line.IsClosed text then 0 else 1) ∨
    ∃ before line rest error final, Line.IsLineOf text before line rest ∧
      (Command.ofLine line).instruction? final.table = some (.error error) ∧
      assemble { content := text } sink canceled session =
        .error (.syntaxError ⟨before.count Byte.lineFeed + 1, Line.strip line, error.message⟩)
          final ∧
      Lists final.table text before.length final.listing.toList := by
  rw [assemble_of_firstPass valid rfl passed]
  obtain ⟨rfl, readable, clean, fits, rfl⟩ := firstPass_eq_ok_iff.1 passed
  generalize linked : session.linked _ = middle at *
  have sameTable (lines : List Bytes) : (middle.rewound.recorded [] lines).table = middle.table :=
    table_recorded middle.rewound [] lines
  have listing (lines : List Bytes) : (middle.rewound.recorded [] lines).listing.toList =
      collect (listed? middle.table) [] lines :=
    toList_listing_recorded middle.rewound [] lines
  have ready := ready_linked clean fits
  rw [linked] at ready
  obtain ⟨sound, written, done, received⟩ |
    ⟨failure, _, read, line, rest, -, lines, sound, fault, stopped⟩ :=
    secondPass_cases readable ready unlimited
  · have counted := middle.isAt_rewound.recorded (Line.split text)
    have lists := lists_collect (List.append_nil (Line.split text)).symm sound
    rw [Line.flatten_split] at lists
    refine .inl ⟨written, _, done, ?_, ?_, ?_, ?_⟩
    · rw [sameTable, listing]
      exact lists
    · rw [listing]
      exact received
    · rw [← Array.length_toList, listing, length_collect_listed? sound]
      exact counted.instructions
    · rw [← Line.length_split]
      exact counted.line
  · obtain ⟨isLine, number⟩ := Line.isLineOf_of_split lines
    obtain ⟨error, encoded, rfl⟩ := encodingFault?_eq_some_iff.1 fault
    have sameTable : ((middle.rewound.recorded [] read).count (Command.ofLine line)).table =
        middle.table := sameTable read
    rw [← number] at stopped
    refine .inr ⟨read.flatten, line, _, error, _, isLine, ?_, stopped, ?_⟩
    · rw [sameTable]
      exact encoded
    · rw [sameTable]
      show Lists _ _ _ (middle.rewound.recorded [] read).listing.toList
      rw [listing]
      exact lists_collect lines sound

/-- A text with a blank line, a comment and a last line that is left open, in a session that
has listed more before. -/
theorem lists_of_assemble_reused :
    ∃ text session middle written final,
      text = ascii "@i\r\n\n//x\nD=M\n0;JMP" ∧
      session = after (assemble { content := ascii "@1\n@2\n@3\n@4\n" } {} false) (new .default) ∧
      session.config.validate = .ok () ∧
      firstPass { content := text } false session = .ok () middle ∧
      assemble { content := text } {} false session = .ok written final ∧
      Lists final.table text text.length final.listing.toList ∧
      written.received.toList = outputOf final.listing.toList ∧
      final.instructions = final.listing.size ∧ final.line = 5 := by
  let reused := after (assemble { content := ascii "@1\n@2\n@3\n@4\n" } {} false) (new .default)
  have valid : reused.config.validate = .ok () := by decide +kernel
  have passes : failure? (firstPass { content := ascii "@i\r\n\n//x\nD=M\n0;JMP" } false) reused =
      none := by
    decide +kernel
  have unlimited : ({} : Sink).limit = none := rfl
  have succeeds : failure? (assemble { content := ascii "@i\r\n\n//x\nD=M\n0;JMP" } {} false)
      reused = none := by
    decide +kernel
  obtain ⟨⟨⟩, passed⟩ := exists_ok_of_failure?_eq_none passes
  obtain ⟨written, final, done, lists, received, instructions, line⟩ |
    ⟨_, _, _, _, _, -, -, failed, -⟩ := lists_of_assemble valid passed unlimited
  · exact ⟨_, reused, _, written, final, rfl, rfl, valid, passed, done, lists, received,
      instructions, line⟩
  · rw [failure?_of_error failed] at succeeds
    cases succeeds

end Session

end HackAssembler
