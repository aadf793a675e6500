/-
# Reading again what was kept of a line

A session keeps the stripped form of a line, in the error that rejects it and in the listing.
This module says what happens when that form is read in place of the line.

A line loses the terminator at its end first and its blanks afterwards. So a carriage return
that only blanks part from the end of the line is no terminator when the terminator is dropped,
and stands at the end once the blanks are gone. These are the only lines of which something is
kept that a second reading changes: all others are read again as they were read before. What was
listed is different again. The bytes of an instruction are never carriage returns, so such a
return can only stand in a comment, and the instruction is the same in every case.
-/

import HackAssembler.Proofs.Disassembly
import HackAssembler.Proofs.Grammar
import HackAssembler.Proofs.Layout

namespace HackAssembler

/-! ## Lines -/

namespace Line

/-- Without its terminator the line ends in a carriage return and blanks behind it. -/
def EndsInReturn (line : Bytes) : Prop :=
  ∃ front blanks terminator, line = front ++ Byte.carriageReturn :: (blanks ++ terminator) ∧
    blanks ≠ [] ∧ (∀ b ∈ blanks, isBlank b = true) ∧ ∀ b ∈ terminator, isTerminator b = true

/-- Nothing is dropped from the line when it is read. -/
structure IsNormal (line : Bytes) : Prop where
  noBlank : ∀ b ∈ line, isBlank b = false
  noTerminator : ∀ b ∈ line.getLast?, isTerminator b = false

theorem isTerminator_of_isBlank {b : UInt8} (blank : isBlank b = true) :
    isTerminator b = false := by
  rw [isBlank, Bool.or_eq_true, beq_iff_eq, beq_iff_eq] at blank
  obtain rfl | rfl := blank <;> rfl

theorem IsNormal.strip_eq {line : Bytes} (normal : IsNormal line) : strip line = line := by
  rw [strip, dropTerminator_eq_self normal.noTerminator, List.filter_eq_self]
  intro b member
  rw [normal.noBlank b member]
  rfl

/-- What is kept of a line has no blanks, so only terminator bytes can be dropped from it. -/
theorem strip_strip (line : Bytes) : strip (strip line) = dropTerminator (strip line) := by
  rw [strip, List.filter_eq_self]
  intro b member
  obtain ⟨terminator, whole, -⟩ := exists_terminator (strip line)
  have kept : b ∈ strip line := by
    rw [whole]
    exact List.mem_append_left _ member
  rw [isBlank_of_mem_strip kept]
  rfl

/-- What is kept of a line that was read twice is the same after every further reading. -/
theorem isNormal_strip_strip (line : Bytes) : IsNormal (strip (strip line)) where
  noBlank _ member := isBlank_of_mem_strip member
  noTerminator b last := by
    rw [strip_strip] at last
    exact isTerminator_getLast_dropTerminator last

/-- A carriage return is kept at the end exactly if blanks part it from the end of the line. -/
theorem endsInReturn_iff (line : Bytes) :
    EndsInReturn line ↔ (strip line).getLast? = some Byte.carriageReturn := by
  constructor
  · rintro ⟨front, blanks, terminator, rfl, nonempty, blank, proper⟩
    have noTerminator : ∀ b ∈ (front ++ Byte.carriageReturn :: blanks).getLast?,
        isTerminator b = false := by
      intro b last
      rw [List.getLast?_append, List.getLast?_cons, List.getLast?_eq_some_getLast nonempty] at last
      cases last
      exact isTerminator_of_isBlank (blank _ (List.getLast_mem nonempty))
    have dropped : blanks.filter (fun b => !isBlank b) = [] := by
      simpa using blank
    rw [← List.cons_append, ← List.append_assoc, strip_append proper, strip,
      dropTerminator_eq_self noTerminator, List.filter_append,
      List.filter_cons_of_pos (by decide), dropped, List.getLast?_concat]
  · intro last
    obtain ⟨kept, isKept⟩ := List.getLast?_eq_some_iff.1 last
    obtain ⟨terminator, whole, proper⟩ := exists_terminator line
    obtain ⟨left, right, isBody, -, isRight⟩ := List.filter_eq_append_iff.1 isKept
    obtain ⟨between, blanks, rfl, -, -, noneKept⟩ := List.filter_eq_cons_iff.1 isRight
    refine ⟨left ++ between, blanks, terminator, ?_, ?_, ?_, proper⟩
    · rw [whole, isBody]
      simp
    · -- without blanks the return would belong to the terminator
      rintro rfl
      have ends : (dropTerminator line).getLast? = some Byte.carriageReturn := by
        rw [isBody]
        simp
      exact absurd (isTerminator_getLast_dropTerminator ends) (by decide)
    · simpa using noneKept

instance (line : Bytes) : Decidable (EndsInReturn line) :=
  decidable_of_iff _ (endsInReturn_iff line).symm

/-- What is kept of a line is kept of itself, unless a carriage return is left at its end. -/
theorem isNormal_strip_iff {line : Bytes} (single : IsSingle line) :
    IsNormal (strip line) ↔ ¬ EndsInReturn line := by
  rw [endsInReturn_iff]
  constructor
  · intro normal ends
    exact absurd (normal.noTerminator _ ends) (by decide)
  · intro noReturn
    refine ⟨fun _ member => isBlank_of_mem_strip member, ?_⟩
    intro b last
    have other : b ≠ Byte.carriageReturn := by
      rintro rfl
      exact noReturn last
    have noFeed : b ≠ Byte.lineFeed := by
      rintro rfl
      exact lineFeed_not_mem_strip single (List.mem_of_getLast? last)
    simp [isTerminator, other, noFeed]

/-- The terminator of a line is that of its last part. -/
theorem dropTerminator_append_of_bare {front : Bytes}
    (bare : ∀ b ∈ front.getLast?, isTerminator b = false) (tail : Bytes) :
    dropTerminator (front ++ tail) = front ++ dropTerminator tail := by
  obtain ⟨terminator, whole, proper⟩ := exists_terminator tail
  have kept : dropTerminator (front ++ dropTerminator tail) = front ++ dropTerminator tail := by
    apply dropTerminator_eq_self
    intro b last
    rw [List.getLast?_append, Option.mem_def, Option.or_eq_some_iff] at last
    obtain last | ⟨-, last⟩ := last
    · exact isTerminator_getLast_dropTerminator last
    · exact bare b last
  calc dropTerminator (front ++ tail)
    _ = dropTerminator (front ++ dropTerminator tail ++ terminator) := by
      rw [List.append_assoc, ← whole]
    _ = front ++ dropTerminator tail := by rw [dropTerminator_append proper, kept]

/-- What is left of a comment without its terminator is a comment. -/
theorem isTail_dropTerminator {tail : Bytes} (proper : isTail tail = true) :
    isTail (dropTerminator tail) = true := by
  obtain rfl | ⟨remark, rfl⟩ := isTail_cases proper
  · rfl
  · have bare : ∀ b ∈ [Byte.slash, Byte.slash].getLast?, isTerminator b = false := by
      intro b last
      cases last
      rfl
    have kept := dropTerminator_append_of_bare bare remark
    rw [List.cons_append, List.singleton_append] at kept
    rw [kept]
    rfl

end Line

theorem Statement.ofLine_content_eq_iff (line : Bytes) :
    ofLine (ofLine line).content = ofLine line ↔ Line.IsNormal (Line.strip line) := by
  constructor
  · intro same
    have kept : Line.strip (Line.strip line) = Line.strip line := congrArg content same
    rw [← kept]
    exact Line.isNormal_strip_strip line
  · intro normal
    have kept := normal.strip_eq
    simp only [ofLine, kept]

/-- What is kept of a line, and what a second reading makes of it. -/
structure Statement.Rereads (line : Bytes) : Prop where
  clean : ∀ b ∈ (ofLine line).content, Line.isBlank b = false ∧ b ≠ Byte.lineFeed
  /-- The second reading is the first one. -/
  settled : ¬ Line.EndsInReturn line → Line.IsNormal (ofLine line).content ∧
    Line.strip (ofLine line).content = (ofLine line).content ∧
    ofLine (ofLine line).content = ofLine line
  /-- The second reading drops the carriage returns at the end. -/
  unsettled : Line.EndsInReturn line →
    (ofLine line).content.getLast? = some Byte.carriageReturn ∧
    Line.strip (ofLine line).content = Line.dropTerminator (ofLine line).content ∧
    ofLine (ofLine line).content ≠ ofLine line
  /-- The third reading is the second one. -/
  twice : Line.IsNormal (ofLine (ofLine line).content).content

theorem Statement.rereads_of_isSingle {line : Bytes} (single : Line.IsSingle line) :
    Rereads line where
  clean b member := by
    refine ⟨Line.isBlank_of_mem_strip member, ?_⟩
    rintro rfl
    exact Line.lineFeed_not_mem_strip single member
  settled settled := by
    have normal := (Line.isNormal_strip_iff single).2 settled
    exact ⟨normal, normal.strip_eq, (ofLine_content_eq_iff line).2 normal⟩
  unsettled ends := by
    refine ⟨(Line.endsInReturn_iff line).1 ends, Line.strip_strip line, ?_⟩
    intro same
    exact (Line.isNormal_strip_iff single).1 ((ofLine_content_eq_iff line).1 same) ends
  twice := Line.isNormal_strip_strip line

/-! ## Instructions -/

namespace Command

open Line

theorem ne_skip_of_instruction? {table : SymbolTable} {command : Command}
    {result : Except EncodingError Instruction} (encoded : command.instruction? table = some result) :
    command ≠ .skip := by
  rintro rfl
  cases encoded

theorem all_isPlain_of_operandFault? {operand : Bytes} (proper : operandFault? operand = none) :
    operand.all Byte.isPlain = true := by
  have plain : ∀ n : Fin 256, Byte.isSymbolChar (.ofFin n) = true →
      Byte.isPlain (.ofFin n) = true := by
    decide +kernel
  rw [List.all_eq_true]
  intro b member
  apply plain b.toFin
  obtain symbol | numeral := (Grammar.operandFault?_eq_none_iff operand).1 proper
  · exact isSymbolChar_of_isSymbol ((Grammar.isSymbol_iff operand).2 symbol) member
  · have digits := ((Grammar.isNumeral_iff operand).2 numeral).2
    rw [Byte.isSymbolChar, Bool.or_eq_true]
    exact .inr (List.all_eq_true.1 digits b member)

/-- A line that has an instruction is made of bytes that are read as they stand, and a
comment. -/
theorem exists_plain_append {table : SymbolTable} {line : Bytes} {instruction : Instruction}
    (encoded : (ofLine line).instruction? table = some (.ok instruction)) :
    ∃ front tail, strip line = front ++ tail ∧ front.all Byte.isPlain = true ∧
      isTail tail = true := by
  cases read : ofLine line with
  | skip | label name trailer | malformed reason =>
      rw [read] at encoded
      cases encoded
  | address operand trailer =>
      obtain ⟨whole, proper, comment⟩ := ofStripped_eq_address_iff.1 read
      refine ⟨Byte.atSign :: operand, trailer, whole, ?_, comment⟩
      rw [List.all_cons, all_isPlain_of_operandFault? proper]
      rfl
  | compute text trailer =>
      rw [read] at encoded
      obtain ⟨comment, comp, dest, jump, -, isText, -⟩ :=
        Instruction.ofCompute_eq_ok_iff.1 (Option.some.inj encoded)
      have plain := Instruction.all_isPlain_source (.compute comp dest jump)
      rw [Instruction.source, ← isText] at plain
      exact ⟨text, trailer, (ofStripped_eq_compute_iff_isCompute.1 read).whole, plain, comment⟩

/-- What is kept of a line that has an instruction has the same instruction, under every table:
the bytes that a second reading drops belong to a comment. -/
theorem instruction?_ofLine_strip {table : SymbolTable} {line : Bytes}
    {instruction : Instruction}
    (encoded : (ofLine line).instruction? table = some (.ok instruction))
    (other : SymbolTable) :
    (ofLine (strip line)).instruction? other = (ofLine line).instruction? other := by
  obtain ⟨front, tail, whole, plain, proper⟩ := exists_plain_append encoded
  have noSlash : Byte.slash ∉ front := fun member =>
    absurd (List.all_eq_true.1 plain _ member) (by decide)
  have bare : Line.bare (strip line) = Line.bare line := by
    rw [Line.bare, Line.bare, strip_strip, whole,
      dropTerminator_append_of_bare (isTerminator_getLast_of_plain plain),
      dropComment_append noSlash proper, dropComment_append noSlash (isTail_dropTerminator proper)]
  have echo := echoes_of_line_bare_eq bare
  have same (name : Bytes) : other.get? (Renaming.id name) = other.get? name := rfl
  obtain ⟨nothing, nothing'⟩ | ⟨instruction, emitted, emitted'⟩ |
    ⟨error, error', errors, failed, failed'⟩ := echo.instruction? same
  · rw [nothing, nothing']
  · rw [emitted, emitted']
  · rw [failed, failed', errors.eq]

end Command

/-! ## Sessions -/

namespace Session

variable {α β : Type} {session : Session}

/-! ### What is kept of the lines -/

/-- The content is what is kept of a line that the settings admit and that says something. -/
def IsKept (settings : Config) (lines : List Bytes) (content : Bytes) : Prop :=
  ∃ line ∈ lines, settings.Admits line ∧ Command.ofLine line ≠ .skip ∧ content = Line.strip line

/-- A syntax error holds what is kept of a line. -/
def Blames (settings : Config) (lines : List Bytes) : Failure → Prop
  | .syntaxError error => IsKept settings lines error.content
  | _ => True

/-- The entry holds what is kept of a line, and the digits of its instruction. -/
def IsListed (settings : Config) (lines : List Bytes) (entry : ListingEntry) : Prop :=
  ∃ line ∈ lines, settings.Admits line ∧ entry.source = Line.strip line ∧
    ∃ table instruction, (Command.ofLine line).instruction? table = some (.ok instruction) ∧
      entry.code = instruction.digits

/-- The settings are these, and what is listed was listed before or comes from the lines. -/
structure Records (settings : Config) (lines : List Bytes) (listed : Array ListingEntry)
    (session : Session) : Prop where
  config : session.config = settings
  entries : ∀ entry ∈ session.listing, entry ∈ listed ∨ IsListed settings lines entry

section Steps

variable {settings : Config} {lines : List Bytes} {listed : Array ListingEntry} {line : Bytes}

theorem ends_reject (records : Records settings lines listed session) (member : line ∈ lines)
    (admitted : settings.Admits line) (speaks : Command.ofLine line ≠ .skip) (message : Bytes) :
    Ends (Records settings lines listed) (Blames settings lines)
      (reject (Statement.ofLine line) message session : EStateM.Result _ _ α) :=
  ⟨records, line, member, admitted, speaks, rfl⟩

theorem ends_rejectEncoding (records : Records settings lines listed session)
    (member : line ∈ lines) (admitted : settings.Admits line)
    (speaks : Command.ofLine line ≠ .skip) (error : EncodingError) :
    Ends (Records settings lines listed) (Blames settings lines)
      (rejectEncoding (Statement.ofLine line) error session : EStateM.Result _ _ α) := by
  cases error with
  | unknownSymbol unknown => exact ⟨records, trivial⟩
  | _ => exact ends_reject records member admitted speaks _

theorem ensures_checkConfig :
    Ensures (Records settings lines listed) (Blames settings lines) checkConfig := by
  intro session records
  rw [checkConfig]
  cases session.config.validate with
  | ok _ => exact records
  | error error => exact ⟨records, trivial⟩

theorem ensures_checkCanceled (canceled : Bool) :
    Ensures (Records settings lines listed) (Blames settings lines) (checkCanceled canceled) := by
  intro session records
  cases canceled with
  | false => exact records
  | true => exact ⟨records, trivial⟩

theorem ensures_startFirstPass :
    Ensures (Records settings lines listed) (Blames settings lines)
      (modify startFirstPass : SessionM Unit) :=
  fun _ records => ⟨records.config, records.entries⟩

theorem ensures_expectEnd (source : Source) :
    Ensures (Records settings lines listed) (Blames settings lines) (expectEnd source) := by
  intro session records
  rw [expectEnd]
  cases source.readFault with
  | none => exact records
  | some fault => exact ⟨records, trivial⟩

theorem ensures_rewind (source : Source) :
    Ensures (Records settings lines listed) (Blames settings lines) (rewind source) := by
  intro session records
  rw [rewind]
  cases source.rewindFault with
  | none => exact ⟨records.config, fun entry member => absurd member (Array.not_mem_empty entry)⟩
  | some fault => exact ⟨records, trivial⟩

theorem ensures_finish (writer : BlockWriter) :
    Ensures (Records settings lines listed) (Blames settings lines) (finish writer) := by
  intro session records
  rw [finish]
  cases writer.finish with
  | ok sink => exact records
  | error fault => exact ⟨records, trivial⟩

theorem ensures_allocate (name : Bytes) :
    Ensures (Records settings lines listed) (Blames settings lines) (allocate name) := by
  intro session records
  rw [allocate]
  split
  · exact records
  · split
    · exact ⟨records.config, records.entries⟩
    · exact ⟨records, trivial⟩

/-- The first pass rejects a line with what is kept of it, and lists nothing. -/
theorem ensures_scanLine (member : line ∈ lines) :
    Ensures (Records settings lines listed) (Blames settings lines) (scanLine line) := by
  intro session records
  by_cases admitted : session.config.Admits line
  · rw [scanLine_of_fits (Int.not_lt.2 admitted)]
    rw [records.config] at admitted
    have counted : Records settings lines listed (session.count (Command.ofLine line)) :=
      ⟨records.config, records.entries⟩
    cases read : Command.ofLine line with
    | skip | compute text trailer =>
        rw [read] at counted
        exact counted
    | address operand trailer =>
        rw [read] at counted
        show Ends _ _ (noteOperand operand _)
        rw [noteOperand]
        split
        · exact ⟨counted.config, counted.entries⟩
        · exact counted
    | label name trailer =>
        rw [read] at counted
        show Ends _ _ (bindLabel (Statement.ofLine line) name _)
        rw [bindLabel]
        split
        · exact ⟨counted.config, counted.entries⟩
        · exact ends_reject counted member admitted (by simp [read]) _
    | malformed reason =>
        rw [read] at counted
        exact ends_reject counted member admitted (by simp [read]) _
  · rw [scanLine_of_long (Int.not_le.1 admitted)]
    exact ⟨⟨records.config, records.entries⟩, trivial⟩

theorem ensures_emit (writer : BlockWriter) (member : line ∈ lines)
    (admitted : settings.Admits line) {table : SymbolTable} {instruction : Instruction}
    (encoded : (Command.ofLine line).instruction? table = some (.ok instruction)) :
    Ensures (Records settings lines listed) (Blames settings lines)
      (emit writer (Statement.ofLine line) instruction) := by
  intro session records
  rw [emit]
  cases writer.write (instruction.digits ++ [Byte.lineFeed]) with
  | error fault => exact ⟨records, trivial⟩
  | ok next =>
      refine ⟨records.config, ?_⟩
      intro entry found
      obtain old | rfl := Array.mem_push.1 found
      · exact records.entries entry old
      · exact .inr ⟨line, member, admitted, rfl, table, instruction, encoded, rfl⟩

/-- The second pass rejects a line with what is kept of it, or lists just that. -/
theorem ensures_emitLine (writer : BlockWriter) (member : line ∈ lines) :
    Ensures (Records settings lines listed) (Blames settings lines) (emitLine writer line) := by
  intro session records
  by_cases admitted : session.config.Admits line
  · have counted : Records settings lines listed (session.count (Command.ofLine line)) :=
      ⟨records.config, records.entries⟩
    have admits := records.config ▸ admitted
    by_cases wrong : ∃ reason, Command.ofLine line = .malformed reason
    · obtain ⟨reason, read⟩ := wrong
      rw [emitLine_of_malformed writer admitted read]
      exact ends_reject (read ▸ counted) member admits (by simp [read]) _
    · rw [emitLine_of_fits writer (Int.not_lt.2 admitted) (not_exists.1 wrong)]
      cases encoded : (Command.ofLine line).instruction? session.table with
      | none => exact counted
      | some result =>
          cases result with
          | error error =>
              have speaks := Command.ne_skip_of_instruction? encoded
              exact ends_rejectEncoding counted member admits speaks error
          | ok instruction => exact ensures_emit writer member admits encoded _ counted
  · have refused : advance line session =
        .error (.lineTooLong (session.line + 1)) session.countRefused := by
      rw [advance_eq, if_pos (Int.not_le.1 admitted)]
    rw [emitLine, bind_of_error refused]
    exact ⟨⟨records.config, records.entries⟩, trivial⟩

theorem ensures_firstPass (source : Source) (canceled : Bool) :
    Ensures (Records settings source.lines listed) (Blames settings source.lines)
      (firstPass source canceled) := by
  apply Ensures.bind (ensures_checkCanceled canceled)
  intro _
  apply Ensures.bind ensures_startFirstPass
  intro _
  apply Ensures.bind (Ensures.forM fun line member => ensures_scanLine member)
  intro _
  apply Ensures.bind (ensures_expectEnd source)
  intro _ session records
  exact Ensures.forM (fun name _ => ensures_allocate name) session records

theorem ensures_secondPass (source : Source) (sink : Sink) (canceled : Bool) :
    Ensures (Records settings source.lines listed) (Blames settings source.lines)
      (secondPass source sink canceled) := by
  apply Ensures.bind (ensures_checkCanceled canceled)
  intro _
  apply Ensures.bind (Ensures.foldlM (fun writer line member => ensures_emitLine writer member) _)
  intro writer
  apply Ensures.bind (ensures_expectEnd source)
  intro _
  exact ensures_finish writer

/-- Whatever a run leaves behind of its source, it is what is kept of the lines. -/
theorem ensures_assemble (source : Source) (sink : Sink) (canceled : Bool) :
    Ensures (Records settings source.lines listed) (Blames settings source.lines)
      (assemble source sink canceled) := by
  apply Ensures.bind ensures_checkConfig
  intro _
  apply Ensures.bind (ensures_firstPass source canceled)
  intro _
  apply Ensures.bind (ensures_rewind source)
  intro _
  exact ensures_secondPass source sink canceled

/-- A second pass starts with an empty listing, so all it leaves there is from its lines. -/
theorem isListed_of_mem_secondPass {source : Source} {sink : Sink} {canceled : Bool}
    {entry : ListingEntry} (config : session.config = settings)
    (member : entry ∈ (after (secondPass source sink canceled) session.rewound).listing) :
    IsListed settings source.lines entry := by
  have start : Records settings source.lines #[] session.rewound :=
    ⟨config, fun entry member => absurd member (Array.not_mem_empty entry)⟩
  obtain old | new := ((ensures_secondPass source sink canceled).after start).entries entry member
  · exact absurd old (Array.not_mem_empty entry)
  · exact new

end Steps

/-! ### Reading it again -/

/-- Sessions with these settings make the same of the two lines, wherever they stand: in the
first pass, in the second one, and where the line is all of a source. -/
structure ReadAlike (settings : Config) (line other : Bytes) : Prop where
  scanned : ∀ session, session.config = settings → scanLine other session = scanLine line session
  emitted : ∀ session writer, session.config = settings →
    emitLine writer other session = emitLine writer line session
  assembled : ∀ session sink canceled, session.config = settings →
    assemble { content := other } sink canceled session =
      assemble { content := line } sink canceled session

section Alike

variable {settings : Config} {line other : Bytes}

/-- The settings are the same after a step that only records lines. -/
theorem bind_congr_of_ensures {step step' : SessionM α} {next next' : α → SessionM β}
    (lines : List Bytes)
    (ensures : Ensures (Records settings lines session.listing) (Blames settings lines) step)
    (config : session.config = settings) (first : step' session = step session)
    (rest : ∀ value reached, reached.config = settings → next' value reached = next value reached) :
    (step' >>= next') session = (step >>= next) session := by
  apply bind_congr first
  intro value reached done
  have ended := ensures session ⟨config, fun _ member => .inl member⟩
  rw [done] at ended
  exact rest value reached ended.config

section Passes

variable (one : Line.split line = [line]) (one' : Line.split other = [other])
  (scanned : ∀ session, session.config = settings →
    scanLine other session = scanLine line session)
  (emitted : ∀ session writer, session.config = settings →
    emitLine writer other session = emitLine writer line session)

include one one' scanned in
theorem firstPass_congr (canceled : Bool) (config : session.config = settings) :
    firstPass { content := other } canceled session =
      firstPass { content := line } canceled session := by
  have lines : ({ content := line } : Source).lines = [line] := one
  have lines' : ({ content := other } : Source).lines = [other] := one'
  rw [firstPass, firstPass, lines, lines']
  apply bind_congr_of_ensures [line] (ensures_checkCanceled canceled) config rfl
  intro _ reached config
  apply bind_congr_of_ensures [line] ensures_startFirstPass config rfl
  intro _ reached config
  have scans : [other].forM scanLine reached = [line].forM scanLine reached :=
    bind_congr (scanned reached config) fun _ _ _ => rfl
  exact bind_congr scans fun _ _ _ => rfl

include one one' emitted in
theorem secondPass_congr (sink : Sink) (canceled : Bool) (config : session.config = settings) :
    secondPass { content := other } sink canceled session =
      secondPass { content := line } sink canceled session := by
  have lines : ({ content := line } : Source).lines = [line] := one
  have lines' : ({ content := other } : Source).lines = [other] := one'
  rw [secondPass, secondPass, lines, lines']
  apply bind_congr_of_ensures [line] (ensures_checkCanceled canceled) config rfl
  intro _ reached config
  have emits : [other].foldlM emitLine { sink } reached = [line].foldlM emitLine { sink } reached :=
    bind_congr (emitted reached _ config) fun _ _ _ => rfl
  exact bind_congr emits fun _ _ _ => rfl

include one one' scanned emitted in
/-- A source of one line is assembled like another if the lines are read alike in both
passes. -/
theorem assemble_congr (sink : Sink) (canceled : Bool) (config : session.config = settings) :
    assemble { content := other } sink canceled session =
      assemble { content := line } sink canceled session := by
  rw [assemble, assemble]
  apply bind_congr_of_ensures [line] ensures_checkConfig config rfl
  intro _ reached config
  apply bind_congr_of_ensures _ (ensures_firstPass { content := line } canceled) config
    (firstPass_congr one one' scanned canceled config)
  intro _ reached config
  apply bind_congr_of_ensures [line] (ensures_rewind { content := line }) config rfl
  intro _ reached config
  exact secondPass_congr one one' emitted sink canceled config

end Passes

theorem readAlike_of_ofLine_eq (same : Statement.ofLine other = Statement.ofLine line)
    (admitted : settings.Admits line) (admitted' : settings.Admits other)
    (one : Line.split line = [line]) (one' : Line.split other = [other]) :
    ReadAlike settings line other := by
  have advanced (session : Session) (config : session.config = settings) :
      advance other session = advance line session := by
    have command : Command.ofLine other = Command.ofLine line := congrArg Statement.command same
    rw [← config] at admitted admitted'
    rw [advance_eq, advance_eq, if_neg (Int.not_lt.2 admitted), if_neg (Int.not_lt.2 admitted'),
      same, command]
  have scanned (session : Session) (config : session.config = settings) :
      scanLine other session = scanLine line session :=
    bind_congr (advanced session config) fun _ _ _ => rfl
  have emitted (session : Session) (writer : BlockWriter) (config : session.config = settings) :
      emitLine writer other session = emitLine writer line session :=
    bind_congr (advanced session config) fun _ _ _ => rfl
  exact ⟨scanned, emitted, fun _ => assemble_congr one one' scanned emitted⟩

/-- What is kept of a line is not longer than the line. -/
theorem admits_strip (admitted : settings.Admits line) : settings.Admits (Line.strip line) := by
  obtain ⟨terminator, whole, -⟩ := Line.exists_terminator (Line.strip line)
  have shorter : (Line.dropTerminator (Line.strip line)).length ≤
      (Line.dropTerminator line).length := by
    calc (Line.dropTerminator (Line.strip line)).length
      _ ≤ (Line.strip line).length := by
        rw [congrArg List.length whole, List.length_append]
        omega
      _ ≤ (Line.dropTerminator line).length := List.length_filter_le _ _
  rw [Config.Admits] at admitted ⊢
  omega

/-- What is kept of a line is read as the line is, if nothing is left to drop. -/
theorem readAlike_strip (single : Line.IsSingle line) (admitted : settings.Admits line)
    (speaks : Command.ofLine line ≠ .skip) (settled : ¬ Line.EndsInReturn line) :
    ReadAlike settings line (Line.strip line) := by
  have kept : Line.strip line ≠ [] := by
    intro empty
    apply speaks
    rw [Command.ofLine, Statement.ofLine, empty]
    rfl
  have nonempty : line ≠ [] := by
    rintro rfl
    exact kept rfl
  have same := (Statement.ofLine_content_eq_iff line).2 ((Line.isNormal_strip_iff single).2 settled)
  exact readAlike_of_ofLine_eq same admitted (admits_strip admitted)
    (Line.split_of_isSingle single nonempty)
    (Line.split_of_open (Line.lineFeed_not_mem_strip single) kept)

end Alike

/-- What is kept of a line has neither blanks nor line feeds. It is read again as the line was
read, unless the line, without its terminator, ended in a carriage return and blanks behind it.
Then the return is kept at the end, and a second reading drops it; there is nothing left for a
third one to drop.

In a run, what a syntax error holds is kept of a line of the source, and is read as this line
is wherever a session with the same settings meets it, with the same exception. A run that ends
before its second pass leaves the listing as it was. In the listing of any other run, what an
entry holds is kept of a line of the source and read as this line is, again with the exception;
and the instruction of the entry is the same without any exception. -/
theorem rereads_of_kept (session : Session) (source : Source) (sink : Sink) (canceled : Bool) :
    (∀ line, Line.IsSingle line → Statement.Rereads line) ∧
    (∀ error, failure? (assemble source sink canceled) session = some (.syntaxError error) →
      ∃ line ∈ source.lines, Line.IsSingle line ∧
        error.content = (Statement.ofLine line).content ∧
        (¬ Line.EndsInReturn line → ReadAlike session.config line error.content)) ∧
    ((after (assemble source sink canceled) session).listing = session.listing ∨
      ∀ entry ∈ (after (assemble source sink canceled) session).listing,
        ∃ line ∈ source.lines, Line.IsSingle line ∧
          entry.source = (Statement.ofLine line).content ∧
          (¬ Line.EndsInReturn line → ReadAlike session.config line entry.source) ∧
          (∃ table instruction, (Command.ofLine line).instruction? table = some (.ok instruction) ∧
            entry.code = instruction.digits) ∧
          ∀ table, (Command.ofLine entry.source).instruction? table =
            (Command.ofLine line).instruction? table) := by
  have start : Records session.config source.lines session.listing session :=
    ⟨rfl, fun _ member => .inl member⟩
  refine ⟨fun _ single => Statement.rereads_of_isSingle single, ?_, ?_⟩
  · intro error failed
    have blames := (ensures_assemble source sink canceled).failure? start failed
    obtain ⟨line, member, admitted, speaks, content⟩ := blames
    have single := Source.isSingle_of_mem_lines member
    refine ⟨line, member, single, content, ?_⟩
    rw [content]
    exact readAlike_strip single admitted speaks
  · obtain ⟨failure, reached, kept, fails⟩ | ⟨middle, passed, continues⟩ :=
      assemble_cases source canceled session
    · left
      rw [after_of_error (fails sink)]
      exact kept
    · right
      intro entry member
      rw [after, continues, ← after] at member
      obtain ⟨-, -, -, -, rfl⟩ := firstPass_eq_ok_iff.1 passed
      obtain ⟨line, member, admitted, content, table, instruction, encoded, code⟩ :=
        isListed_of_mem_secondPass (config_linked session source.lines) member
      have single := Source.isSingle_of_mem_lines member
      have speaks := Command.ne_skip_of_instruction? encoded
      refine ⟨line, member, single, content, ?_, ⟨table, instruction, encoded, code⟩, ?_⟩
      · rw [content]
        exact readAlike_strip single admitted speaks
      · rw [content]
        exact Command.instruction?_ofLine_strip encoded

/-- The first of two lines is listed with a carriage return that belongs to no terminator, and
has its instruction all the same. The second one is rejected for what it says, and so is what
the error holds. -/
theorem rereads_of_kept_comment :
    ∃ (session : Session) (source : Source) (error : SyntaxError) (entry : ListingEntry),
      session = new .default ∧ source = { content := ascii " @ 5 // five\r \nD = Q\t\r\n" } ∧
      failure? (assemble source {} false) session = some (.syntaxError error) ∧
      error.content = ascii "D=Q" ∧
      ReadAlike session.config (ascii "D = Q\t\r\n") error.content ∧
      entry ∈ (after (assemble source {} false) session).listing ∧
      entry.source = ascii "@5//five\r" ∧
      Statement.Rereads (ascii " @ 5 // five\r \n") ∧
      ∀ table, (Command.ofLine entry.source).instruction? table =
        (Command.ofLine (ascii " @ 5 // five\r \n")).instruction? table := by
  have fresh : (new .default).listing = #[] := rfl
  have lines : ({ content := ascii " @ 5 // five\r \nD = Q\t\r\n" } : Source).lines =
      [ascii " @ 5 // five\r \n", ascii "D = Q\t\r\n"] := by
    decide
  have fails : ∃ error, failure? (assemble
      { content := ascii " @ 5 // five\r \nD = Q\t\r\n" } {} false) (new .default) =
        some (.syntaxError error) ∧ error.content = ascii "D=Q" := by
    refine ⟨⟨2, ascii "D=Q", (EncodingError.comp (ascii "D=Q")).message⟩, ?_, rfl⟩
    decide +kernel
  have lists : (after (assemble { content := ascii " @ 5 // five\r \nD = Q\t\r\n" } {} false)
      (new .default)).listing.toList.map ListingEntry.source = [ascii "@5//five\r"] := by
    decide +kernel
  generalize new .default = session,
    ({ content := ascii " @ 5 // five\r \nD = Q\t\r\n" } : Source) = source
    at fresh lines fails lists ⊢
  obtain ⟨error, failed, content⟩ := fails
  obtain ⟨entry, listing, isSource⟩ := List.map_eq_singleton_iff.1 lists
  have member : entry ∈ (after (assemble source {} false) session).listing := by
    rw [← Array.mem_toList_iff, listing]
    exact List.mem_singleton_self entry
  obtain ⟨rereads, rejected, listed⟩ := rereads_of_kept session source {} false
  have alike : ReadAlike session.config (ascii "D = Q\t\r\n") error.content := by
    obtain ⟨line, found, -, kept, alike⟩ := rejected error failed
    rw [lines, List.mem_pair] at found
    obtain rfl | rfl := found
    · rw [content] at kept
      exact absurd kept (by decide)
    · exact alike (by decide)
  have same : ∀ table, (Command.ofLine entry.source).instruction? table =
      (Command.ofLine (ascii " @ 5 // five\r \n")).instruction? table := by
    obtain untouched | listed := listed
    · rw [untouched, fresh] at member
      exact absurd member (Array.not_mem_empty entry)
    · obtain ⟨line, found, -, kept, -, -, same⟩ := listed entry member
      rw [lines, List.mem_pair] at found
      obtain rfl | rfl := found
      · exact same
      · rw [isSource] at kept
        exact absurd kept (by decide)
  exact ⟨session, source, error, entry, rfl, rfl, failed, content, alike, member, isSource,
    rereads _ (by decide), same⟩

/-- A carriage return in front of a blank is no terminator, but what is kept of the line ends
in it. The line is malformed, and what was kept of it is not. -/
theorem ofLine_content_ne_of_return :
    Line.IsSingle (ascii "@1\r \n") ∧
    Statement.ofLine (ascii "@1\r \n") = ⟨ascii "@1\r", .malformed .decimal⟩ ∧
    Statement.ofLine (ascii "@1\r") = ⟨ascii "@1", .address (ascii "1") []⟩ ∧
    Statement.ofLine (Statement.ofLine (ascii "@1\r \n")).content ≠
      Statement.ofLine (ascii "@1\r \n") ∧
    failure? (assemble { content := ascii "@1\r \n" } {} false) (new .default) =
      some (.syntaxError ⟨1, ascii "@1\r", Malformed.decimal.message⟩) ∧
    failure? (assemble { content := ascii "@1\r" } {} false) (new .default) = none := by
  refine ⟨by decide, by decide, by decide, by decide, ?_, ?_⟩
  · decide +kernel
  · decide +kernel

end Session

end HackAssembler
