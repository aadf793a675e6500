/-
# Texts that say the same

Two texts are aligned if they say the same line by line, where lines that say nothing may
stand anywhere in either of them, proper comments are not looked at, and the symbols of
the one text are consistently exchanged for those of the other. Two runs over aligned texts
then go hand in hand. They bind corresponding symbols to the same values, emit the same
words, and if one of them fails then so does the other, for the corresponding reason and at
the corresponding line. Both passes are compared one line at a time.
-/

import HackAssembler.Proofs.Assembly
import HackAssembler.Proofs.Comparison

namespace HackAssembler

/-- An exchange of symbols. Different symbols are exchanged for different ones, and what
does not start like a symbol is left as it is. -/
structure Renaming where
  rename : Bytes → Bytes
  injective : Function.Injective rename
  constant : ∀ text, Line.isSymbolic text = false → rename text = text

namespace Renaming

instance : CoeFun Renaming fun _ => Bytes → Bytes := ⟨rename⟩

/-- The exchange that leaves all symbols as they are. -/
protected def id : Renaming := ⟨fun name => name, fun _ _ same => same, fun _ _ => rfl⟩

/-- A symbol is exchanged for a symbol: what is no symbol is exchanged for itself only. -/
@[simp]
theorem isSymbolic_apply (ρ : Renaming) (text : Bytes) :
    Line.isSymbolic (ρ text) = Line.isSymbolic text := by
  cases symbolic : Line.isSymbolic text with
  | false => rw [ρ.constant text symbolic, symbolic]
  | true =>
      cases symbolic' : Line.isSymbolic (ρ text) with
      | true => rfl
      | false =>
          have same := ρ.injective (ρ.constant (ρ text) symbolic')
          rw [same, symbolic] at symbolic'
          cases symbolic'

end Renaming

/-- The second command says what the first one does, with its symbol exchanged. A comment
behind it may differ. -/
inductive Command.Echoes (ρ : Renaming) : Command → Command → Prop
  | skip : Echoes ρ .skip .skip
  | address {operand trailer trailer' : Bytes} :
      Echoes ρ (.address operand trailer) (.address (ρ operand) trailer')
  | compute {text trailer trailer' : Bytes}
      (comment : Line.isTail trailer' = Line.isTail trailer) :
      Echoes ρ (.compute text trailer) (.compute text trailer')
  | label {name trailer trailer' : Bytes} :
      Echoes ρ (.label name trailer) (.label (ρ name) trailer')
  | malformed {reason : Malformed} : Echoes ρ (.malformed reason) (.malformed reason)

/-- The second text says what the first one does, up to lines that say nothing. -/
inductive Aligned (ρ : Renaming) : List Bytes → List Bytes → Prop
  | nil : Aligned ρ [] []
  | left {line : Bytes} {lines lines' : List Bytes} (silent : Command.ofLine line = .skip)
      (rest : Aligned ρ lines lines') : Aligned ρ (line :: lines) lines'
  | right {line' : Bytes} {lines lines' : List Bytes} (silent : Command.ofLine line' = .skip)
      (rest : Aligned ρ lines lines') : Aligned ρ lines (line' :: lines')
  | both {line line' : Bytes} {lines lines' : List Bytes}
      (echo : Command.Echoes ρ (Command.ofLine line) (Command.ofLine line'))
      (rest : Aligned ρ lines lines') : Aligned ρ (line :: lines) (line' :: lines')

/-- The line is not longer than the settings allow. -/
def Config.Admits (config : Config) (line : Bytes) : Prop :=
  ((Line.dropTerminator line).length : Int) ≤ config.maxLineLength

instance (config : Config) (line : Bytes) : Decidable (config.Admits line) :=
  inferInstanceAs (Decidable (_ ≤ _))

/-! ## Places -/

/-- The number of lines that say anything. -/
def spoken (lines : List Bytes) : Nat := (Program.ofLines lines).countP (· != .skip)

/-- The numbers of two lines that belong together: both lines say something, and equally
many lines before them do. -/
inductive SamePlace : List Bytes → List Bytes → Nat → Nat → Prop
  | intro {before before' rest rest' : List Bytes} {line line' : Bytes}
      (speaks : Command.ofLine line ≠ .skip) (speaks' : Command.ofLine line' ≠ .skip)
      (rank : spoken before' = spoken before) :
      SamePlace (before ++ line :: rest) (before' ++ line' :: rest') (before.length + 1)
        (before'.length + 1)

theorem spoken_concat (lines : List Bytes) (line : Bytes) :
    spoken (lines ++ [line]) =
      spoken lines + if Command.ofLine line = .skip then 0 else 1 := by
  by_cases silent : Command.ofLine line = .skip
  · simp [spoken, Program.ofLines, silent]
  · simp [spoken, Program.ofLines, silent]

theorem Command.Echoes.skip_iff {ρ : Renaming} {command command' : Command}
    (echo : Echoes ρ command command') : command' = .skip ↔ command = .skip := by
  cases echo <;> simp

theorem Command.Echoes.malformed_iff {ρ : Renaming} {command command' : Command}
    (echo : Echoes ρ command command') (reason : Malformed) :
    command' = .malformed reason ↔ command = .malformed reason := by
  cases echo <;> simp

theorem Command.Echoes.emitted {ρ : Renaming} {command command' : Command}
    (echo : Echoes ρ command command') :
    Program.emitted [command'] = Program.emitted [command] := by
  cases echo <;> rfl

/-! ## Commands -/

/-- The second error is the first one, with its symbol exchanged. -/
inductive EncodingError.Echoes (ρ : Renaming) : EncodingError → EncodingError → Prop
  | same {error : EncodingError} (known : ∀ unknown, error ≠ .unknownSymbol unknown) :
      Echoes ρ error error
  | unknownSymbol (name : Bytes) : Echoes ρ (.unknownSymbol ⟨name⟩) (.unknownSymbol ⟨ρ name⟩)
  | symbolOutOfRange (name : Bytes) (value : Word) :
      Echoes ρ (.symbolOutOfRange name value) (.symbolOutOfRange (ρ name) value)

theorem EncodingError.Echoes.eq {error error' : EncodingError}
    (echo : Echoes Renaming.id error error') : error' = error := by
  cases echo <;> rfl

section Encoding

variable {ρ : Renaming} {table table' : SymbolTable}
  (same : ∀ name, table'.get? (ρ name) = table.get? name)

include same

theorem ofOperand_echo (operand : Bytes) :
    (∃ instruction, Instruction.ofOperand table operand = .ok instruction ∧
      Instruction.ofOperand table' (ρ operand) = .ok instruction) ∨
    ∃ error error', EncodingError.Echoes ρ error error' ∧
      Instruction.ofOperand table operand = .error error ∧
      Instruction.ofOperand table' (ρ operand) = .error error' := by
  cases symbolic : Line.isSymbolic operand with
  | true =>
      have symbolic' : Line.isSymbolic (ρ operand) = true := by simp [symbolic]
      rw [Instruction.ofOperand_of_symbolic table symbolic,
        Instruction.ofOperand_of_symbolic table' symbolic', same operand]
      cases table.get? operand with
      | none => exact .inr ⟨_, _, .unknownSymbol operand, rfl, rfl⟩
      | some value =>
          by_cases small : value.toNat ≤ maxAddress
          · simp only [small, if_true]
            exact .inl ⟨_, rfl, rfl⟩
          · simp only [small, if_false]
            exact .inr ⟨_, _, .symbolOutOfRange operand value, rfl, rfl⟩
  | false =>
      -- a constant does not depend on the table
      have constant : Instruction.ofOperand table' operand =
          Instruction.ofOperand table operand := by
        simp [Instruction.ofOperand, symbolic]
      rw [ρ.constant operand symbolic, constant]
      simp only [Instruction.ofOperand, symbolic, Bool.false_eq_true, if_false]
      cases Decimal.read? maxAddress operand with
      | some value => exact .inl ⟨_, rfl, rfl⟩
      | none =>
          refine .inr ⟨.constantOutOfRange operand, _, .same ?_, rfl, rfl⟩
          intro unknown same
          cases same

/-- Commands that say the same have the same instruction under tables that give their
symbols the same values. -/
theorem Command.Echoes.instruction? {command command' : Command}
    (echo : Echoes ρ command command') :
    (command.instruction? table = none ∧ command'.instruction? table' = none) ∨
    (∃ instruction, command.instruction? table = some (.ok instruction) ∧
      command'.instruction? table' = some (.ok instruction)) ∨
    ∃ error error', EncodingError.Echoes ρ error error' ∧
      command.instruction? table = some (.error error) ∧
      command'.instruction? table' = some (.error error') := by
  cases echo with
  | skip | label | malformed => exact .inl ⟨rfl, rfl⟩
  | @address operand trailer trailer' =>
      right
      simp only [Command.instruction?, Option.some.injEq]
      exact ofOperand_echo same operand
  | @compute text trailer trailer' comment =>
      right
      have computed : Instruction.ofCompute text trailer' = Instruction.ofCompute text trailer := by
        simp only [Instruction.ofCompute_eq, comment]
      simp only [Command.instruction?, Option.some.injEq, computed]
      cases result : Instruction.ofCompute text trailer with
      | ok instruction => exact .inl ⟨instruction, rfl, rfl⟩
      | error error =>
          refine .inr ⟨error, error, .same ?_, rfl, rfl⟩
          rintro unknown rfl
          exact Instruction.ofCompute_ne_unknownSymbol result

end Encoding

/-! ## Sessions side by side -/

/-- What an entry of a listing says about the machine code. -/
def ListingEntry.word (entry : ListingEntry) : Int × Bytes := (entry.address, entry.code)

namespace Session

/-- The second session knows what the first one does, with its symbols exchanged, and has
listed the same words. Where the two stand in their texts is left open. -/
structure Mirrors (ρ : Renaming) (settings : Config) (session session' : Session) : Prop where
  config : session.config = settings
  config' : session'.config = settings
  nextVariable : session'.nextVariable = session.nextVariable
  instructions : session'.instructions = session.instructions
  table : ∀ name, session'.table.get? (ρ name) = session.table.get? name
  references : session'.references.toList = session.references.toList.map ρ
  listing : session'.listing.toList.map ListingEntry.word =
    session.listing.toList.map ListingEntry.word

/-- The sessions mirror each other at the same place of their texts. -/
structure Abreast (ρ : Renaming) (settings : Config) (before before' : List Bytes)
    (session session' : Session) : Prop extends Mirrors ρ settings session session' where
  line : session.line = before.length
  line' : session'.line = before'.length
  rank : spoken before' = spoken before

end Session

/-- The second failure is the first one, with its symbol exchanged, at the same place of
another text. Without an exchange of symbols the wording is the same. -/
inductive Failure.Echoes (ρ : Renaming) (lines lines' : List Bytes) : Failure → Failure → Prop
  | config (error : ConfigError) : Echoes ρ lines lines' (.config error) (.config error)
  | canceled : Echoes ρ lines lines' .canceled .canceled
  | rewindFailed (fault : Bytes) :
      Echoes ρ lines lines' (.rewindFailed fault) (.rewindFailed fault)
  | writeFailed (fault : Bytes) : Echoes ρ lines lines' (.writeFailed fault) (.writeFailed fault)
  | outOfVariableMemory (name : Bytes) :
      Echoes ρ lines lines' (.outOfVariableMemory name) (.outOfVariableMemory (ρ name))
  | unknownSymbol {number number' : Nat} (name : Bytes)
      (place : SamePlace lines lines' number number') :
      Echoes ρ lines lines' (.unknownSymbol number ⟨name⟩) (.unknownSymbol number' ⟨ρ name⟩)
  | syntaxError {number number' : Nat} {content content' message message' : Bytes}
      (place : SamePlace lines lines' number number')
      (wording : ρ = Renaming.id → message' = message) :
      Echoes ρ lines lines' (.syntaxError ⟨number, content, message⟩)
        (.syntaxError ⟨number', content', message'⟩)

namespace Session

/-- The failures correspond, and so do the sessions behind them. -/
def FailAlike (ρ : Renaming) (settings : Config) (lines lines' : List Bytes)
    (failure failure' : Failure) (session session' : Session) : Prop :=
  Failure.Echoes ρ lines lines' failure failure' ∧ Mirrors ρ settings session session'

section Steps

variable {ρ : Renaming} {settings : Config} {session session' : Session}

theorem Mirrors.contains (mirrors : Mirrors ρ settings session session') (name : Bytes) :
    session'.table.contains (ρ name) = session.table.contains name := by
  rw [SymbolTable.contains_eq_isSome_get?, SymbolTable.contains_eq_isSome_get?, mirrors.table]

/-- Tables that give corresponding symbols the same values do so after one more binding. -/
theorem get?_bind_echo {table table' : SymbolTable}
    (same : ∀ name, table'.get? (ρ name) = table.get? name) (bound : Bytes) (value : Word)
    (name : Bytes) :
    (table'.bind (ρ bound) value).get? (ρ name) = (table.bind bound value).get? name := by
  simp only [SymbolTable.get?_bind, same, ρ.injective.eq_iff]

theorem toList_insert_echo {references references' : NameSequence}
    (same : references'.toList = references.toList.map ρ) (name : Bytes) :
    (references'.insert (ρ name)).toList = (references.insert name).toList.map ρ := by
  simp only [NameSequence.toList_insert, same, List.mem_map_of_injective ρ.injective]
  split
  · rfl
  · rw [List.map_append, List.map_singleton]

/-! ### Lines -/

variable {before before' : List Bytes} {line line' : Bytes}

/-- Lines that say the same are counted alike. -/
theorem Abreast.count (abreast : Abreast ρ settings before before' session session')
    (echo : Command.Echoes ρ (Command.ofLine line) (Command.ofLine line')) :
    Abreast ρ settings (before ++ [line]) (before' ++ [line'])
      (session.count (Command.ofLine line)) (session'.count (Command.ofLine line')) where
  config := abreast.config
  config' := abreast.config'
  nextVariable := abreast.nextVariable
  instructions := by simp only [Session.count, abreast.instructions, echo.emitted]
  table := abreast.table
  references := abreast.references
  listing := abreast.listing
  line := by simp [Session.count, abreast.line]
  line' := by simp [Session.count, abreast.line']
  rank := by
    rw [spoken_concat, spoken_concat, abreast.rank]
    simp only [echo.skip_iff]

theorem Abreast.countLeft (abreast : Abreast ρ settings before before' session session')
    (silent : Command.ofLine line = .skip) :
    Abreast ρ settings (before ++ [line]) before' (session.count .skip) session' :=
  { abreast with
    line := by simp [Session.count, abreast.line]
    rank := by rw [spoken_concat, if_pos silent, abreast.rank, Nat.add_zero] }

theorem Abreast.countRight (abreast : Abreast ρ settings before before' session session')
    (silent : Command.ofLine line' = .skip) :
    Abreast ρ settings before (before' ++ [line']) session (session'.count .skip) :=
  { abreast with
    line' := by simp [Session.count, abreast.line']
    rank := by rw [spoken_concat, if_pos silent, abreast.rank, Nat.add_zero] }

theorem matches_noteOperand {E : Failure → Failure → Session → Session → Prop}
    (abreast : Abreast ρ settings before before' session session') (operand : Bytes) :
    Matches (Abreast ρ settings before before') E (noteOperand operand session)
      (noteOperand (ρ operand) session') := by
  simp only [noteOperand, ρ.isSymbolic_apply, abreast.contains]
  split
  · exact .ok { abreast with references := toList_insert_echo abreast.references operand }
  · exact .ok abreast

/-- Where two lines that say something are met by sessions abreast of each other. -/
theorem Abreast.samePlace (abreast : Abreast ρ settings before before' session session')
    (rest rest' : List Bytes) (speaks : Command.ofLine line ≠ .skip)
    (speaks' : Command.ofLine line' ≠ .skip) :
    SamePlace (before ++ line :: rest) (before' ++ line' :: rest') (session.line + 1)
      (session'.line + 1) := by
  rw [abreast.line, abreast.line']
  exact .intro speaks speaks' abreast.rank

/-- What both sessions refuse at their current line, they refuse alike. -/
theorem matches_reject {α : Type} {lines lines' : List Bytes} {statement statement' : Statement}
    {message message' : Bytes} (mirrors : Mirrors ρ settings session session')
    (place : SamePlace lines lines' session.line session'.line)
    (wording : ρ = Renaming.id → message' = message) (P : Session → Session → Prop) :
    Matches P (FailAlike ρ settings lines lines')
      ((reject statement message : SessionM α) session)
      ((reject statement' message' : SessionM α) session') :=
  .error ⟨.syntaxError place wording, mirrors⟩

theorem matches_bindLabel {lines lines' : List Bytes} {statement statement' : Statement}
    (abreast : Abreast ρ settings before before' session session')
    (place : SamePlace lines lines' session.line session'.line) (name : Bytes) :
    Matches (Abreast ρ settings before before') (FailAlike ρ settings lines lines')
      (bindLabel statement name session) (bindLabel statement' (ρ name) session') := by
  rw [bindLabel, bindLabel, abreast.instructions]
  split
  · exact .ok { abreast with
      instructions := rfl
      table := get?_bind_echo abreast.table name _ }
  · apply matches_reject abreast.toMirrors place
    rintro rfl
    rfl

/-- Lines that say the same are scanned alike. -/
theorem matches_scanLine (rest rest' : List Bytes)
    (abreast : Abreast ρ settings before before' session session')
    (short : settings.Admits line) (short' : settings.Admits line')
    (echo : Command.Echoes ρ (Command.ofLine line) (Command.ofLine line')) :
    Matches (Abreast ρ settings (before ++ [line]) (before' ++ [line']))
      (FailAlike ρ settings (before ++ line :: rest) (before' ++ line' :: rest'))
      (scanLine line session) (scanLine line' session') := by
  have counted := abreast.count echo
  rw [← abreast.config] at short
  rw [← abreast.config'] at short'
  rw [scanLine_of_fits (Int.not_lt.2 short), scanLine_of_fits (Int.not_lt.2 short')]
  have place (speaks : Command.ofLine line ≠ .skip) (speaks' : Command.ofLine line' ≠ .skip) :=
    abreast.samePlace rest rest' speaks speaks'
  generalize Command.ofLine line = command, Command.ofLine line' = command' at *
  cases echo with
  | skip | compute => exact .ok counted
  | malformed => exact matches_reject counted.toMirrors (place nofun nofun) (fun _ => rfl) _
  | @address operand trailer trailer' => exact matches_noteOperand counted operand
  | @label name trailer trailer' => exact matches_bindLabel counted (place nofun nofun) name

theorem matches_emit {lines lines' : List Bytes} {statement statement' : Statement}
    (abreast : Abreast ρ settings before before' session session') (writer : BlockWriter)
    (instruction : Instruction) :
    Matches (Abreast ρ settings before before') (FailAlike ρ settings lines lines')
      (emit writer statement instruction session)
      (emit writer statement' instruction session') := by
  simp only [emit]
  cases writer.write (instruction.digits ++ [Byte.lineFeed]) with
  | error fault => exact .error ⟨.writeFailed fault, abreast.toMirrors⟩
  | ok next =>
      refine .ok { abreast with listing := ?_ }
      simp [abreast.listing, abreast.instructions, ListingEntry.word]

theorem matches_rejectEncoding {α : Type} {lines lines' : List Bytes}
    {statement statement' : Statement} {error error' : EncodingError}
    (echo : EncodingError.Echoes ρ error error') (mirrors : Mirrors ρ settings session session')
    (place : SamePlace lines lines' session.line session'.line) (P : Session → Session → Prop) :
    Matches P (FailAlike ρ settings lines lines')
      ((rejectEncoding statement error : SessionM α) session)
      ((rejectEncoding statement' error' : SessionM α) session') := by
  have wording : ρ = Renaming.id → error'.message = error.message := by
    rintro rfl
    rw [echo.eq]
  cases echo with
  | same known =>
      rw [rejectEncoding_of_known known, rejectEncoding_of_known known]
      exact matches_reject mirrors place wording P
  | unknownSymbol name => exact .error ⟨.unknownSymbol name place, mirrors⟩
  | symbolOutOfRange name value => exact matches_reject mirrors place wording P

theorem emitLine_of_malformed {reason : Malformed} (writer : BlockWriter)
    (short : session.config.Admits line)
    (read : Command.ofLine line = .malformed reason) :
    emitLine writer line session =
      reject (Statement.ofLine line) reason.message (session.count (.malformed reason)) := by
  have advanced : advance line session =
      .ok (Statement.ofLine line) (session.count (Command.ofLine line)) := by
    rw [advance_eq, if_neg (Int.not_lt.2 short)]
  have command : (Statement.ofLine line).command = .malformed reason := read
  rw [emitLine, bind_of_ok advanced, read]
  simp only [command]

/-- Lines that say the same are emitted alike. -/
theorem matches_emitLine (rest rest' : List Bytes) (writer : BlockWriter)
    (abreast : Abreast ρ settings before before' session session')
    (short : settings.Admits line) (short' : settings.Admits line')
    (echo : Command.Echoes ρ (Command.ofLine line) (Command.ofLine line')) :
    Matches (Abreast ρ settings (before ++ [line]) (before' ++ [line']))
      (FailAlike ρ settings (before ++ line :: rest) (before' ++ line' :: rest'))
      (emitLine writer line session) (emitLine writer line' session') := by
  have counted := abreast.count echo
  have place (speaks : Command.ofLine line ≠ .skip) (speaks' : Command.ofLine line' ≠ .skip) :=
    abreast.samePlace rest rest' speaks speaks'
  rw [← abreast.config] at short
  rw [← abreast.config'] at short'
  by_cases wrong : ∃ reason, Command.ofLine line = .malformed reason
  · obtain ⟨reason, read⟩ := wrong
    have read' := (echo.malformed_iff reason).2 read
    rw [emitLine_of_malformed writer short read, emitLine_of_malformed writer short' read']
    rw [read, read'] at counted place
    exact matches_reject counted.toMirrors (place nofun nofun) (fun _ => rfl) _
  · have wellFormed (reason : Malformed) : Command.ofLine line ≠ .malformed reason :=
      fun read => wrong ⟨reason, read⟩
    have wellFormed' (reason : Malformed) : Command.ofLine line' ≠ .malformed reason :=
      fun read => wrong ⟨reason, (echo.malformed_iff reason).1 read⟩
    rw [emitLine_of_fits writer (Int.not_lt.2 short) wellFormed,
      emitLine_of_fits writer (Int.not_lt.2 short') wellFormed']
    rcases echo.instruction? abreast.table with
      ⟨nothing, nothing'⟩ | ⟨instruction, emitted, emitted'⟩ |
      ⟨error, error', errors, failed, failed'⟩
    · rw [nothing, nothing']
      exact .ok counted
    · rw [emitted, emitted']
      exact matches_emit counted writer instruction
    · rw [failed, failed']
      have speaks : Command.ofLine line ≠ .skip := fun silent => by
        rw [silent] at failed
        cases failed
      exact matches_rejectEncoding errors counted.toMirrors
        (place speaks (mt echo.skip_iff.1 speaks)) _

end Steps

/-! ### Texts -/

section Texts

variable {ρ : Renaming} {settings : Config} {lines lines' : List Bytes}
  {session session' : Session}

/-- A loop goes over aligned texts alike, if it passes over lines that say nothing and
treats lines that say the same alike. -/
theorem matches_foldlM_of_aligned {β : Type} {body : β → Bytes → SessionM β}
    (passes : ∀ carried line session, session.config.Admits line →
      Command.ofLine line = .skip → body carried line session = .ok carried (session.count .skip))
    (each : ∀ carried before before' line line' rest rest' session session',
      Abreast ρ settings before before' session session' →
      settings.Admits line → settings.Admits line' →
      Command.Echoes ρ (Command.ofLine line) (Command.ofLine line') →
      Matches (Abreast ρ settings (before ++ [line]) (before' ++ [line']))
        (FailAlike ρ settings (before ++ line :: rest) (before' ++ line' :: rest'))
        (body carried line session) (body carried line' session'))
    (aligned : Aligned ρ lines lines')
    (short : ∀ line ∈ lines, settings.Admits line)
    (short' : ∀ line ∈ lines', settings.Admits line)
    {before before' : List Bytes} (start : β)
    (abreast : Abreast ρ settings before before' session session') :
    Matches (Abreast ρ settings (before ++ lines) (before' ++ lines'))
      (FailAlike ρ settings (before ++ lines) (before' ++ lines'))
      (lines.foldlM body start session) (lines'.foldlM body start session') := by
  induction aligned generalizing before before' start session session' with
  | nil =>
      rw [List.append_nil, List.append_nil]
      exact .ok abreast
  | @left line lines lines' silent rest ih =>
      have shortHere := short line List.mem_cons_self
      rw [← abreast.config] at shortHere
      have passed := passes start line session shortHere silent
      have tail := ih (fun later member => short later (List.mem_cons_of_mem line member)) short'
        start (abreast.countLeft silent)
      rw [List.append_assoc] at tail
      rw [List.foldlM_cons, bind_of_ok passed]
      exact tail
  | @right line' lines lines' silent rest ih =>
      have shortHere := short' line' List.mem_cons_self
      rw [← abreast.config'] at shortHere
      have passed := passes start line' session' shortHere silent
      have tail := ih short (fun later member => short' later (List.mem_cons_of_mem line' member))
        start (abreast.countRight silent)
      rw [List.append_assoc] at tail
      rw [List.foldlM_cons, bind_of_ok passed]
      exact tail
  | @both line line' lines lines' echo rest ih =>
      have head := each start before before' line line' lines lines' session session' abreast
        (short line List.mem_cons_self) (short' line' List.mem_cons_self) echo
      rw [List.foldlM_cons, List.foldlM_cons]
      refine head.bind fun value s t abreast => ?_
      have tail := ih (fun later member => short later (List.mem_cons_of_mem line member))
        (fun later member => short' later (List.mem_cons_of_mem line' member)) value abreast
      rw [List.append_assoc, List.append_assoc] at tail
      exact tail

theorem scanLine_of_silent {line : Bytes} (short : session.config.Admits line)
    (silent : Command.ofLine line = .skip) :
    scanLine line session = .ok () (session.count .skip) := by
  rw [scanLine_of_fits (Int.not_lt.2 short), silent]
  rfl

theorem emitLine_of_silent {line : Bytes} (writer : BlockWriter)
    (short : session.config.Admits line) (silent : Command.ofLine line = .skip) :
    emitLine writer line session = .ok writer (session.count .skip) := by
  rw [emitLine_of_fits writer (Int.not_lt.2 short) (by simp [silent]), silent]
  rfl

theorem matches_forM_scanLine (aligned : Aligned ρ lines lines')
    (short : ∀ line ∈ lines, settings.Admits line)
    (short' : ∀ line ∈ lines', settings.Admits line)
    (abreast : Abreast ρ settings [] [] session session') :
    Matches (Abreast ρ settings lines lines') (FailAlike ρ settings lines lines')
      (lines.forM scanLine session) (lines'.forM scanLine session') := by
  rw [forM_eq_foldlM, forM_eq_foldlM]
  refine matches_foldlM_of_aligned ?_ ?_ aligned short short' () abreast
  · intro _ line session short silent
    exact scanLine_of_silent short silent
  · intro _ before before' line line' rest rest' session session' abreast short short' echo
    exact matches_scanLine rest rest' abreast short short' echo

theorem matches_foldlM_emitLine (aligned : Aligned ρ lines lines')
    (short : ∀ line ∈ lines, settings.Admits line)
    (short' : ∀ line ∈ lines', settings.Admits line) (writer : BlockWriter)
    (abreast : Abreast ρ settings [] [] session session') :
    Matches (Abreast ρ settings lines lines') (FailAlike ρ settings lines lines')
      (lines.foldlM emitLine writer session) (lines'.foldlM emitLine writer session') := by
  refine matches_foldlM_of_aligned ?_ ?_ aligned short short' writer abreast
  · intro writer line session short silent
    exact emitLine_of_silent writer short silent
  · intro writer before before' line line' rest rest' session session' abreast short short' echo
    exact matches_emitLine rest rest' writer abreast short short' echo

/-! ### Variables -/

theorem matches_allocate (mirrors : Mirrors ρ settings session session') (name : Bytes) :
    Matches (Mirrors ρ settings) (FailAlike ρ settings lines lines')
      (allocate name session) (allocate (ρ name) session') := by
  simp only [allocate, mirrors.contains, mirrors.nextVariable]
  split
  · exact .ok mirrors
  · split
    · exact .ok { mirrors with
        nextVariable := rfl
        table := get?_bind_echo mirrors.table name _ }
    · exact .error ⟨.outOfVariableMemory name, mirrors⟩

theorem matches_allocateVariables (mirrors : Mirrors ρ settings session session') :
    Matches (Mirrors ρ settings) (FailAlike ρ settings lines lines')
      (allocateVariables session) (allocateVariables session') := by
  show Matches _ _ (session.references.toList.forM allocate session)
    (session'.references.toList.forM allocate session')
  have paired : List.Forall₂ (fun name name' => name' = ρ name) session.references.toList
      session'.references.toList := by
    rw [mirrors.references, List.forall₂_map_right_iff]
    exact List.forall₂_same.2 fun _ _ => rfl
  refine Matches.forM ?_ paired mirrors
  rintro name _ rfl s t mirrors
  exact matches_allocate mirrors name

/-! ### Passes -/

theorem matches_checkCanceled (mirrors : Mirrors ρ settings session session') (canceled : Bool) :
    Matches (Mirrors ρ settings) (FailAlike ρ settings lines lines')
      (checkCanceled canceled session) (checkCanceled canceled session') := by
  cases canceled with
  | false => exact .ok mirrors
  | true => exact .error ⟨.canceled, mirrors⟩

theorem matches_checkConfig (mirrors : Mirrors ρ settings session session') :
    Matches (Mirrors ρ settings) (FailAlike ρ settings lines lines')
      (checkConfig session) (checkConfig session') := by
  simp only [checkConfig, mirrors.config, mirrors.config']
  cases settings.validate with
  | ok _ => exact .ok mirrors
  | error error => exact .error ⟨.config error, mirrors⟩

theorem matches_finish (mirrors : Mirrors ρ settings session session') (writer : BlockWriter) :
    Matches (Mirrors ρ settings) (FailAlike ρ settings lines lines')
      (finish writer session) (finish writer session') := by
  simp only [finish]
  cases writer.finish with
  | ok sink => exact .ok mirrors
  | error fault => exact .error ⟨.writeFailed fault, mirrors⟩

variable {text text' : Bytes} (aligned : Aligned ρ (Line.split text) (Line.split text'))
  (short : ∀ line ∈ Line.split text, settings.Admits line)
  (short' : ∀ line ∈ Line.split text', settings.Admits line)

include aligned short short'

theorem matches_firstPass (mirrors : Mirrors ρ settings session session') (canceled : Bool) :
    Matches (Mirrors ρ settings) (FailAlike ρ settings (Line.split text) (Line.split text'))
      (firstPass { content := text } canceled session)
      (firstPass { content := text' } canceled session') := by
  refine (matches_checkCanceled mirrors canceled).bind fun _ s t mirrors => ?_
  have start : Abreast ρ settings [] [] s.startFirstPass t.startFirstPass :=
    { mirrors with instructions := rfl, references := rfl, line := rfl, line' := rfl, rank := rfl }
  refine (matches_forM_scanLine aligned short short' start).bind fun _ s t abreast => ?_
  exact matches_allocateVariables abreast.toMirrors

theorem matches_secondPass (mirrors : Mirrors ρ settings session session') (sink : Sink)
    (canceled : Bool) :
    Matches (Mirrors ρ settings) (FailAlike ρ settings (Line.split text) (Line.split text'))
      (secondPass { content := text } sink canceled session.rewound)
      (secondPass { content := text' } sink canceled session'.rewound) := by
  have start : Abreast ρ settings [] [] session.rewound session'.rewound :=
    { mirrors with instructions := rfl, listing := rfl, line := rfl, line' := rfl, rank := rfl }
  cases canceled with
  | true => exact .error ⟨.canceled, start.toMirrors⟩
  | false =>
      refine (matches_foldlM_emitLine aligned short short' { sink } start).bind
        fun writer s t abreast => ?_
      exact matches_finish abreast.toMirrors writer

/-- Runs over aligned texts match, whatever they write to. -/
theorem matches_assemble (mirrors : Mirrors ρ settings session session') (sink : Sink)
    (canceled : Bool) :
    Matches (Mirrors ρ settings) (FailAlike ρ settings (Line.split text) (Line.split text'))
      (assemble { content := text } sink canceled session)
      (assemble { content := text' } sink canceled session') := by
  refine (matches_checkConfig mirrors).bind fun _ s t mirrors => ?_
  refine (matches_firstPass aligned short short' mirrors canceled).bind fun _ s t mirrors => ?_
  rw [bind_of_ok (rewind_of_intact rfl s), bind_of_ok (rewind_of_intact rfl t)]
  exact matches_secondPass aligned short short' mirrors sink canceled

end Texts

end Session

end HackAssembler
