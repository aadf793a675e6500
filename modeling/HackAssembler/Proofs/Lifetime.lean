/-
# The life of a session

A session is called again and again, with different sources and sinks, and each call may
be canceled, meet a fault or stop anywhere in between. Whatever happens, its symbols have
changed by steps of the two kinds alone. This is shown once, for every part of every
call, and holds of a failed part as well, since it is stated of the session that is left
behind. From it follows what is true of the symbols of a session at all times.
-/

import HackAssembler.Proofs.Scanning
import HackAssembler.Proofs.Symbols

namespace HackAssembler

/-- What can be asked of a session. A run that is canceled between its two passes leaves
behind what a first pass, a rewind and a canceled second pass do. -/
inductive Call
  | assemble (source : Source) (sink : Sink) (canceled : Bool)
  | firstPass (source : Source) (canceled : Bool)
  | rewind (source : Source)
  | secondPass (source : Source) (sink : Sink) (canceled : Bool)

namespace Session

/-- The session behind a call, whether or not the call fails. -/
def call (session : Session) : Call → Session
  | .assemble source sink canceled => after (assemble source sink canceled) session
  | .firstPass source canceled => after (firstPass source canceled) session
  | .rewind source => after (rewind source) session
  | .secondPass source sink canceled => after (secondPass source sink canceled) session

/-- The session behind a sequence of calls. -/
def calls (session : Session) (sequence : List Call) : Session := sequence.foldl call session

/-- What a session knows about symbols. -/
def symbols (session : Session) : Symbols := ⟨session.table, session.nextVariable⟩

/-- The symbols of a session came about by steps from `origin`, and the names that it has
noted are symbols. -/
structure ReachedFrom (origin : Symbols) (session : Session) : Prop where
  leads : origin.Leads session.symbols
  noted : ∀ name ∈ session.references.toList, Line.isSymbol name = true

section Steps

variable {α : Type} {origin : Symbols}

theorem preserves_of_kept {step : SessionM α}
    (kept : ∀ session, (after step session).symbols = session.symbols ∧
      (after step session).references = session.references) :
    Preserves (ReachedFrom origin) step := by
  intro session reached
  obtain ⟨sameSymbols, sameReferences⟩ := kept session
  constructor
  · rw [sameSymbols]
    exact reached.leads
  · rw [sameReferences]
    exact reached.noted

theorem preserves_checkCanceled (canceled : Bool) :
    Preserves (ReachedFrom origin) (checkCanceled canceled) := by
  apply preserves_of_kept
  intro session
  cases canceled <;> exact ⟨rfl, rfl⟩

theorem preserves_expectEnd (source : Source) :
    Preserves (ReachedFrom origin) (expectEnd source) := by
  apply preserves_of_kept
  intro session
  rw [after, expectEnd]
  cases source.readFault <;> exact ⟨rfl, rfl⟩

theorem preserves_reject (statement : Statement) (message : Bytes) :
    Preserves (ReachedFrom origin) (reject statement message : SessionM α) :=
  preserves_of_kept fun _ => ⟨rfl, rfl⟩

theorem preserves_advance (line : Bytes) :
    Preserves (ReachedFrom origin) (advance line) := by
  apply preserves_of_kept
  intro session
  rw [after, advance_eq]
  by_cases long : session.config.maxLineLength < ((Line.dropTerminator line).length : Int)
  · rw [if_pos long]
    exact ⟨rfl, rfl⟩
  · rw [if_neg long]
    exact ⟨rfl, rfl⟩

theorem preserves_emit (writer : BlockWriter) (statement : Statement)
    (instruction : Instruction) :
    Preserves (ReachedFrom origin) (emit writer statement instruction) := by
  apply preserves_of_kept
  intro session
  simp only [after, emit]
  cases writer.write (instruction.digits ++ [Byte.lineFeed]) <;> exact ⟨rfl, rfl⟩

theorem preserves_finish (writer : BlockWriter) :
    Preserves (ReachedFrom origin) (finish writer) := by
  apply preserves_of_kept
  intro session
  rw [after, finish]
  cases writer.finish <;> exact ⟨rfl, rfl⟩

theorem preserves_rejectEncoding (statement : Statement) (error : EncodingError) :
    Preserves (ReachedFrom origin) (rejectEncoding statement error : SessionM α) := by
  apply preserves_of_kept
  intro session
  cases error <;> exact ⟨rfl, rfl⟩

theorem preserves_rewind (source : Source) : Preserves (ReachedFrom origin) (rewind source) := by
  apply preserves_of_kept
  intro session
  rw [after, rewind]
  cases source.rewindFault <;> exact ⟨rfl, rfl⟩

theorem preserves_checkConfig : Preserves (ReachedFrom origin) checkConfig := by
  apply preserves_of_kept
  intro session
  rw [after, checkConfig]
  cases session.config.validate <;> exact ⟨rfl, rfl⟩

theorem preserves_emitLine (writer : BlockWriter) (line : Bytes) :
    Preserves (ReachedFrom origin) (emitLine writer line) := by
  apply Preserves.bind (preserves_advance line)
  intro statement
  cases statement.command with
  | malformed reason => exact preserves_reject statement reason.message
  | skip | address operand trailer | label name trailer | compute text trailer =>
      apply Preserves.bind (preserves_of_kept fun _ => ⟨rfl, rfl⟩)
      intro session
      split
      · exact Preserves.pure writer
      · exact preserves_rejectEncoding statement _
      · exact preserves_emit writer statement _

theorem preserves_secondPass (source : Source) (sink : Sink) (canceled : Bool) :
    Preserves (ReachedFrom origin) (secondPass source sink canceled) := by
  apply Preserves.bind (preserves_checkCanceled canceled)
  intro _
  apply Preserves.bind (Preserves.foldlM (fun writer line _ => preserves_emitLine writer line) _)
  intro writer
  apply Preserves.bind (preserves_expectEnd source)
  intro _
  exact preserves_finish writer

/-! ## The first pass -/

theorem preserves_bindLabel (statement : Statement) (name : Bytes) :
    Preserves (ReachedFrom origin) (bindLabel statement name) := by
  intro session reached
  by_cases fits : session.instructions ≤ maxAddress
  · rw [after, bindLabel, if_pos fits]
    exact ⟨reached.leads.tail (.bindLabel name fits), reached.noted⟩
  · rw [after, bindLabel, if_neg fits]
    exact reached

theorem preserves_noteOperand {operand : Bytes}
    (proper : Line.isSymbolic operand = true → Line.isSymbol operand = true) :
    Preserves (ReachedFrom origin) (noteOperand operand) := by
  intro session reached
  by_cases new : (Line.isSymbolic operand && !session.table.contains operand) = true
  · rw [after, noteOperand, if_pos new]
    refine ⟨reached.leads, ?_⟩
    intro name member
    rw [Bool.and_eq_true] at new
    rw [NameSequence.toList_insert] at member
    split at member
    · exact reached.noted name member
    · rcases List.mem_append.1 member with old | isLast
      · exact reached.noted name old
      · rw [List.mem_singleton.1 isLast]
        exact proper new.1
  · rw [after, noteOperand, if_neg new]
    exact reached

/-- A line of the first pass binds a label, notes a symbol or does neither. -/
theorem preserves_scanLine (line : Bytes) : Preserves (ReachedFrom origin) (scanLine line) := by
  intro session reached
  -- not by the rule for sequences: that a noted name is a symbol is known of this line only
  by_cases long : session.config.maxLineLength < ((Line.dropTerminator line).length : Int)
  · rw [after_of_error (scanLine_of_long long)]
    exact ⟨reached.leads, reached.noted⟩
  · have counted : ReachedFrom origin (session.count (Command.ofLine line)) :=
      ⟨reached.leads, reached.noted⟩
    rw [after, scanLine_of_fits long]
    cases command : Command.ofLine line with
    | skip | compute text trailer | malformed reason =>
        rw [command] at counted
        exact counted
    | label name trailer =>
        rw [command] at counted
        exact preserves_bindLabel (Statement.ofLine line) name _ counted
    | address operand trailer =>
        rw [command] at counted
        refine preserves_noteOperand ?_ _ counted
        intro symbolic
        apply Command.isSymbol_of_reference?
        rw [command]
        exact if_pos symbolic

theorem preserves_allocate {name : Bytes} (isSymbol : Line.isSymbol name = true) :
    Preserves (ReachedFrom origin) (allocate name) := by
  intro session reached
  by_cases bound : session.table.contains name = true
  · rw [after, allocate, if_pos bound]
    exact reached
  · have free : session.table.get? name = none := by
      rw [SymbolTable.contains_eq_isSome_get?] at bound
      simpa using bound
    by_cases fits : session.nextVariable.toNat ≤ maxAddress
    · rw [after, allocate, if_neg bound, if_pos fits]
      exact ⟨reached.leads.tail (.allocate isSymbol free fits), reached.noted⟩
    · rw [after, allocate, if_neg bound, if_neg fits]
      exact reached

theorem preserves_allocateVariables :
    Preserves (ReachedFrom origin) allocateVariables := by
  intro session reached
  have each : ∀ name ∈ session.references.toList,
      Preserves (ReachedFrom origin) (allocate name) := by
    intro name member
    exact preserves_allocate (reached.noted name member)
  exact Preserves.forM each session reached

theorem preserves_startFirstPass :
    Preserves (ReachedFrom origin) (modify startFirstPass : SessionM Unit) := by
  intro session reached
  refine ⟨reached.leads, ?_⟩
  intro name member
  cases member

theorem preserves_firstPass (source : Source) (canceled : Bool) :
    Preserves (ReachedFrom origin) (firstPass source canceled) := by
  apply Preserves.bind (preserves_checkCanceled canceled)
  intro _
  apply Preserves.bind preserves_startFirstPass
  intro _
  apply Preserves.bind (Preserves.forM fun line _ => preserves_scanLine line)
  intro _
  apply Preserves.bind (preserves_expectEnd source)
  intro _
  exact preserves_allocateVariables

theorem preserves_assemble (source : Source) (sink : Sink) (canceled : Bool) :
    Preserves (ReachedFrom origin) (assemble source sink canceled) := by
  apply Preserves.bind preserves_checkConfig
  intro _
  apply Preserves.bind (preserves_firstPass source canceled)
  intro _
  apply Preserves.bind (preserves_rewind source)
  intro _
  exact preserves_secondPass source sink canceled

end Steps

/-! ## Calls -/

theorem ReachedFrom.call {origin : Symbols} {session : Session}
    (reached : ReachedFrom origin session) (call : Call) :
    ReachedFrom origin (session.call call) := by
  cases call with
  | assemble source sink canceled => exact preserves_assemble source sink canceled session reached
  | firstPass source canceled => exact preserves_firstPass source canceled session reached
  | rewind source => exact preserves_rewind source session reached
  | secondPass source sink canceled =>
      exact preserves_secondPass source sink canceled session reached

theorem ReachedFrom.calls {origin : Symbols} {session : Session}
    (reached : ReachedFrom origin session) (sequence : List Call) :
    ReachedFrom origin (session.calls sequence) := by
  induction sequence generalizing session with
  | nil => exact reached
  | cons call sequence ih => exact ih (reached.call call)

theorem calls_append (session : Session) (first second : List Call) :
    session.calls (first ++ second) = (session.calls first).calls second :=
  List.foldl_append

/-- A new session has no variables yet. -/
theorem hasVariables_new (config : Config) :
    Symbols.HasVariables config.withDefaults.variableBase.toNat [] (new config).symbols where
  distinct := List.nodup_nil
  isSymbol := nofun
  notReserved := nofun
  bound := nofun
  cursor := rfl
  reserved := SymbolTable.get?_initial_of_mem
  small _ _ bound := SymbolTable.le_maxAddress_of_get?_initial bound

/-- At any time in the life of a session, however its calls have ended, its variables are
distinct symbols that stand at consecutive addresses from the configured base on, the
reserved names have their values, and all values can be addressed. At any later time the
same names are bound to the same values, and the variables are the same with others
behind them, no two of them at one address. -/
theorem hasVariables_of_calls (config : Config) (earlier later : List Call) :
    ∃ names more : List Bytes,
      Symbols.HasVariables config.withDefaults.variableBase.toNat names
        ((new config).calls earlier).symbols ∧
      Symbols.HasVariables config.withDefaults.variableBase.toNat (names ++ more)
        ((new config).calls (earlier ++ later)).symbols ∧
      (∀ name value, ((new config).calls earlier).table.get? name = some value →
        ((new config).calls (earlier ++ later)).table.get? name = some value) ∧
      ∀ one ∈ names ++ more, ∀ other ∈ names ++ more,
        ((new config).calls (earlier ++ later)).table.get? one =
          ((new config).calls (earlier ++ later)).table.get? other → one = other := by
  have start : ReachedFrom (new config).symbols (new config) := ⟨.refl, nofun⟩
  have reached := start.calls earlier
  obtain ⟨names, before⟩ := (hasVariables_new config).leads reached.leads
  -- the later calls are steps from where the earlier ones ended, so bindings are compared
  -- with those of that moment and not with those of a new session
  have restart : ReachedFrom ((new config).calls earlier).symbols ((new config).calls earlier) :=
    ⟨.refl, reached.noted⟩
  have reachedLater := restart.calls later
  rw [← calls_append] at reachedLater
  obtain ⟨more, after⟩ := before.leads reachedLater.leads
  rw [List.nil_append] at before after
  refine ⟨names, more, before, after, ?_, ?_⟩
  · intro name value bound
    exact reachedLater.leads.get?_eq_some bound
  · intro one member other otherMember same
    exact after.eq_of_get?_eq member otherMember same

end Session

end HackAssembler
