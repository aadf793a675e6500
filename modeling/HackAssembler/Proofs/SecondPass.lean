/-
# The second pass

What the second pass makes of a text that the first pass has accepted. A line is passed
over, or it is listed and its word is written, or its command has no instruction and the
pass ends there. What has been written is seen through one view of the writer, the bytes
it has taken in, so that it makes no difference which of them have been handed on. What is
said of a pass that goes through holds of every sink; where it is to be shown that a pass
goes through, sinks with a limit are left out.
-/

import HackAssembler.Proofs.Computation
import HackAssembler.Proofs.Scanning

namespace HackAssembler

namespace BlockWriter

/-- All bytes that were taken in, whether or not they have been handed on. -/
def contents (writer : BlockWriter) : Bytes :=
  writer.sink.received.toList ++ writer.pending.toList

theorem accept_of_unlimited {sink : Sink} (unlimited : sink.limit = none)
    (chunk : Array UInt8) :
    sink.accept chunk = .ok { sink with received := sink.received ++ chunk } := by
  simp [Sink.accept, Sink.admits, unlimited]

/-- An array that is cut in two is the one part and then the other. -/
theorem toList_extract_append_toList_extract (bytes : Array UInt8) (cut : Nat) :
    (bytes.extract 0 cut).toList ++ (bytes.extract cut bytes.size).toList = bytes.toList := by
  have whole : bytes.size ≤ max cut bytes.size := Nat.le_max_right cut bytes.size
  rw [← Array.toList_append, Array.extract_append_extract, Nat.zero_min]
  simp only [Array.toList_extract, List.extract_eq_take_drop, Nat.sub_zero, List.drop_zero]
  exact List.take_of_length_le whole

theorem accept_eq_ok {sink next : Sink} {chunk : Array UInt8} (taken : sink.accept chunk = .ok next) :
    next = { sink with received := sink.received ++ chunk } := by
  rw [Sink.accept] at taken
  split at taken
  · cases taken
    rfl
  · cases taken

/-- What is written is taken in, whichever sink it is for. -/
theorem write_eq_ok {writer next : BlockWriter} {text : Bytes}
    (written : writer.write text = .ok next) :
    next.sink.limit = writer.sink.limit ∧ next.contents = writer.contents ++ text := by
  obtain ⟨sink, pending⟩ := writer
  simp only [write] at written
  split at written
  · cases written
    exact ⟨rfl, by simp [contents]⟩
  · cases handed : sink.accept ((pending ++ text).extract 0 (due (pending ++ text).size)) with
    | error fault =>
        rw [handed] at written
        cases written
    | ok after =>
        rw [handed] at written
        cases written
        obtain rfl := accept_eq_ok handed
        -- the blocks and what is left over make up all of it again
        have whole := toList_extract_append_toList_extract (pending ++ text)
          (due (pending ++ text).size)
        refine ⟨rfl, ?_⟩
        simp only [contents, Array.toList_append, List.append_assoc]
        rw [whole]
        simp

theorem finish_eq_ok {writer : BlockWriter} {sink : Sink} (finished : writer.finish = .ok sink) :
    sink.received.toList = writer.contents := by
  rw [finish] at finished
  split at finished
  · next nothing =>
      cases finished
      rw [contents, Array.isEmpty_iff.1 nothing]
      simp
  · obtain rfl := accept_eq_ok finished
    simp [contents]

/-- A sink without a limit takes what is written. -/
theorem exists_write {writer : BlockWriter} (unlimited : writer.sink.limit = none)
    (text : Bytes) :
    ∃ next, writer.write text = .ok next ∧ next.sink.limit = none ∧
      next.contents = writer.contents ++ text := by
  have takes : ∃ next, writer.write text = .ok next := by
    obtain ⟨sink, pending⟩ := writer
    simp only [write, accept_of_unlimited unlimited]
    split
    · exact ⟨_, rfl⟩
    · exact ⟨_, rfl⟩
  obtain ⟨next, written⟩ := takes
  obtain ⟨sameLimit, contents⟩ := write_eq_ok written
  exact ⟨next, written, sameLimit.trans unlimited, contents⟩

theorem exists_finish {writer : BlockWriter} (unlimited : writer.sink.limit = none) :
    ∃ sink, writer.finish = .ok sink ∧ sink.received.toList = writer.contents := by
  have takes : ∃ sink, writer.finish = .ok sink := by
    simp only [finish, accept_of_unlimited unlimited]
    split
    · exact ⟨_, rfl⟩
    · exact ⟨_, rfl⟩
  obtain ⟨sink, finished⟩ := takes
  exact ⟨sink, finished, finish_eq_ok finished⟩

end BlockWriter

/-! ## Operands -/

/-- A symbol stands for what the table binds it to, if that fits an address. -/
theorem Instruction.ofOperand_of_symbolic {operand : Bytes} (table : SymbolTable)
    (symbolic : Line.isSymbolic operand = true) :
    ofOperand table operand =
      match table.get? operand with
      | none => .error (.unknownSymbol ⟨operand⟩)
      | some value =>
        if value.toNat ≤ maxAddress then .ok (.address (value.setWidth 15))
        else .error (.symbolOutOfRange operand value) := by
  rw [ofOperand, if_pos symbolic, SymbolTable.lookup]
  cases table.get? operand <;> rfl

/-- A constant stands for its value, if that fits an address. -/
theorem Instruction.ofOperand_of_digits {operand : Bytes} (table : SymbolTable)
    (constant : Line.isSymbolic operand = false)
    (digits : operand ≠ [] ∧ operand.all Byte.isDigit = true) :
    ofOperand table operand =
      if Decimal.value operand ≤ maxAddress then
        .ok (.address (BitVec.ofNat 15 (Decimal.value operand)))
      else .error (.constantOutOfRange operand) := by
  simp only [ofOperand, constant, Bool.false_eq_true, if_false]
  by_cases small : Decimal.value operand ≤ maxAddress
  · have read := Decimal.read?_eq_some_iff.2 ⟨digits.1, digits.2, rfl, small⟩
    simp only [read, small, if_true]
  · have read : Decimal.read? maxAddress operand = none := by
      cases result : Decimal.read? maxAddress operand with
      | none => rfl
      | some value =>
          obtain ⟨-, -, rfl, fits⟩ := Decimal.read?_eq_some_iff.1 result
          exact absurd fits small
    simp only [read, small, if_false]

/-- A symbol is unknown only where the command refers to it and the table does not bind
it. -/
theorem get?_eq_none_of_unknownSymbol {table : SymbolTable} {line : Bytes}
    {unknown : UnknownSymbol}
    (h : (Command.ofLine line).instruction? table = some (.error (.unknownSymbol unknown))) :
    (Command.ofLine line).reference? = some unknown.name ∧ table.get? unknown.name = none := by
  cases command : Command.ofLine line with
  | skip | label name trailer | malformed reason =>
      rw [command] at h
      cases h
  | compute text trailer =>
      rw [command] at h
      exact absurd (Option.some.inj h) Instruction.ofCompute_ne_unknownSymbol
  | address operand trailer =>
      rw [command] at h
      have failed : Instruction.ofOperand table operand = .error (.unknownSymbol unknown) :=
        Option.some.inj h
      cases symbolic : Line.isSymbolic operand with
      | true =>
          rw [Instruction.ofOperand_of_symbolic table symbolic] at failed
          cases bound : table.get? operand with
          | none =>
              rw [bound] at failed
              cases failed
              exact ⟨if_pos symbolic, bound⟩
          | some value =>
              simp only [bound] at failed
              split at failed <;> cases failed
      | false =>
          have digits := Command.isDigits_of_not_symbolic command symbolic
          rw [Instruction.ofOperand_of_digits table symbolic digits] at failed
          split at failed <;> cases failed

/-! ## Listings -/

/-- The lines of a listing are those of the text that is listed. -/
theorem line_of_mem_collect {table : SymbolTable} {before lines : List Bytes}
    {entry : ListingEntry} (h : entry ∈ collect (listed? table) before lines) :
    (before.length : Int) < entry.line ∧ entry.line ≤ (before ++ lines).length := by
  induction lines generalizing before with
  | nil => cases h
  | cons line lines ih =>
      rcases List.mem_append.1 h with here | later
      · have listed : listed? table before line = some entry := Option.mem_toList.1 here
        rw [listed?] at listed
        split at listed
        · cases listed
          simp only [List.length_append, List.length_cons]
          omega
        · cases listed
        · cases listed
      · have bounds := ih later
        simp only [List.length_append, List.length_cons, List.length_nil] at bounds ⊢
        omega

/-- A line that has its instruction is listed exactly if it emits one. -/
theorem length_listed? {table : SymbolTable} {before : List Bytes} {line : Bytes}
    (sound : encodingFault? table before line = none) :
    (listed? table before line).toList.length = Program.emitted [Command.ofLine line] := by
  rw [encodingFault?] at sound
  have emits := Command.emits_eq_isSome_instruction? table (Command.ofLine line)
  cases encoded : (Command.ofLine line).instruction? table with
  | none =>
      rw [encoded] at emits
      simp [listed?, encoded, Program.emitted, emits]
  | some result =>
      cases result with
      | error error => simp [encoded] at sound
      | ok instruction =>
          rw [encoded] at emits
          simp [listed?, encoded, Program.emitted, emits]

theorem length_collect_listed? {table : SymbolTable} {before lines : List Bytes}
    (sound : collect (encodingFault? table) before lines = []) :
    (collect (listed? table) before lines).length = (Program.ofLines lines).emitted := by
  induction lines generalizing before with
  | nil => rfl
  | cons line lines ih =>
      obtain ⟨soundLine, soundRest⟩ := List.append_eq_nil_iff.1 sound
      have first := length_listed? (Option.toList_eq_nil_iff.1 soundLine)
      show ((listed? table before line).toList ++ collect (listed? table) (before ++ [line])
        lines).length = Program.emitted (Command.ofLine line :: Program.ofLines lines)
      rw [List.length_append, first, ih soundRest, ← Program.emitted_cons]

/-- Addresses are given one after the other. -/
theorem address_of_getElem?_collect {table : SymbolTable} {before lines : List Bytes}
    {index : Nat} {entry : ListingEntry}
    (sound : collect (encodingFault? table) before lines = [])
    (h : (collect (listed? table) before lines)[index]? = some entry) :
    entry.address = (Program.ofLines before).emitted + index := by
  induction lines generalizing before index with
  | nil => cases h
  | cons line lines ih =>
      obtain ⟨soundLine, soundRest⟩ := List.append_eq_nil_iff.1 sound
      have first := length_listed? (Option.toList_eq_nil_iff.1 soundLine)
      have moved : (Program.ofLines (before ++ [line])).emitted =
          (Program.ofLines before).emitted + Program.emitted [Command.ofLine line] := by
        simp [Program.ofLines]
      rw [collect] at h
      cases listed : listed? table before line with
      | none =>
          rw [listed] at first h
          have later := ih soundRest h
          rw [moved, ← first] at later
          exact later
      | some found =>
          rw [listed] at first h
          cases index with
          | zero =>
              cases h
              rw [listed?] at listed
              split at listed
              · cases listed
                simp
              · cases listed
              · cases listed
          | succ index =>
              have later := ih soundRest h
              rw [moved, ← first] at later
              rw [later]
              simp only [Option.toList_some, List.length_singleton]
              omega

namespace Session

/-- What is left to do with a line that is not too long, once it is counted. -/
theorem emitLine_of_fits {session : Session} {line : Bytes} (writer : BlockWriter)
    (short : ¬ session.config.maxLineLength < ((Line.dropTerminator line).length : Int))
    (wellFormed : ∀ reason, Command.ofLine line ≠ .malformed reason) :
    emitLine writer line session =
      (match (Command.ofLine line).instruction? session.table with
        | none => pure writer
        | some (.error error) => rejectEncoding (Statement.ofLine line) error
        | some (.ok instruction) => emit writer (Statement.ofLine line) instruction :
          SessionM BlockWriter) (session.count (Command.ofLine line)) := by
  have advanced : advance line session =
      .ok (Statement.ofLine line) (session.count (Command.ofLine line)) := by
    rw [advance_eq, if_neg short]
  have command : (Statement.ofLine line).command = Command.ofLine line := rfl
  rw [emitLine, bind_of_ok advanced]
  simp only [command]
  cases read : Command.ofLine line with
  | malformed reason => exact absurd read (wellFormed reason)
  | _ => rfl

/-- A line that the pass goes past is not too long, and has a proper form. -/
theorem fits_of_emitLine {session reached : Session} {line : Bytes} {writer next : BlockWriter}
    (done : emitLine writer line session = .ok next reached) :
    ¬ session.config.maxLineLength < ((Line.dropTerminator line).length : Int) ∧
      ∀ reason, Command.ofLine line ≠ .malformed reason := by
  obtain ⟨statement, counted, advanced, rest⟩ := bind_eq_ok_iff.1 done
  rw [advance_eq] at advanced
  split at advanced
  · cases advanced
  · next short =>
      cases advanced
      refine ⟨short, ?_⟩
      intro reason read
      have command : (Statement.ofLine line).command = .malformed reason := read
      simp only [command] at rest
      cases rest

/-- Count a line and list what it becomes. -/
def record (session : Session) (before : List Bytes) (line : Bytes) : Session :=
  { session.count (Command.ofLine line) with
    listing := session.listing ++ (listed? session.table before line).toList }

theorem IsAt.record {session : Session} {before : List Bytes} (here : session.IsAt before)
    (line : Bytes) : (session.record before line).IsAt (before ++ [line]) :=
  ⟨(here.count line).line, (here.count line).instructions⟩

/-- A line without an instruction is only counted. -/
theorem record_of_silent {session : Session} {line : Bytes} (before : List Bytes)
    (silent : (Command.ofLine line).instruction? session.table = none) :
    session.record before line = session.count (Command.ofLine line) := by
  have nothing : listed? session.table before line = none := by simp [listed?, silent]
  simp only [record, nothing, Option.toList_none, Array.appendList_nil]
  rfl

/-- A line with an instruction is listed once its word is written. -/
theorem emit_of_written {session : Session} {before : List Bytes} {line : Bytes}
    {writer next : BlockWriter} {instruction : Instruction} (here : session.IsAt before)
    (encoded : (Command.ofLine line).instruction? session.table = some (.ok instruction))
    (written : writer.write (instruction.digits ++ [Byte.lineFeed]) = .ok next) :
    emit writer (Statement.ofLine line) instruction (session.count (Command.ofLine line)) =
      .ok next (session.record before line) := by
  have listed : listed? session.table before line =
      some ⟨(Program.ofLines before).emitted, before.length + 1, Line.strip line,
        instruction.digits⟩ := by
    simp [listed?, encoded]
  have emits : Program.emitted [Command.ofLine line] = 1 := by
    cases command : Command.ofLine line with
    | address operand trailer | compute text trailer => rfl
    | _ => simp [command, Command.instruction?] at encoded
  have address : ((session.count (Command.ofLine line)).instructions : Int) - 1 =
      (Program.ofLines before).emitted := by
    simp [count, emits, here.instructions]
  have number : ((session.count (Command.ofLine line)).line : Int) = before.length + 1 := by
    simp [count, here.line]
  simp only [emit, written, record, listed, Option.toList_some, address, number]
  rfl

/-- A line without a fault of either kind is listed and written. -/
theorem exists_emitLine {session : Session} {before : List Bytes} {line : Bytes}
    {writer : BlockWriter} (here : session.IsAt before)
    (clean : scanFault? session.config before line = none)
    (sound : encodingFault? session.table before line = none)
    (unlimited : writer.sink.limit = none) :
    ∃ next, emitLine writer line session = .ok next (session.record before line) ∧
      next.sink.limit = none ∧
      next.contents =
        writer.contents ++ outputOf (listed? session.table before line).toList := by
  obtain ⟨short, wellFormed, -⟩ := scanFault?_eq_none_iff.1 clean
  rw [emitLine_of_fits writer short wellFormed]
  cases encoded : (Command.ofLine line).instruction? session.table with
  | none =>
      refine ⟨writer, ?_, unlimited, by simp [listed?, encoded, outputOf]⟩
      rw [record_of_silent before encoded]
      rfl
  | some result =>
      cases result with
      | error error => simp [encodingFault?, encoded] at sound
      | ok instruction =>
          obtain ⟨next, written, stillUnlimited, contents⟩ :=
            BlockWriter.exists_write unlimited (instruction.digits ++ [Byte.lineFeed])
          exact ⟨next, emit_of_written here encoded written, stillUnlimited,
            by simp [contents, listed?, encoded, outputOf]⟩

/-- A line that the pass goes past is listed and written, whichever sink it is for. -/
theorem emitLine_eq_ok {session reached : Session} {before : List Bytes} {line : Bytes}
    {writer next : BlockWriter} (here : session.IsAt before)
    (done : emitLine writer line session = .ok next reached) :
    reached = session.record before line ∧
      next.contents =
        writer.contents ++ outputOf (listed? session.table before line).toList := by
  obtain ⟨short, wellFormed⟩ := fits_of_emitLine done
  rw [emitLine_of_fits writer short wellFormed] at done
  cases encoded : (Command.ofLine line).instruction? session.table with
  | none =>
      rw [encoded] at done
      cases done
      exact ⟨(record_of_silent before encoded).symm, by simp [listed?, encoded, outputOf]⟩
  | some result =>
      rw [encoded] at done
      cases result with
      | error error => cases error <;> cases done
      | ok instruction =>
          cases written : writer.write (instruction.digits ++ [Byte.lineFeed]) with
          | error fault =>
              simp only [emit, written] at done
              cases done
          | ok after =>
              cases (emit_of_written here encoded written).symm.trans done
              refine ⟨rfl, ?_⟩
              rw [(BlockWriter.write_eq_ok written).2]
              simp [listed?, encoded, outputOf]

/-- All errors but that of an unknown symbol are syntax errors. -/
theorem rejectEncoding_of_known {α : Type} {statement : Statement} {error : EncodingError}
    (known : ∀ unknown, error ≠ .unknownSymbol unknown) :
    (rejectEncoding statement error : SessionM α) = reject statement error.message := by
  cases error with
  | unknownSymbol unknown => exact absurd rfl (known unknown)
  | _ => rfl

/-- A line whose command has no instruction ends the pass, with a syntax error if the
symbols it refers to are known. -/
theorem emitLine_of_fault {session : Session} {before : List Bytes} {line : Bytes}
    {failure : Failure} (writer : BlockWriter) (here : session.IsAt before)
    (clean : scanFault? session.config before line = none)
    (known : ∀ name, (Command.ofLine line).reference? = some name →
      session.table.get? name ≠ none)
    (fault : encodingFault? session.table before line = some failure) :
    emitLine writer line session =
      .error failure (session.count (Command.ofLine line)) := by
  obtain ⟨short, wellFormed, -⟩ := scanFault?_eq_none_iff.1 clean
  rw [emitLine_of_fits writer short wellFormed]
  rw [encodingFault?] at fault
  cases encoded : (Command.ofLine line).instruction? session.table with
  | none => simp [encoded] at fault
  | some result =>
      cases result with
      | ok instruction => simp [encoded] at fault
      | error error =>
          have number : ((session.count (Command.ofLine line)).line : Int) =
              before.length + 1 := by
            simp [count, here.line]
          simp only [encoded, Option.some.injEq] at fault
          subst fault
          have isKnown (unknown : UnknownSymbol) : error ≠ .unknownSymbol unknown := by
            rintro rfl
            obtain ⟨referred, unbound⟩ := get?_eq_none_of_unknownSymbol encoded
            exact known unknown.name referred unbound
          simp only [rejectEncoding_of_known isKnown, reject, number]
          rfl

/-! ## The text as a whole -/

/-- Count lines and list what they become. -/
def recorded (session : Session) (before : List Bytes) : List Bytes → Session
  | [] => session
  | line :: rest => (session.record before line).recorded (before ++ [line]) rest

theorem IsAt.recorded {session : Session} {before : List Bytes} (here : session.IsAt before)
    (lines : List Bytes) : (session.recorded before lines).IsAt (before ++ lines) := by
  induction lines generalizing session before with
  | nil => simpa [Session.recorded] using here
  | cons line lines ih => simpa [Session.recorded] using ih (here.record line)

/-- What listing a line does not change is not changed by listing many. -/
theorem recorded_eq {α : Type} (view : Session → α)
    (kept : ∀ session before line, view (session.record before line) = view session)
    (session : Session) (before lines : List Bytes) :
    view (session.recorded before lines) = view session := by
  induction lines generalizing session before with
  | nil => rfl
  | cons line lines ih => rw [recorded, ih, kept]

theorem table_recorded (session : Session) (before lines : List Bytes) :
    (session.recorded before lines).table = session.table :=
  recorded_eq Session.table (fun _ _ _ => rfl) session before lines

theorem toList_listing_recorded (session : Session) (before lines : List Bytes) :
    (session.recorded before lines).listing.toList =
      session.listing.toList ++ collect (listed? session.table) before lines := by
  induction lines generalizing session before with
  | nil => simp [recorded, collect]
  | cons line lines ih =>
      rw [recorded, ih]
      simp [record, collect, count]

/-- A text without a fault of either kind is listed and written line by line. -/
theorem exists_foldlM_emitLine {session : Session} {before lines : List Bytes}
    {writer : BlockWriter} (here : session.IsAt before)
    (clean : collect (scanFault? session.config) before lines = [])
    (sound : collect (encodingFault? session.table) before lines = [])
    (unlimited : writer.sink.limit = none) :
    ∃ next, lines.foldlM emitLine writer session = .ok next (session.recorded before lines) ∧
      next.sink.limit = none ∧
      next.contents =
        writer.contents ++ outputOf (collect (listed? session.table) before lines) := by
  induction lines generalizing session before writer with
  | nil => exact ⟨writer, rfl, unlimited, by simp [collect, outputOf]⟩
  | cons line lines ih =>
      obtain ⟨cleanLine, cleanRest⟩ := List.append_eq_nil_iff.1 clean
      obtain ⟨soundLine, soundRest⟩ := List.append_eq_nil_iff.1 sound
      obtain ⟨middle, first, stillUnlimited, contents⟩ := exists_emitLine here
        (Option.toList_eq_nil_iff.1 cleanLine) (Option.toList_eq_nil_iff.1 soundLine) unlimited
      obtain ⟨next, rest, unlimitedNext, allContents⟩ :=
        ih (here.record line) cleanRest soundRest stillUnlimited
      refine ⟨next, ?_, unlimitedNext, ?_⟩
      · rw [List.foldlM_cons, bind_of_ok first, rest]
        rfl
      · have sameTable : (session.record before line).table = session.table := rfl
        rw [allContents, contents, sameTable]
        simp [collect, outputOf]

/-- A text that the pass gets through is listed and written line by line, whichever sink it
is for. -/
theorem foldlM_emitLine_eq_ok {session reached : Session} {before lines : List Bytes}
    {writer next : BlockWriter} (here : session.IsAt before)
    (done : lines.foldlM emitLine writer session = .ok next reached) :
    reached = session.recorded before lines ∧
      next.contents =
        writer.contents ++ outputOf (collect (listed? session.table) before lines) := by
  induction lines generalizing session before writer with
  | nil =>
      cases done
      exact ⟨rfl, by simp [collect, outputOf]⟩
  | cons line lines ih =>
      rw [List.foldlM_cons] at done
      obtain ⟨middle, past, first, rest⟩ := bind_eq_ok_iff.1 done
      obtain ⟨rfl, contents⟩ := emitLine_eq_ok here first
      obtain ⟨rfl, allContents⟩ := ih (here.record line) rest
      refine ⟨rfl, ?_⟩
      have sameTable : (session.record before line).table = session.table := rfl
      rw [allContents, contents, sameTable]
      simp [collect, outputOf]

/-- Behind lines that were listed, a line whose command has no instruction ends the pass,
whatever the writer has taken in. -/
theorem emitLine_recorded_of_fault {session : Session} {before soundLines : List Bytes}
    {line : Bytes} {failure : Failure} (writer : BlockWriter) (here : session.IsAt before)
    (clean : scanFault? session.config (before ++ soundLines) line = none)
    (known : ∀ name, (Command.ofLine line).reference? = some name →
      session.table.get? name ≠ none)
    (fault : encodingFault? session.table (before ++ soundLines) line = some failure) :
    emitLine writer line (session.recorded before soundLines) =
      .error failure ((session.recorded before soundLines).count (Command.ofLine line)) := by
  have sameConfig : (session.recorded before soundLines).config = session.config :=
    recorded_eq Session.config (fun _ _ _ => rfl) session before soundLines
  apply emitLine_of_fault writer (here.recorded soundLines)
  · rw [sameConfig]
    exact clean
  · rw [table_recorded]
    exact known
  · rw [table_recorded]
    exact fault

/-- A text is listed and written up to the first line whose command has no
instruction. -/
theorem foldlM_emitLine_of_fault {session : Session} {before soundLines rest : List Bytes}
    {line : Bytes} {failure : Failure} {writer : BlockWriter} (here : session.IsAt before)
    (clean : collect (scanFault? session.config) before (soundLines ++ line :: rest) = [])
    (known : ∀ name, (Command.ofLine line).reference? = some name →
      session.table.get? name ≠ none)
    (sound : collect (encodingFault? session.table) before soundLines = [])
    (fault : encodingFault? session.table (before ++ soundLines) line = some failure)
    (unlimited : writer.sink.limit = none) :
    (soundLines ++ line :: rest).foldlM emitLine writer session =
      .error failure ((session.recorded before soundLines).count (Command.ofLine line)) := by
  have cleanLine := look_eq_none_of_collect_eq_nil clean
  rw [collect_append] at clean
  obtain ⟨next, first, -, -⟩ :=
    exists_foldlM_emitLine here (List.append_eq_nil_iff.1 clean).1 sound unlimited
  rw [foldlM_append_of_ok first, List.foldlM_cons]
  exact bind_of_error (emitLine_recorded_of_fault next here cleanLine known fault)

end Session

end HackAssembler
