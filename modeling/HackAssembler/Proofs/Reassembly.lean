/-
# Assembling again

What happens when the same source is assembled a second time. The first run has bound
every label that it read and every variable for which there was an address, so the second
run finds all of them bound and binds nothing. This is so for a run that failed as well,
wherever it stopped: the line that it refused is refused again, and so is the variable
that found no address. Behind a first pass that went through, the two second passes start
from sessions that differ in the noted names alone, which a second pass does not look at.
-/

import Mathlib.Data.List.Induction
import HackAssembler.Proofs.Assembly
import HackAssembler.Proofs.Comparison
import HackAssembler.Proofs.Lifetime

namespace HackAssembler

namespace Program

/-- Dropping names and dropping repetitions can be done in either order. -/
theorem filter_eraseDups (names : List Bytes) (p : Bytes → Bool) :
    names.eraseDups.filter p = (names.filter p).eraseDups := by
  induction names using List.reverseRecOn with
  | nil => rfl
  | append_singleton names name ih =>
      rw [Session.eraseDups_concat, List.filter_append]
      by_cases wanted : p name = true
      · rw [List.filter_cons_of_pos wanted, List.filter_nil, Session.eraseDups_concat]
        by_cases member : name ∈ names
        · simp [member, wanted, ih]
        · simp [member, wanted, ih]
      · rw [List.filter_cons_of_neg wanted, List.filter_nil, List.append_nil, ← ih]
        split
        · rfl
        · simp [wanted]

/-- With more names bound, the variables are those that are still unbound. -/
theorem variableNames_of_extends {table larger : SymbolTable} (program : Program)
    (extended : ∀ name, table.contains name = true → larger.contains name = true) :
    program.variableNames larger =
      (program.variableNames table).filter fun name => !larger.contains name := by
  rw [variableNames, variableNames, filter_eraseDups, List.filter_filter]
  congr 2
  funext name
  cases bound : table.contains name with
  | true => simp [extended name bound]
  | false => simp

end Program

namespace Session

/-! ## What a first pass leaves bound -/

/-- The session with the symbols of a text bound, as far as there are addresses. -/
def settled (session : Session) (lines : List Bytes) : Session :=
  (session.scanned lines).allot
    (((Program.ofLines lines).variableNames session.table).take session.room)

theorem firstPass_settled {source : Source} {session : Session}
    (readable : source.readFault = none)
    (clean : collect (scanFault? session.config) [] source.lines = []) :
    firstPass source false session =
      match ((Program.ofLines source.lines).variableNames session.table)[session.room]? with
      | none => .ok () (session.settled source.lines)
      | some name => .error (.outOfVariableMemory name) (session.settled source.lines) := by
  rw [firstPass_of_clean readable clean]
  cases excess : ((Program.ofLines source.lines).variableNames session.table)[session.room]? with
  | some name => rfl
  | none =>
      have fits := List.getElem?_eq_none_iff.1 excess
      simp only [linked, settled, List.take_of_length_le fits]

/-- A first pass without a faulty line leaves the same behind whether or not there are
addresses for all variables. -/
theorem after_firstPass_of_clean {source : Source} {session : Session}
    (readable : source.readFault = none)
    (clean : collect (scanFault? session.config) [] source.lines = []) :
    after (firstPass source false) session = session.settled source.lines := by
  rw [after, firstPass_settled readable clean]
  cases ((Program.ofLines source.lines).variableNames session.table)[session.room]? <;> rfl

theorem outcome_firstPass_of_clean {source : Source} {session : Session}
    (readable : source.readFault = none)
    (clean : collect (scanFault? session.config) [] source.lines = []) :
    outcome (firstPass source false) session =
      match ((Program.ofLines source.lines).variableNames session.table)[session.room]? with
      | none => .ok ()
      | some name => .error (.outOfVariableMemory name) := by
  rw [outcome, firstPass_settled readable clean]
  cases ((Program.ofLines source.lines).variableNames session.table)[session.room]? <;> rfl

theorem filter_not_mem_take {names : List Bytes} (distinct : names.Nodup) (count : Nat) :
    (names.filter fun name => decide (name ∉ names.take count)) = names.drop count := by
  have apart := List.disjoint_take_drop distinct (Nat.le_refl count)
  have first : ((names.take count).filter fun name => decide (name ∉ names.take count)) = [] := by
    simp
  have second : ((names.drop count).filter fun name => decide (name ∉ names.take count)) =
      names.drop count := by
    apply List.filter_eq_self.2
    intro name member
    simpa using fun early => apart early member
  calc
    _ = ((names.take count ++ names.drop count).filter fun name =>
          decide (name ∉ names.take count)) := by rw [List.take_append_drop]
    _ = names.drop count := by rw [List.filter_append, first, second, List.nil_append]

section Settled

variable (session : Session) (lines : List Bytes)

theorem contains_settled (name : Bytes) :
    (session.settled lines).table.contains name =
      ((session.scanned lines).table.contains name ||
        decide (name ∈ ((Program.ofLines lines).variableNames session.table).take
          session.room)) := by
  have distinct := (session.nodup_variableNames lines).sublist (List.take_sublist session.room _)
  have unbound : ∀ name ∈ ((Program.ofLines lines).variableNames session.table).take session.room,
      (session.scanned lines).table.contains name = false := by
    intro name member
    exact session.unbound_variableNames lines name (List.mem_of_mem_take member)
  rw [SymbolTable.contains_eq_isSome_get?, settled, get?_allot distinct unbound,
    SymbolTable.contains_eq_isSome_get?]
  split
  · next member => simp [member]
  · next other => simp [other]

theorem contains_settled_of_scanned {name : Bytes}
    (bound : (session.scanned lines).table.contains name = true) :
    (session.settled lines).table.contains name = true := by
  rw [contains_settled, bound]
  rfl

/-- The variables of a text that are left unbound are those beyond the last address. -/
theorem variableNames_settled :
    (Program.ofLines lines).variableNames (session.settled lines).table =
      ((Program.ofLines lines).variableNames session.table).drop session.room := by
  have extended (name : Bytes) (bound : session.table.contains name = true) :
      (session.settled lines).table.contains name = true := by
    apply contains_settled_of_scanned
    rw [contains_scanned, bound]
    rfl
  have unbound := session.unbound_variableNames lines
  rw [Program.variableNames_of_extends _ extended,
    ← filter_not_mem_take (session.nodup_variableNames lines) session.room]
  apply List.filter_congr
  intro name member
  rw [contains_settled, unbound name member, Bool.false_or, decide_not]

theorem room_scanned : (session.scanned lines).room = session.room := by
  rw [room, room, scanned_nextVariable]

theorem room_settled :
    (session.settled lines).room =
      session.room - ((Program.ofLines lines).variableNames session.table).length := by
  have fits : (((Program.ofLines lines).variableNames session.table).take session.room).length ≤
      (session.scanned lines).room := by
    rw [room_scanned]
    exact List.length_take_le _ _
  have cursor := toNat_nextVariable_allot fits
  rw [scanned_nextVariable, List.length_take] at cursor
  rw [room, settled, cursor, Nat.sub_add_eq, ← room]
  omega

theorem config_settled : (session.settled lines).config = session.config := by
  rw [settled, allot_eq Session.config fun _ _ => rfl]
  exact scanned_eq Session.config (fun _ => rfl) (fun _ _ => rfl) session lines

end Settled

/-! ## A first pass over what is bound -/

/-- Scanning a text binds nothing if all its labels are bound. -/
theorem symbols_scanned {session : Session} {lines : List Bytes}
    (bound : ∀ name, ((Program.ofLines lines).labelAddress? name).isSome = true →
      session.table.contains name = true) :
    (session.scanned lines).symbols = session.symbols := by
  have sameTable : (session.scanned lines).table = session.table := by
    apply SymbolTable.ext_get?
    intro name
    rw [get?_scanned]
    cases known : session.table.get? name with
    | some value => rfl
    | none =>
        cases declared : (Program.ofLines lines).labelAddress? name with
        | none => rfl
        | some address =>
            have holds := bound name (by rw [declared]; rfl)
            rw [SymbolTable.contains_eq_isSome_get?, known] at holds
            cases holds
  rw [symbols, symbols, sameTable, scanned_nextVariable]

/-- The labels that a scan has bound are found bound by a scan of the same lines. -/
theorem symbols_scanned_again {session other : Session} {lines : List Bytes}
    (same : other.symbols = (session.scanned lines).symbols) :
    (other.scanned lines).symbols = other.symbols := by
  apply symbols_scanned
  intro name declared
  have sameTable : other.table = (session.scanned lines).table := congrArg Symbols.table same
  rw [sameTable, contains_scanned, declared, Bool.or_true]

/-- Behind a first pass, no further variable of the text gets an address. -/
theorem symbols_settled_again {session other : Session} {lines : List Bytes}
    (same : other.symbols = (session.settled lines).symbols) :
    ((Program.ofLines lines).variableNames other.table)[other.room]? =
        ((Program.ofLines lines).variableNames session.table)[session.room]? ∧
      (other.settled lines).symbols = other.symbols := by
  have sameTable : other.table = (session.settled lines).table := congrArg Symbols.table same
  have sameCursor : other.nextVariable = (session.settled lines).nextVariable :=
    congrArg Symbols.cursor same
  have left : (Program.ofLines lines).variableNames other.table =
      ((Program.ofLines lines).variableNames session.table).drop session.room := by
    rw [sameTable, variableNames_settled]
  have sameRoom : other.room =
      session.room - ((Program.ofLines lines).variableNames session.table).length := by
    rw [room, sameCursor, ← room, room_settled]
  have none_fits : ((Program.ofLines lines).variableNames other.table).take other.room = [] := by
    rw [left, sameRoom, List.take_eq_nil_iff, List.drop_eq_nil_iff]
    omega
  have labels : (other.scanned lines).symbols = other.symbols := by
    apply symbols_scanned
    intro name declared
    rw [sameTable]
    apply contains_settled_of_scanned
    rw [contains_scanned, declared, Bool.or_true]
  constructor
  · rw [left, sameRoom, List.getElem?_drop]
    -- either there were addresses for all variables, or there is none left
    by_cases fits : ((Program.ofLines lines).variableNames session.table).length ≤ session.room
    · rw [List.getElem?_eq_none (by omega), List.getElem?_eq_none fits]
    · congr 1
      omega
  · rw [settled, none_fits, allot_nil, labels]

/-- A first pass ends in the same way when it is repeated, and binds nothing then. -/
theorem firstPass_again {source : Source} {canceled : Bool} {session other : Session}
    (sameConfig : other.config = session.config)
    (sameSymbols : other.symbols = (after (firstPass source canceled) session).symbols) :
    outcome (firstPass source canceled) other = outcome (firstPass source canceled) session ∧
      (after (firstPass source canceled) other).symbols = other.symbols := by
  cases canceled with
  | true => exact ⟨rfl, rfl⟩
  | false =>
      cases faults : collect (scanFault? session.config) [] source.lines with
      | cons found more =>
          obtain ⟨clean, line, rest, lines, nothing, fault⟩ :=
            exists_first_of_collect_eq_cons faults
          have first := firstPass_of_fault lines nothing fault
          rw [← sameConfig] at nothing fault
          have second := firstPass_of_fault lines nothing fault
          rw [after_of_error first] at sameSymbols
          rw [outcome_of_error first, outcome_of_error second, after_of_error second]
          exact ⟨rfl, symbols_scanned_again sameSymbols⟩
      | nil =>
          cases broken : source.readFault with
          | some fault =>
              have first := firstPass_of_readFault broken faults
              rw [← sameConfig] at faults
              have second := firstPass_of_readFault broken faults
              rw [after_of_error first] at sameSymbols
              rw [outcome_of_error first, outcome_of_error second, after_of_error second]
              exact ⟨rfl, symbols_scanned_again sameSymbols⟩
          | none =>
              rw [after_firstPass_of_clean broken faults] at sameSymbols
              obtain ⟨sameExcess, nothingBound⟩ := symbols_settled_again sameSymbols
              have first := outcome_firstPass_of_clean broken faults
              rw [← sameConfig] at faults
              rw [first, outcome_firstPass_of_clean broken faults, sameExcess,
                after_firstPass_of_clean broken faults]
              exact ⟨rfl, nothingBound⟩

/-- A first pass leaves the settings alone. -/
theorem config_after_firstPass (source : Source) (canceled : Bool) (session : Session) :
    (after (firstPass source canceled) session).config = session.config := by
  have scannedConfig (lines : List Bytes) : (session.scanned lines).config = session.config :=
    scanned_eq Session.config (fun _ => rfl) (fun _ _ => rfl) session lines
  cases canceled with
  | true => rfl
  | false =>
      cases faults : collect (scanFault? session.config) [] source.lines with
      | cons found more =>
          obtain ⟨clean, line, rest, lines, nothing, fault⟩ :=
            exists_first_of_collect_eq_cons faults
          rw [after_of_error (firstPass_of_fault lines nothing fault)]
          exact scannedConfig clean
      | nil =>
          cases broken : source.readFault with
          | some fault =>
              rw [after_of_error (firstPass_of_readFault broken faults)]
              exact scannedConfig source.lines
          | none =>
              rw [after_firstPass_of_clean broken faults]
              exact config_settled session source.lines

/-! ## Second passes side by side -/

/-- The sessions know the same as `base` does, and they are at the same place of a second
pass: at most the noted names tell them apart. -/
structure Beside (base session session' : Session) : Prop where
  config : session.config = base.config
  symbols : session.symbols = base.symbols
  same : session' = { session with references := session'.references }

section Beside

variable {α : Type} {base : Session}

theorem inStep_beside : InStep (Beside base) where
  config _ _ beside := by rw [beside.same]
  line _ _ beside := by rw [beside.same]
  count _ _ _ beside := ⟨beside.config, beside.symbols, by rw [beside.same]; rfl⟩
  countRefused _ _ beside := ⟨beside.config, beside.symbols, by rw [beside.same]; rfl⟩

theorem respects_rejectEncoding (statement : Statement) (error : EncodingError) :
    Respects (Beside base) (rejectEncoding statement error : SessionM α) := by
  cases error with
  | unknownSymbol unknown =>
      rintro session session' ⟨config, symbols, same⟩
      rw [same]
      exact .error ⟨rfl, config, symbols, rfl⟩
  | _ => exact inStep_beside.reject statement _

theorem respects_emit (writer : BlockWriter) (statement : Statement)
    (instruction : Instruction) : Respects (Beside base) (emit writer statement instruction) := by
  rintro session session' ⟨config, symbols, same⟩
  rw [same]
  simp only [emit]
  cases writer.write (instruction.digits ++ [Byte.lineFeed]) with
  | error fault => exact .error ⟨rfl, config, symbols, rfl⟩
  | ok next => exact .ok ⟨config, symbols, rfl⟩

theorem respects_finish (writer : BlockWriter) : Respects (Beside base) (finish writer) := by
  intro session session' beside
  rw [finish, finish]
  cases writer.finish with
  | error fault => exact .error ⟨rfl, beside⟩
  | ok sink => exact .ok beside

theorem respects_emitLine (writer : BlockWriter) (line : Bytes) :
    Respects (Beside base) (emitLine writer line) := by
  apply Respects.bind (inStep_beside.advance line)
  intro statement
  split
  · exact inStep_beside.reject statement _
  · apply Respects.look
    · intro s t beside
      rw [beside.same]
    · intro session
      split
      · exact Respects.pure writer
      · exact respects_rejectEncoding statement _
      · exact respects_emit writer statement _

theorem respects_secondPass (source : Source) (sink : Sink) (canceled : Bool) :
    Respects (Beside base) (secondPass source sink canceled) := by
  apply Respects.bind (Respects.checkCanceled canceled)
  intro _
  apply Respects.bind (Respects.foldlM respects_emitLine source.lines _)
  intro writer
  apply Respects.bind (inStep_beside.expectEnd source)
  intro _
  exact respects_finish writer

end Beside

/-! ## Whole runs -/

section Again

variable {source : Source} {sink : Sink} {canceled : Bool} {session middle middle' : Session}

theorem beside_rewound (sameConfig : middle'.config = middle.config)
    (sameSymbols : middle'.symbols = middle.symbols) :
    Beside middle middle.rewound middle'.rewound where
  config := rfl
  symbols := rfl
  same := by
    have sameTable : middle'.table = middle.table := congrArg Symbols.table sameSymbols
    have sameCursor : middle'.nextVariable = middle.nextVariable :=
      congrArg Symbols.cursor sameSymbols
    simp only [rewound, sameConfig, sameTable, sameCursor]

/-- What follows a first pass depends on the settings and the symbols alone, and changes
neither. -/
theorem matches_rewind_secondPass (sameConfig : middle'.config = middle.config)
    (sameSymbols : middle'.symbols = middle.symbols) :
    Matches (Beside middle)
      (fun failure failure' reached reached' => failure = failure' ∧
        reached.config = middle.config ∧ reached.symbols = middle.symbols ∧
        reached'.symbols = middle.symbols)
      ((rewind source >>= fun _ => secondPass source sink canceled) middle)
      ((rewind source >>= fun _ => secondPass source sink canceled) middle') := by
  cases intact : source.rewindFault with
  | some fault =>
      have stops (s : Session) : rewind source s = .error (.rewindFailed fault) s := by
        rw [rewind, intact]
      rw [bind_of_error (stops middle), bind_of_error (stops middle')]
      exact .error ⟨rfl, rfl, rfl, sameSymbols⟩
  | none =>
      rw [bind_of_ok (rewind_of_intact intact middle),
        bind_of_ok (rewind_of_intact intact middle')]
      refine (respects_secondPass source sink canceled _ _
        (beside_rewound sameConfig sameSymbols)).mono (fun _ _ beside => beside) ?_
      rintro failure failure' reached reached' ⟨sameFailure, beside⟩
      refine ⟨sameFailure, beside.config, beside.symbols, ?_⟩
      rw [beside.same]
      exact beside.symbols

theorem kept_rewind_secondPass (source : Source) (sink : Sink) (canceled : Bool)
    (middle : Session) :
    (after (rewind source >>= fun _ => secondPass source sink canceled) middle).config =
        middle.config ∧
      (after (rewind source >>= fun _ => secondPass source sink canceled) middle).symbols =
        middle.symbols := by
  have itself : Matches _ _ ((rewind source >>= fun _ => secondPass source sink canceled) middle)
      ((rewind source >>= fun _ => secondPass source sink canceled) middle) :=
    matches_rewind_secondPass rfl rfl
  generalize result : (rewind source >>= fun _ => secondPass source sink canceled) middle = ends
    at itself
  cases itself with
  | ok related =>
      rw [after_of_ok result]
      exact ⟨related.config, related.symbols⟩
  | error related =>
      rw [after_of_error result]
      exact ⟨related.2.1, related.2.2.1⟩

theorem assemble_of_invalid {error : ConfigError}
    (invalid : session.config.validate = .error error) :
    assemble source sink canceled session = .error (.config error) session := by
  have refused : checkConfig session = .error (.config error) session := by
    simp only [checkConfig, invalid]
  exact bind_of_error refused

/-- A first pass that fails fails again, and so does the run that it is a part of. -/
theorem firstPass_again_of_error {failure : Failure} {reached : Session}
    (failed : firstPass source canceled session = .error failure reached) :
    ∃ reached', firstPass source canceled reached = .error failure reached' ∧
      reached'.symbols = reached.symbols := by
  have left := after_of_error failed
  have sameConfig := config_after_firstPass source canceled session
  rw [left] at sameConfig
  have sameSymbols : reached.symbols = (after (firstPass source canceled) session).symbols := by
    rw [left]
  obtain ⟨sameOutcome, kept⟩ := firstPass_again sameConfig sameSymbols
  rw [outcome_of_error failed] at sameOutcome
  exact ⟨_, eq_of_outcome_eq_error sameOutcome, kept⟩

/-- A first pass that goes through goes through again, with the same symbols. -/
theorem firstPass_again_of_ok {other : Session}
    (passed : firstPass source canceled session = .ok () middle)
    (sameConfig : other.config = middle.config) (sameSymbols : other.symbols = middle.symbols) :
    ∃ middle', firstPass source canceled other = .ok () middle' ∧
      middle'.config = middle.config ∧ middle'.symbols = middle.symbols := by
  have left := after_of_ok passed
  have keptConfig := config_after_firstPass source canceled session
  rw [left] at keptConfig
  rw [← left] at sameSymbols
  obtain ⟨sameOutcome, kept⟩ := firstPass_again (sameConfig.trans keptConfig) sameSymbols
  rw [outcome_of_ok passed] at sameOutcome
  refine ⟨_, eq_of_outcome_eq_ok sameOutcome, ?_, ?_⟩
  · exact (config_after_firstPass source canceled other).trans sameConfig
  · rw [kept, sameSymbols, left]

/-- The end of a run matches the end of the run that follows it. -/
theorem matches_assemble_again (source : Source) (sink : Sink) (canceled : Bool)
    (session : Session) :
    Matches (fun once twice => ∃ middle, Beside middle once twice)
      (fun failure failure' once twice => failure = failure' ∧ twice.symbols = once.symbols)
      (assemble source sink canceled session)
      (assemble source sink canceled (after (assemble source sink canceled) session)) := by
  cases valid : session.config.validate with
  | error error =>
      have refused : assemble source sink canceled session = .error (.config error) session :=
        assemble_of_invalid valid
      rw [after_of_error refused, refused]
      exact .error ⟨rfl, rfl⟩
  | ok value =>
      have run : assemble source sink canceled session =
          (firstPass source canceled >>= fun _ => rewind source >>= fun _ =>
            secondPass source sink canceled) session := assemble_of_valid valid canceled
      have config := config_after_firstPass source canceled session
      cases first : firstPass source canceled session with
      | error failure reached =>
          rw [bind_of_error first] at run
          obtain ⟨reached', again, kept⟩ := firstPass_again_of_error first
          rw [after_of_error first] at config
          rw [← config] at valid
          rw [after_of_error run, run, assemble_of_valid valid, bind_of_error again]
          exact .error ⟨rfl, kept⟩
      | ok value middle =>
          rw [bind_of_ok first] at run
          rw [after_of_ok first] at config
          have left : after (assemble source sink canceled) session =
              after (rewind source >>= fun _ => secondPass source sink canceled) middle := by
            rw [after, run, ← after]
          obtain ⟨keptConfig, keptSymbols⟩ := kept_rewind_secondPass source sink canceled middle
          rw [← left] at keptConfig keptSymbols
          obtain ⟨middle', again, sameConfig, sameSymbols⟩ :=
            firstPass_again_of_ok first keptConfig keptSymbols
          rw [← config, ← keptConfig] at valid
          rw [run, assemble_of_valid valid, bind_of_ok again]
          refine (matches_rewind_secondPass sameConfig sameSymbols).mono
            (fun _ _ beside => ⟨middle, beside⟩) ?_
          rintro failure failure' once twice ⟨sameFailure, -, onceSymbols, twiceSymbols⟩
          exact ⟨sameFailure, twiceSymbols.trans onceSymbols.symm⟩

end Again

/-- Assembling a source a second time ends as the first time did, in the same value or in
the same failure, and leaves the table and the variable cursor as they are. If it succeeds,
the listing and the counters are the same too. A repeated first pass does no more. -/
theorem assemble_again (source : Source) (sink : Sink) (canceled : Bool) (session : Session) :
    let run := assemble source sink canceled
    let once := after run session
    let twice := after run once
    let pass := firstPass source canceled
    (outcome run once = outcome run session ∧ twice.symbols = once.symbols ∧
      ∀ written, outcome run session = .ok written →
        twice.listing = once.listing ∧ twice.line = once.line ∧
          twice.instructions = once.instructions) ∧
    outcome pass (after pass session) = outcome pass session ∧
      (after pass (after pass session)).symbols = (after pass session).symbols := by
  intro run once twice pass
  refine ⟨?_, firstPass_again (config_after_firstPass source canceled session) rfl⟩
  have ends : Matches _ _ (run session) (run once) :=
    matches_assemble_again source sink canceled session
  have left : once = after run session := rfl
  have leftAgain : twice = after run once := rfl
  generalize first : run session = result, second : run once = result' at ends
  cases ends with
  | ok related =>
      obtain ⟨middle, beside⟩ := related
      rw [after_of_ok first] at left
      rw [after_of_ok second] at leftAgain
      rw [outcome_of_ok first, outcome_of_ok second, left, leftAgain, beside.same]
      exact ⟨rfl, rfl, fun _ _ => ⟨rfl, rfl, rfl⟩⟩
  | error related =>
      obtain ⟨rfl, sameSymbols⟩ := related
      rw [after_of_error first] at left
      rw [after_of_error second] at leftAgain
      rw [outcome_of_error first, outcome_of_error second, left, leftAgain]
      exact ⟨rfl, sameSymbols, nofun⟩

end Session

end HackAssembler
