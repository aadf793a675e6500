/-
# The first pass

The first pass as a whole: the scan of the source and the addresses for its variables.
The variables of the program are those of the noted names that are unbound when the
source ends, in the order in which they were noted. After a pass that succeeds, every
symbol of the program is bound to what it stands for.
-/

import HackAssembler.Proofs.Allocation
import HackAssembler.Proofs.Scanning

namespace HackAssembler

namespace Session

/-- The session behind a text that is scanned from its start. -/
def scanned (session : Session) (lines : List Bytes) : Session :=
  (Program.ofLines lines).foldl scan session.startFirstPass

/-- The session with all symbols of a text bound. -/
def linked (session : Session) (lines : List Bytes) : Session :=
  (session.scanned lines).allot ((Program.ofLines lines).variableNames session.table)

theorem isAt_startFirstPass (session : Session) : session.startFirstPass.IsAt [] := ⟨rfl, rfl⟩

/-- What neither counting nor scanning changes is as it was before the pass. -/
theorem scanned_eq {α : Type} (view : Session → α)
    (started : ∀ session, view session.startFirstPass = view session)
    (kept : ∀ session command, view (session.scan command) = view session)
    (session : Session) (lines : List Bytes) : view (session.scanned lines) = view session := by
  rw [scanned, foldl_scan_eq view kept, started]

theorem scanned_nextVariable (session : Session) (lines : List Bytes) :
    (session.scanned lines).nextVariable = session.nextVariable :=
  scanned_eq Session.nextVariable (fun _ => rfl) (fun _ _ => rfl) session lines

theorem get?_scanned (session : Session) (lines : List Bytes) (name : Bytes) :
    (session.scanned lines).table.get? name =
      (session.table.get? name).or
        (((Program.ofLines lines).labelAddress? name).map (BitVec.ofNat 16)) := by
  rw [scanned, get?_foldl_scan]
  show (session.table.get? name).or
    (((Program.ofLines lines).labelAddress? name).map fun address =>
      BitVec.ofNat 16 (0 + address)) = _
  simp only [Nat.zero_add]

theorem contains_scanned (session : Session) (lines : List Bytes) (name : Bytes) :
    (session.scanned lines).table.contains name =
      (session.table.contains name || ((Program.ofLines lines).labelAddress? name).isSome) := by
  rw [SymbolTable.contains_eq_isSome_get?, SymbolTable.contains_eq_isSome_get?, get?_scanned]
  cases session.table.get? name <;> simp

/-- The noted names that are unbound in the end are the variables of the program. -/
theorem filter_references_scanned (session : Session) (lines : List Bytes) :
    ((session.scanned lines).references.toList.filter fun name =>
        !(session.scanned lines).table.contains name) =
      (Program.ofLines lines).variableNames session.table := by
  have unbound (name : Bytes)
      (wanted : (!(session.scanned lines).table.contains name) = true) :
      (session.scanned lines).table.contains name = false := by
    simpa using wanted
  have noted := filter_references_foldl_scan (Program.ofLines lines) session.startFirstPass []
    unbound rfl
  rw [scanned] at noted ⊢
  rw [noted, Program.variableNames, List.nil_append]
  congr 2
  funext name
  rw [← scanned, contains_scanned]
  simp

theorem nodup_variableNames (session : Session) (lines : List Bytes) :
    ((Program.ofLines lines).variableNames session.table).Nodup := by
  rw [← filter_references_scanned]
  exact (session.scanned lines).references.nodup.filter _

/-- No variable is bound before it gets its address. -/
theorem unbound_variableNames (session : Session) (lines : List Bytes) :
    ∀ name ∈ (Program.ofLines lines).variableNames session.table,
      (session.scanned lines).table.contains name = false := by
  intro name member
  rw [← filter_references_scanned] at member
  simpa using (List.mem_filter.1 member).2

/-! ## How the loop over the lines ends -/

/-- The loop of the first pass: every line is read, and then the source has to end. -/
def scanSource (source : Source) : SessionM Unit := do
  source.lines.forM scanLine
  expectEnd source

/-- The loop stops at the first faulty line. -/
theorem scanSource_of_fault {source : Source} {session : Session} {clean rest : List Bytes}
    {line : Bytes} {failure : Failure} (lines : source.lines = clean ++ line :: rest)
    (nothing : collect (scanFault? session.config) [] clean = [])
    (fault : scanFault? session.config clean line = some failure) :
    scanSource source session.startFirstPass =
      .error failure (session.scanned clean).countRefused := by
  rw [scanSource, lines]
  exact bind_of_error (forM_scanLine_of_fault rest session.isAt_startFirstPass nothing fault)

/-- Without a faulty line the loop comes to the end of what can be read. -/
theorem scanSource_of_clean {source : Source} {session : Session}
    (clean : collect (scanFault? session.config) [] source.lines = []) :
    scanSource source session.startFirstPass =
      match source.readFault with
      | none => .ok () (session.scanned source.lines)
      | some fault =>
        .error (.readFailed (source.lines.length + 1) fault) (session.scanned source.lines) := by
  have read : source.lines.forM scanLine session.startFirstPass =
      .ok () (session.scanned source.lines) :=
    forM_scanLine_of_clean session.isAt_startFirstPass clean
  have counted : (session.scanned source.lines).line = source.lines.length :=
    (session.isAt_startFirstPass.foldl_scan source.lines).line
  rw [scanSource, bind_of_ok read, expectEnd]
  cases source.readFault with
  | none => rfl
  | some fault =>
      show EStateM.Result.error
        (Failure.readFailed ((session.scanned source.lines).line + 1) fault) _ = _
      rw [counted]

/-- The loop comes to the end of the source exactly if it can be read and has no faulty
line. -/
theorem failure?_scanSource_eq_none_iff {source : Source} {session : Session} :
    failure? (scanSource source) session.startFirstPass = none ↔
      source.readFault = none ∧ collect (scanFault? session.config) [] source.lines = [] := by
  cases faults : collect (scanFault? session.config) [] source.lines with
  | cons found more =>
      obtain ⟨clean, line, rest, lines, nothing, fault⟩ := exists_first_of_collect_eq_cons faults
      simp [failure?_of_error (scanSource_of_fault lines nothing fault)]
  | nil =>
      rw [failure?, scanSource_of_clean faults]
      cases source.readFault <;> simp

/-! ## How the pass ends -/

theorem firstPass_of_not_canceled (source : Source) (session : Session) :
    firstPass source false session =
      (source.lines.forM scanLine >>= fun _ => expectEnd source >>= fun _ =>
        allocateVariables) session.startFirstPass := rfl

/-- The pass is its loop, and then the addresses for the variables. -/
theorem firstPass_eq_scanSource (source : Source) (session : Session) :
    firstPass source false session =
      (scanSource source >>= fun _ => allocateVariables) session.startFirstPass := by
  rw [firstPass_of_not_canceled, scanSource, bind_assoc]

/-- The pass fails at the first faulty line. -/
theorem firstPass_of_fault {source : Source} {session : Session} {clean rest : List Bytes}
    {line : Bytes} {failure : Failure} (lines : source.lines = clean ++ line :: rest)
    (nothing : collect (scanFault? session.config) [] clean = [])
    (fault : scanFault? session.config clean line = some failure) :
    firstPass source false session = .error failure (session.scanned clean).countRefused := by
  rw [firstPass_eq_scanSource]
  exact bind_of_error (scanSource_of_fault lines nothing fault)

/-- Without a faulty line the pass fails where the source cannot be read any further. -/
theorem firstPass_of_readFault {source : Source} {session : Session} {fault : Bytes}
    (broken : source.readFault = some fault)
    (clean : collect (scanFault? session.config) [] source.lines = []) :
    firstPass source false session =
      .error (.readFailed (source.lines.length + 1) fault) (session.scanned source.lines) := by
  have stopped := scanSource_of_clean clean
  rw [broken] at stopped
  rw [firstPass_eq_scanSource]
  exact bind_of_error stopped

/-- A source that is read to its end without a fault has its variables bound, as far as
there are addresses for them. -/
theorem firstPass_of_clean {source : Source} {session : Session}
    (readable : source.readFault = none)
    (clean : collect (scanFault? session.config) [] source.lines = []) :
    firstPass source false session =
      match ((Program.ofLines source.lines).variableNames session.table)[session.room]? with
      | none => .ok () (session.linked source.lines)
      | some name =>
        .error (.outOfVariableMemory name) ((session.scanned source.lines).allot
          (((Program.ofLines source.lines).variableNames session.table).take session.room)) := by
  have ended := scanSource_of_clean clean
  rw [readable] at ended
  have sameRoom : (session.scanned source.lines).room = session.room := by
    rw [room, room, scanned_nextVariable]
  have distinct : (session.scanned source.lines).references.toList.Nodup :=
    (session.scanned source.lines).references.nodup
  rw [firstPass_eq_scanSource, bind_of_ok ended]
  show (session.scanned source.lines).references.toList.forM allocate
    (session.scanned source.lines) = _
  rw [forM_allocate_filter distinct,
    filter_references_scanned,
    forM_allocate_of_unbound (session.nodup_variableNames source.lines)
      (session.unbound_variableNames source.lines), sameRoom]
  rfl

/-- However the pass ends, it has not touched the listing. -/
theorem listing_firstPass (source : Source) (canceled : Bool) (session : Session) :
    (after (firstPass source canceled) session).listing = session.listing := by
  have scanned (lines : List Bytes) : (session.scanned lines).listing = session.listing :=
    scanned_eq Session.listing (fun _ => rfl) (fun _ _ => rfl) session lines
  have allotted (names : List Bytes) :
      ((session.scanned source.lines).allot names).listing = session.listing := by
    rw [allot_eq Session.listing fun _ _ => rfl]
    exact scanned source.lines
  cases canceled with
  | true => rfl
  | false =>
      cases faults : collect (scanFault? session.config) [] source.lines with
      | cons found more =>
          obtain ⟨clean, line, rest, lines, nothing, fault⟩ :=
            exists_first_of_collect_eq_cons faults
          rw [after_of_error (firstPass_of_fault lines nothing fault)]
          exact scanned clean
      | nil =>
          cases broken : source.readFault with
          | some fault =>
              rw [after_of_error (firstPass_of_readFault broken faults)]
              exact scanned source.lines
          | none =>
              rw [after, firstPass_of_clean broken faults]
              cases ((Program.ofLines source.lines).variableNames session.table)[session.room]? with
              | none => exact allotted _
              | some name => exact allotted _

/-! ## What symbols stand for -/

/-- A label on a line without a fault has an address that an instruction can carry. -/
theorem labelAddress?_le_maxAddress {config : Config} {lines : List Bytes} {name : Bytes}
    {address : Nat} (clean : collect (scanFault? config) [] lines = [])
    (h : (Program.ofLines lines).labelAddress? name = some address) :
    address ≤ maxAddress := by
  obtain ⟨before, command, rest, program, -, declares, rfl⟩ :=
    Program.exists_first_of_labelAddress? h
  obtain ⟨first, second, rfl, rfl, tail⟩ := List.map_eq_append_iff.1 program
  obtain ⟨line, last, rfl, rfl, rfl⟩ := List.map_eq_cons_iff.1 tail
  have noFault : scanFault? config first line = none := look_eq_none_of_collect_eq_nil clean
  cases command : Command.ofLine line with
  | label declared trailer => exact (scanFault?_eq_none_iff.1 noFault).2.2 declared trailer command
  | _ => simp [command, Command.declares] at declares

theorem get?_linked (session : Session) (lines : List Bytes) (name : Bytes) :
    (session.linked lines).table.get? name =
      if name ∈ (Program.ofLines lines).variableNames session.table then
        some (session.nextVariable +
          BitVec.ofNat 16 (((Program.ofLines lines).variableNames session.table).idxOf name))
      else (session.table.get? name).or
        (((Program.ofLines lines).labelAddress? name).map (BitVec.ofNat 16)) := by
  rw [linked, get?_allot (session.nodup_variableNames lines) (session.unbound_variableNames lines),
    scanned_nextVariable, get?_scanned]

/-- A variable is a symbol of the program that has no other meaning. -/
theorem mem_variableNames_iff {table : SymbolTable} {program : Program} {name : Bytes} :
    name ∈ program.variableNames table ↔
      name ∈ program.references ∧ table.get? name = none ∧
        program.labelAddress? name = none := by
  rw [Program.variableNames, List.mem_eraseDups, List.mem_filter, Bool.and_eq_true,
    Bool.not_eq_true', SymbolTable.contains_eq_isSome_get?, Option.isSome_eq_false_iff,
    Option.isNone_iff_eq_none, Option.isNone_iff_eq_none]

/-- After the first pass every symbol of the program is bound to what it stands for. -/
theorem exists_get?_linked {session : Session} {lines : List Bytes} {name : Bytes}
    (clean : collect (scanFault? session.config) [] lines = [])
    (fits : ((Program.ofLines lines).variableNames session.table).length ≤ session.room)
    (referred : name ∈ (Program.ofLines lines).references) :
    ∃ value, (session.linked lines).table.get? name = some value ∧
      value.toNat = (Program.ofLines lines).resolve session.table
        session.nextVariable.toNat name := by
  rw [get?_linked, Program.resolve]
  cases bound : session.table.get? name with
  | some value =>
      have notVariable : name ∉ (Program.ofLines lines).variableNames session.table := by
        simp [mem_variableNames_iff, bound]
      exact ⟨value, by simp [notVariable], rfl⟩
  | none =>
      cases declared : (Program.ofLines lines).labelAddress? name with
      | some address =>
          have notVariable : name ∉ (Program.ofLines lines).variableNames session.table := by
            simp [mem_variableNames_iff, declared]
          refine ⟨BitVec.ofNat 16 address, by simp [notVariable], ?_⟩
          have small := labelAddress?_le_maxAddress clean declared
          rw [maxAddress] at small
          show (BitVec.ofNat 16 address).toNat = address
          rw [BitVec.toNat_ofNat]
          omega
      | none =>
          have isVariable : name ∈ (Program.ofLines lines).variableNames session.table :=
            mem_variableNames_iff.2 ⟨referred, bound, declared⟩
          refine ⟨_, by rw [if_pos isVariable], ?_⟩
          have place := List.idxOf_lt_length_of_mem isVariable
          rw [room, maxAddress] at fits
          show (session.nextVariable + BitVec.ofNat 16 _).toNat = session.nextVariable.toNat + _
          rw [BitVec.toNat_add, BitVec.toNat_ofNat]
          omega

end Session

end HackAssembler
