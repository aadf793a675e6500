/-
# Scanning a text

What the loop of the first pass makes of its lines. Reading a line either fails with the
fault that the line has where it stands, or takes the command of the line into the
session. So the loop stops at the first faulty line, and without one it leaves the labels
of the program bound and the names noted that were unbound when they were met. The
counters move along with the lines in the same way in both passes.
-/

import HackAssembler.Proofs.Program
import HackAssembler.Proofs.Run

namespace HackAssembler

namespace Session

/-- The counters of a session stand behind these lines. -/
structure IsAt (session : Session) (before : List Bytes) : Prop where
  line : session.line = before.length
  instructions : session.instructions = (Program.ofLines before).emitted

/-- Count a line with its command. -/
def count (session : Session) (command : Command) : Session :=
  { session with
    line := session.line + 1
    instructions := session.instructions + Program.emitted [command] }

/-- Count a line that is refused. -/
def countRefused (session : Session) : Session := { session with line := session.line + 1 }

/-- The counters move along with the lines. -/
theorem IsAt.count {session : Session} {before : List Bytes} (at_before : session.IsAt before)
    (line : Bytes) : (session.count (Command.ofLine line)).IsAt (before ++ [line]) where
  line := by simp [Session.count, at_before.line]
  instructions := by simp [Session.count, at_before.instructions, Program.ofLines]

/-- A line is refused for its length alone, and is counted all the same. -/
theorem advance_eq (line : Bytes) (session : Session) :
    advance line session =
      if session.config.maxLineLength < ((Line.dropTerminator line).length : Int) then
        .error (.lineTooLong (session.line + 1)) session.countRefused
      else .ok (Statement.ofLine line) (session.count (Command.ofLine line)) := by
  simp only [advance, count, countRefused, Command.ofLine]
  split
  · rfl
  · cases emits : (Statement.ofLine line).command.emits <;> simp [Program.emitted, emits]

/-! ## Scanning lines -/

/-- Bind what the command declares to an address. -/
def declared (table : SymbolTable) (address : Nat) : Command → SymbolTable
  | .label name _ => table.bind name (BitVec.ofNat 16 address)
  | .skip | .address .. | .compute .. | .malformed _ => table

/-- Note what the command refers to, if it is unbound. -/
def noted (references : NameSequence) (table : SymbolTable) (command : Command) :
    NameSequence :=
  match command.reference? with
  | some name => if table.contains name then references else references.insert name
  | none => references

/-- Take the command of a line into the session. -/
def scan (session : Session) (command : Command) : Session :=
  { session.count command with
    table := declared session.table session.instructions command
    references := noted session.references session.table command }

/-- A line that is not too long is counted before its command is looked at. -/
theorem scanLine_of_fits {session : Session} {line : Bytes}
    (fits : ¬ session.config.maxLineLength < ((Line.dropTerminator line).length : Int)) :
    scanLine line session =
      (match Command.ofLine line with
        | .skip | .compute .. => pure ()
        | .address operand _ => noteOperand operand
        | .label name _ => bindLabel (Statement.ofLine line) name
        | .malformed reason => reject (Statement.ofLine line) reason.message : SessionM Unit)
        (session.count (Command.ofLine line)) := by
  have advanced : advance line session =
      .ok (Statement.ofLine line) (session.count (Command.ofLine line)) := by
    rw [advance_eq, if_neg fits]
  rw [scanLine, bind_of_ok advanced]
  rfl

theorem scanLine_of_long {session : Session} {line : Bytes}
    (long : session.config.maxLineLength < ((Line.dropTerminator line).length : Int)) :
    scanLine line session =
      .error (.lineTooLong (session.line + 1)) session.countRefused := by
  have refused : advance line session =
      .error (.lineTooLong (session.line + 1)) session.countRefused := by
    rw [advance_eq, if_pos long]
  exact bind_of_error refused

/-- A line without a fault is taken into the session. -/
theorem scanLine_of_clean {session : Session} {before : List Bytes} {line : Bytes}
    (here : session.IsAt before) (clean : scanFault? session.config before line = none) :
    scanLine line session = .ok () (session.scan (Command.ofLine line)) := by
  obtain ⟨short, wellFormed, addressable⟩ := scanFault?_eq_none_iff.1 clean
  rw [scanLine_of_fits short]
  cases command : Command.ofLine line with
  | skip | compute text trailer => rfl
  | malformed reason => exact absurd command (wellFormed reason)
  | address operand trailer =>
      simp only [noteOperand, scan, noted, declared, Command.reference?, count]
      by_cases symbolic : Line.isSymbolic operand = true
      · by_cases bound : session.table.contains operand = true
        · simp [symbolic, bound]
        · simp [symbolic, bound]
      · simp [symbolic]
  | label name trailer =>
      have fits : session.instructions ≤ maxAddress := by
        rw [here.instructions]
        exact addressable name trailer command
      show bindLabel (Statement.ofLine line) name _ = _
      rw [bindLabel]
      exact if_pos fits

/-- A faulty line is counted, and the session is otherwise left as it was. -/
theorem scanLine_of_fault {session : Session} {before : List Bytes} {line : Bytes}
    {failure : Failure} (here : session.IsAt before)
    (fault : scanFault? session.config before line = some failure) :
    scanLine line session = .error failure session.countRefused := by
  rw [scanFault?] at fault
  by_cases long : session.config.maxLineLength < ((Line.dropTerminator line).length : Int)
  · rw [if_pos long, ← here.line] at fault
    cases fault
    exact scanLine_of_long long
  · rw [if_neg long, ← here.line, ← here.instructions] at fault
    rw [scanLine_of_fits long]
    cases command : Command.ofLine line with
    | skip | compute text trailer | address operand trailer => simp [command] at fault
    | malformed reason =>
        rw [command] at fault
        cases fault
        rfl
    | label name trailer =>
        rw [command] at fault
        have tooLarge : ¬ session.instructions ≤ maxAddress := fun fits => by
          simp [fits] at fault
        simp only [tooLarge, if_false] at fault
        cases fault
        show bindLabel (Statement.ofLine line) name _ = _
        rw [bindLabel]
        exact if_neg tooLarge

/-! ## Scanning a text -/

/-- What no line changes is not changed by a program. -/
theorem foldl_scan_eq {α : Type} (view : Session → α)
    (kept : ∀ session command, view (session.scan command) = view session)
    (program : Program) (session : Session) : view (program.foldl scan session) = view session := by
  induction program generalizing session with
  | nil => rfl
  | cons command program ih => rw [List.foldl_cons, ih, kept]

theorem IsAt.foldl_scan {session : Session} {before : List Bytes} (here : session.IsAt before)
    (lines : List Bytes) :
    ((Program.ofLines lines).foldl scan session).IsAt (before ++ lines) := by
  induction lines generalizing session before with
  | nil => simpa [Program.ofLines] using here
  | cons line lines ih =>
      have next : (session.scan (Command.ofLine line)).IsAt (before ++ [line]) :=
        ⟨(here.count line).line, (here.count line).instructions⟩
      simpa [Program.ofLines] using ih next

/-- A text without a fault is taken into the session line by line. -/
theorem forM_scanLine_of_clean {session : Session} {before lines : List Bytes}
    (here : session.IsAt before)
    (clean : collect (scanFault? session.config) before lines = []) :
    lines.forM scanLine session = .ok () ((Program.ofLines lines).foldl scan session) := by
  induction lines generalizing session before with
  | nil => rfl
  | cons line lines ih =>
      obtain ⟨first, rest⟩ := List.append_eq_nil_iff.1 clean
      have taken := scanLine_of_clean here (Option.toList_eq_nil_iff.1 first)
      have next := here.foldl_scan [line]
      show (scanLine line >>= fun _ => lines.forM scanLine) session = _
      rw [bind_of_ok taken]
      exact ih next rest

/-- A text is read up to its first faulty line. -/
theorem forM_scanLine_of_fault {session : Session} {before clean : List Bytes} {line : Bytes}
    {failure : Failure} (rest : List Bytes) (here : session.IsAt before)
    (nothing : collect (scanFault? session.config) before clean = [])
    (fault : scanFault? session.config (before ++ clean) line = some failure) :
    (clean ++ line :: rest).forM scanLine session =
      .error failure ((Program.ofLines clean).foldl scan session).countRefused := by
  rw [forM_append_of_ok (forM_scanLine_of_clean here nothing)]
  refine bind_of_error (scanLine_of_fault (here.foldl_scan clean) ?_)
  rw [foldl_scan_eq Session.config fun _ _ => rfl]
  exact fault

/-! ## What is bound and noted -/

theorem get?_declared (table : SymbolTable) (address : Nat) (command : Command)
    (name : Bytes) :
    (declared table address command).get? name =
      (table.get? name).or
        (if command.declares name then some (BitVec.ofNat 16 address) else none) := by
  cases command with
  | label label trailer =>
      simp only [declared, SymbolTable.get?_bind, Command.declares, beq_iff_eq]
      by_cases same : label = name
      · subst same
        cases table.get? label <;> simp
      · simp [same]
  | _ => simp [declared, Command.declares]

/-- A program binds its labels to their addresses, except those that were bound before. -/
theorem get?_foldl_scan (program : Program) (session : Session) (name : Bytes) :
    (program.foldl scan session).table.get? name =
      (session.table.get? name).or ((program.labelAddress? name).map fun address =>
        BitVec.ofNat 16 (session.instructions + address)) := by
  induction program generalizing session with
  | nil => simp [Program.labelAddress?]
  | cons command program ih =>
      rw [List.foldl_cons, ih, Program.labelAddress?_cons]
      show ((declared session.table session.instructions command).get? name).or
        ((Program.labelAddress? program name).map fun address =>
          BitVec.ofNat 16 (session.instructions + Program.emitted [command] + address)) = _
      rw [get?_declared, Option.or_assoc]
      congr 1
      by_cases declares : command.declares name = true
      · simp [declares]
      · simp [declares, Nat.add_assoc, Function.comp_def]

/-- A name that is bound stays bound while a program is scanned. -/
theorem contains_foldl_scan {session : Session} {name : Bytes}
    (bound : session.table.contains name = true) (program : Program) :
    (program.foldl scan session).table.contains name = true := by
  rw [SymbolTable.contains_eq_isSome_get?] at bound ⊢
  rw [get?_foldl_scan]
  simp [bound]

/-- A list is freed of repetitions by dropping each element that has occurred. -/
theorem eraseDups_concat (names : List Bytes) (name : Bytes) :
    (names ++ [name]).eraseDups =
      if name ∈ names then names.eraseDups else names.eraseDups ++ [name] := by
  rw [List.eraseDups_append]
  by_cases member : name ∈ names
  · simp [member, List.cons_removeAll]
  · simp [member, List.cons_removeAll, List.eraseDups_cons]

/-- Noting a name adds it to those seen so far; whether a name that is not wanted is
noted makes no difference. -/
theorem filter_noted {references : NameSequence} {table : SymbolTable}
    {wanted : Bytes → Bool} {seen : List Bytes} (command : Command)
    (unbound : ∀ name, wanted name = true → table.contains name = false)
    (sofar : references.toList.filter wanted = (seen.filter wanted).eraseDups) :
    (noted references table command).toList.filter wanted =
      ((seen ++ command.reference?.toList).filter wanted).eraseDups := by
  cases referred : command.reference? with
  | none => simp [noted, referred, sofar]
  | some name =>
      by_cases want : wanted name = true
      · have member : name ∈ references.toList ↔ name ∈ seen := by
          have same := congrArg (name ∈ ·) sofar
          simpa [want] using same
        have insert : noted references table command = references.insert name := by
          simp [noted, referred, unbound name want]
        rw [insert, NameSequence.toList_insert, Option.toList_some, List.filter_append,
          List.filter_cons_of_pos want, List.filter_nil, eraseDups_concat]
        by_cases before : name ∈ seen
        · simp [member, before, want, sofar]
        · simp [member, before, want, sofar]
      · have dropped : (noted references table command).toList.filter wanted =
            references.toList.filter wanted := by
          simp only [noted, referred]
          split
          · rfl
          · rw [NameSequence.toList_insert]
            split
            · rfl
            · simp [want]
        simp [dropped, want, sofar]

/-- The wanted names that a program leaves noted are the wanted names among its
references, if only names that stay unbound are wanted. -/
theorem filter_references_foldl_scan {wanted : Bytes → Bool} (program : Program)
    (session : Session) (seen : List Bytes)
    (unbound : ∀ name, wanted name = true →
      (program.foldl scan session).table.contains name = false)
    (sofar : session.references.toList.filter wanted = (seen.filter wanted).eraseDups) :
    (program.foldl scan session).references.toList.filter wanted =
      ((seen ++ program.references).filter wanted).eraseDups := by
  induction program generalizing session seen with
  | nil => simpa [Program.references] using sofar
  | cons command program ih =>
      have unboundHere (name : Bytes) (want : wanted name = true) :
          session.table.contains name = false := by
        cases bound : session.table.contains name with
        | false => rfl
        | true =>
            have stays := contains_foldl_scan bound (command :: program)
            rw [unbound name want] at stays
            cases stays
      have step := filter_noted command unboundHere sofar
      have rest := ih (session.scan command) (seen ++ command.reference?.toList) unbound step
      rw [List.foldl_cons, rest, List.append_assoc]
      congr 3
      cases referred : command.reference? <;> simp [Program.references, referred]

end Session

end HackAssembler
