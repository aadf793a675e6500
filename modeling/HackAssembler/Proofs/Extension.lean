/-
# Appending to a text

What becomes of a program when more lines are put behind it. Its labels keep their
addresses, since a label counts the instructions before it, and its variables keep theirs,
since variables are numbered in the order of their first reference. There is one way in
which what follows can change the meaning of a name, and that is to declare a name as a
label that was taken for a variable before. Where this does not happen, the longer text
binds all that the shorter one does, and starts with the same words.

Nothing is assumed about the sinks but that both runs succeed.
-/

import HackAssembler.Proofs.Assembly
import HackAssembler.Proofs.Lines

namespace HackAssembler

namespace Program

variable {table : SymbolTable} {first second : Program} {name : Bytes}

/-- Some line of the program declares the name. -/
def Declares (program : Program) (name : Bytes) : Prop :=
  ∃ command ∈ program, command.declares name = true

instance (program : Program) (name : Bytes) : Decidable (program.Declares name) :=
  inferInstanceAs (Decidable (∃ command ∈ program, command.declares name = true))

/-- The second program declares no label that is a variable of the first one: a name that is
referred to there without a line that declares it, and that the table does not bind. -/
def KeepsVariables (table : SymbolTable) (first second : Program) : Prop :=
  ∀ name ∈ first.references, second.Declares name →
    first.Declares name ∨ table.get? name ≠ none

instance (table : SymbolTable) (first second : Program) :
    Decidable (KeepsVariables table first second) :=
  inferInstanceAs (Decidable (∀ name ∈ first.references, second.Declares name →
    first.Declares name ∨ table.get? name ≠ none))

theorem labelAddress?_eq_none_iff {program : Program} :
    program.labelAddress? name = none ↔ ¬ program.Declares name := by
  simp [labelAddress?, Declares]

/-- The first line that declares a label counts, so appending lines does not move it. -/
theorem labelAddress?_append (first second : Program) (name : Bytes) :
    labelAddress? (first ++ second) name =
      (labelAddress? first name).or ((labelAddress? second name).map (emitted first + ·)) := by
  induction first with
  | nil =>
      show labelAddress? second name = (labelAddress? second name).map (0 + ·)
      simp only [Nat.zero_add, Option.map_id']
  | cons command first ih =>
      rw [List.cons_append, labelAddress?_cons, labelAddress?_cons, ih, emitted_cons command first]
      split
      · rfl
      · cases labelAddress? first name with
        | some address => rfl
        | none => simp [Nat.add_assoc, Function.comp_def]

/-- The variables of a program are the first ones of the longer program. -/
theorem variableNames_prefix (keeps : KeepsVariables table first second) :
    first.variableNames table <+: (first ++ second).variableNames table := by
  -- what the first program refers to counts as a variable of either program, or of neither
  have same : (first.references.filter fun name =>
        !table.contains name && (labelAddress? (first ++ second) name).isNone) =
      first.references.filter fun name =>
        !table.contains name && (labelAddress? first name).isNone := by
    apply List.filter_congr
    intro name referred
    rw [SymbolTable.contains_eq_isSome_get?, labelAddress?_append]
    cases bound : table.get? name with
    | some value => rfl
    | none =>
        cases declared : labelAddress? first name with
        | some address => rfl
        | none =>
            have undeclared : labelAddress? second name = none := by
              rw [labelAddress?_eq_none_iff]
              intro declares
              obtain declaresFirst | boundBefore := keeps name referred declares
              · exact labelAddress?_eq_none_iff.1 declared declaresFirst
              · exact boundBefore bound
            rw [undeclared]
            rfl
  have parts : (first ++ second).references = first.references ++ second.references :=
    List.filterMap_append
  rw [variableNames, variableNames, parts, List.filter_append, same, List.eraseDups_append]
  exact List.prefix_append _ _

end Program

/-- A command is encoded in the same way under tables that agree on what it refers to. -/
theorem Command.instruction?_congr {table table' : SymbolTable} {command : Command}
    (agree : ∀ name, command.reference? = some name → table.get? name = table'.get? name) :
    command.instruction? table = command.instruction? table' := by
  cases command with
  | address operand trailer =>
      show some (Instruction.ofOperand table operand) = some (Instruction.ofOperand table' operand)
      by_cases symbolic : Line.isSymbolic operand = true
      · rw [Instruction.ofOperand_of_symbolic table symbolic,
          Instruction.ofOperand_of_symbolic table' symbolic, agree operand (if_pos symbolic)]
      · rw [Instruction.ofOperand, Instruction.ofOperand, if_neg symbolic, if_neg symbolic]
  | skip | compute text trailer | label name trailer | malformed reason => rfl

namespace Session

variable {session : Session} {first second : List Bytes}

/-- What a text binds is bound to the same value by the longer text. -/
theorem get?_linked_append {name : Bytes} {value : BitVec 16}
    (keeps : Program.KeepsVariables session.table (.ofLines first) (.ofLines second))
    (bound : (session.linked first).table.get? name = some value) :
    (session.linked (first ++ second)).table.get? name = some value := by
  have parts : Program.ofLines (first ++ second) = .ofLines first ++ .ofLines second :=
    List.map_append
  obtain ⟨more, whole⟩ := Program.variableNames_prefix keeps
  rw [get?_linked] at bound
  rw [get?_linked, parts, ← whole]
  split at bound
  · next isVariable =>
      rw [if_pos (List.mem_append_left more isVariable), List.idxOf_append_of_mem isVariable]
      exact bound
  · -- the name has a value without being a variable, and none of what it has that from is lost
    have notVariable :
        name ∉ (Program.ofLines first ++ .ofLines second).variableNames session.table := by
      intro isVariable
      obtain ⟨-, unbound, undeclared⟩ := mem_variableNames_iff.1 isVariable
      rw [Program.labelAddress?_append] at undeclared
      rw [unbound, (Option.or_eq_none_iff.1 undeclared).1] at bound
      cases bound
    rw [whole, if_neg notVariable, Program.labelAddress?_append]
    cases known : session.table.get? name with
    | some value =>
        rw [known] at bound
        exact bound
    | none =>
        rw [known, Option.none_or] at bound
        obtain ⟨address, declared, rfl⟩ := Option.map_eq_some_iff.1 bound
        rw [declared]
        rfl

/-- The lines of a text become the same words as part of the longer text. -/
theorem collect_listed?_linked_append
    (keeps : Program.KeepsVariables session.table (.ofLines first) (.ofLines second))
    (ready : (session.linked first).Ready first) :
    collect (listed? (session.linked (first ++ second)).table) [] first =
      collect (listed? (session.linked first).table) [] first := by
  apply collect_congr
  intro before line member
  have encoded : (Command.ofLine line).instruction? (session.linked (first ++ second)).table =
      (Command.ofLine line).instruction? (session.linked first).table := by
    apply Command.instruction?_congr
    intro name referred
    obtain ⟨value, bound⟩ := Option.ne_none_iff_exists'.1 (ready.known line member name referred)
    rw [bound, get?_linked_append keeps bound]
  rw [listed?, listed?, encoded]

/-- What a text is assembled into is the beginning of what the longer text is assembled into,
and what it binds is bound to the same value by the longer text. -/
theorem assemble_append {text more : Bytes} {final final' : Session}
    {sink sink' written written' : Sink} {canceled canceled' : Bool}
    (closed : Line.IsClosed text)
    (keeps : Program.KeepsVariables session.table (.ofLines (Line.split text))
      (.ofLines (Line.split more)))
    (done : assemble { content := text } sink canceled session = .ok written final)
    (done' : assemble { content := text ++ more } sink' canceled' session =
      .ok written' final') :
    (∃ output output', written.received.toList = sink.received.toList ++ output ∧
      written'.received.toList = sink'.received.toList ++ output' ∧ output <+: output') ∧
    ∀ name value, final.table.get? name = some value →
      final'.table.get? name = some value := by
  obtain ⟨middle, passed, ended⟩ := exists_passes_of_assemble done
  obtain ⟨middle', passed', ended'⟩ := exists_passes_of_assemble done'
  obtain ⟨-, -, clean, fits, rfl⟩ := firstPass_eq_ok_iff.1 passed
  obtain ⟨-, -, -, -, rfl⟩ := firstPass_eq_ok_iff.1 passed'
  obtain ⟨rfl, output⟩ := secondPass_eq_ok ended
  obtain ⟨rfl, output'⟩ := secondPass_eq_ok ended'
  have lines : ({ content := text ++ more } : Source).lines = Line.split text ++ Line.split more :=
    Line.split_append closed more
  have ready := ready_linked clean fits
  constructor
  · rw [lines, collect_append, collect_listed?_linked_append keeps ready, outputOf,
      List.flatMap_append] at output'
    exact ⟨_, _, output, output', List.prefix_append _ _⟩
  · intro name value bound
    rw [table_recorded] at bound
    rw [table_recorded, lines]
    exact get?_linked_append keeps bound

/-- What is appended declares a label for the second time, declares a name that is bound from
the start, and refers to a variable and a label of the text before it. -/
theorem assemble_append_shared :
    ∃ text more written written' final final',
      text = ascii "@LOOP\n@i\n@R1\n(LOOP)\nD=M\n" ∧
      more = ascii "@j\n(LOOP)\n(R1)\n@i\n@LOOP\n0;JMP" ∧
      Line.IsClosed text ∧
      Program.KeepsVariables (new .default).table (.ofLines (Line.split text))
        (.ofLines (Line.split more)) ∧
      assemble { content := text } {} false (new .default) = .ok written final ∧
      assemble { content := text ++ more } {} false (new .default) = .ok written' final' ∧
      written.received.toList <+: written'.received.toList ∧
      ∀ name value, final.table.get? name = some value →
        final'.table.get? name = some value := by
  let text := ascii "@LOOP\n@i\n@R1\n(LOOP)\nD=M\n"
  let more := ascii "@j\n(LOOP)\n(R1)\n@i\n@LOOP\n0;JMP"
  have closed : Line.IsClosed text := by decide +kernel
  have keeps : Program.KeepsVariables (new .default).table (.ofLines (Line.split text))
      (.ofLines (Line.split more)) := by
    decide +kernel
  have succeeds : failure? (assemble { content := text } {} false) (new .default) = none := by
    decide +kernel
  have succeeds' : failure? (assemble { content := text ++ more } {} false) (new .default) =
      none := by
    decide +kernel
  obtain ⟨written, done⟩ := exists_ok_of_failure?_eq_none succeeds
  obtain ⟨written', done'⟩ := exists_ok_of_failure?_eq_none succeeds'
  obtain ⟨⟨output, output', received, received', starts⟩, bound⟩ :=
    assemble_append closed keeps done done'
  refine ⟨text, more, written, written', _, _, rfl, rfl, closed, keeps, done, done', ?_, bound⟩
  rw [received, received']
  exact starts

end Session

end HackAssembler
