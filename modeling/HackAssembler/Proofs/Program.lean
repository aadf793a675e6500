/-
# Programs

What a source means, said without running it. A program is the list of the commands of
a source, and a name in it stands for the value it is bound to beforehand, else for the
address behind the first label line that declares it, else for a variable, the
variables being numbered in the order of their first reference. What is wrong with a line, and
what is listed for it, depends on the line and on the lines before it alone.

None of these definitions is used by a session; the modules on the two passes show that
a session computes them.
-/

import HackAssembler.Session

namespace HackAssembler

namespace Command

/-- The command of a source line. -/
def ofLine (line : Bytes) : Command := (Statement.ofLine line).command

/-- Whether the command is a label line that declares `name`. -/
def declares (name : Bytes) : Command → Bool
  | .label declared _ => declared == name
  | _ => false

/-- The symbol that the command refers to. A constant refers to none. -/
def reference? : Command → Option Bytes
  | .address operand _ => if Line.isSymbolic operand then some operand else none
  | _ => none

theorem emits_eq_isSome_instruction? (table : SymbolTable) (command : Command) :
    command.emits = (command.instruction? table).isSome := by
  cases command <;> rfl

theorem operandFault?_of_ofAddress {body operand trailer : Bytes}
    (h : ofAddress body = .address operand trailer) : operandFault? operand = none := by
  rw [ofAddress] at h
  split at h
  · cases h
  · next proper =>
      split at h
      · cases h
        exact proper
      · cases h

/-- The operand of an address command is a string of digits or a symbol. -/
theorem operandFault?_of_ofLine {line operand trailer : Bytes}
    (h : ofLine line = .address operand trailer) : operandFault? operand = none := by
  have h : ofStripped (Line.strip line) = .address operand trailer := h
  rw [ofStripped.eq_def] at h
  split at h
  · cases h
  · split at h <;> cases h
  · exact operandFault?_of_ofAddress h
  · rw [ofLabel] at h
    split at h
    · repeat' split at h
      all_goals cases h
    · cases h
  · split at h <;> cases h

theorem isSymbol_of_reference? {line name : Bytes} (h : (ofLine line).reference? = some name) :
    Line.isSymbol name = true := by
  cases command : ofLine line with
  | address operand trailer =>
      have proper := operandFault?_of_ofLine command
      rw [command, reference?] at h
      split at h
      · next symbolic =>
          cases h
          cases name with
          | nil => cases symbolic
          | cons b rest =>
              have noDigit : ¬ Byte.isDigit b = true := fun digit => by
                rw [Line.isSymbolic, Byte.isSymbolStart_eq_false_of_isDigit digit] at symbolic
                cases symbolic
              rw [operandFault?, if_neg noDigit] at proper
              split at proper
              · assumption
              · cases proper
      · cases h
  | _ =>
      rw [command] at h
      cases h

theorem isDigits_of_not_symbolic {line operand trailer : Bytes}
    (h : ofLine line = .address operand trailer) (constant : Line.isSymbolic operand = false) :
    operand ≠ [] ∧ operand.all Byte.isDigit = true := by
  have proper := operandFault?_of_ofLine h
  cases operand with
  | nil => cases proper
  | cons b rest =>
      refine ⟨List.cons_ne_nil b rest, ?_⟩
      rw [operandFault?] at proper
      split at proper
      · next digit =>
          split at proper
          · next digits => simp [digit, digits]
          · cases proper
      · rw [Line.isSymbolic] at constant
        simp [Line.isSymbol, constant] at proper

end Command

/-- The commands of a source in their order. -/
abbrev Program := List Command

namespace Program

/-- The program that stands on these lines. -/
def ofLines (lines : List Bytes) : Program := lines.map Command.ofLine

/-- The number of commands that become an instruction. -/
def emitted (program : Program) : Nat := program.countP Command.emits

/-- The address of a label: the number of instructions before the first line that
declares it. -/
def labelAddress? (program : Program) (name : Bytes) : Option Nat :=
  (program.findIdx? (·.declares name)).map fun index => emitted (program.take index)

/-- The symbols that are referred to, once for each reference. -/
def references (program : Program) : List Bytes := program.filterMap Command.reference?

/-- The variables: the distinct symbols that are referred to, that `table` does not bind
and that no label line declares, in the order of their first reference. -/
def variableNames (table : SymbolTable) (program : Program) : List Bytes :=
  (program.references.filter fun name =>
    !table.contains name && (program.labelAddress? name).isNone).eraseDups

/-- What a symbol stands for, given the bindings `table` from before and the address
`base` of the first new variable. -/
def resolve (table : SymbolTable) (base : Nat) (program : Program) (name : Bytes) : Nat :=
  match table.get? name with
  | some value => value.toNat
  | none =>
    match program.labelAddress? name with
    | some address => address
    | none => base + (program.variableNames table).idxOf name

@[simp]
theorem emitted_nil : emitted [] = 0 := rfl

theorem emitted_cons (command : Command) (program : Program) :
    emitted (command :: program) = emitted [command] + emitted program := by
  simp only [emitted, List.countP_cons, List.countP_nil]
  omega

@[simp]
theorem emitted_append (first second : Program) :
    emitted (first ++ second) = emitted first + emitted second :=
  List.countP_append

theorem mem_references_of_mem {lines : List Bytes} {line name : Bytes} (member : line ∈ lines)
    (referred : (Command.ofLine line).reference? = some name) :
    name ∈ (ofLines lines).references :=
  List.mem_filterMap.2 ⟨Command.ofLine line, List.mem_map_of_mem member, referred⟩

/-- The address of a label counts from where the program starts. -/
theorem labelAddress?_cons (command : Command) (program : Program) (name : Bytes) :
    labelAddress? (command :: program) name =
      if command.declares name then some 0
      else (labelAddress? program name).map (emitted [command] + ·) := by
  rw [labelAddress?, List.findIdx?_cons]
  by_cases declared : command.declares name = true
  · simp [declared]
  · simp only [declared, Bool.false_eq_true, if_false, labelAddress?, Option.map_map]
    congr 1
    funext index
    show emitted (command :: program.take index) = _
    rw [emitted_cons]
    rfl

/-- A label line binds its name to the number of instructions before it, if no earlier
line has declared the name. -/
theorem labelAddress?_of_first {before rest : Program} {command : Command} {name : Bytes}
    (new : ∀ earlier ∈ before, earlier.declares name = false)
    (declared : command.declares name = true) :
    labelAddress? (before ++ command :: rest) name = some (emitted before) := by
  induction before with
  | nil => simp [labelAddress?_cons, declared]
  | cons first before ih =>
      rw [List.cons_append, labelAddress?_cons, new first List.mem_cons_self,
        ih fun earlier member => new earlier (List.mem_cons_of_mem first member),
        emitted_cons first before]
      rfl

/-- A label has an address only by way of a first line that declares it. -/
theorem exists_first_of_labelAddress? {program : Program} {name : Bytes} {address : Nat}
    (h : labelAddress? program name = some address) :
    ∃ before command rest, program = before ++ command :: rest ∧
      (∀ earlier ∈ before, earlier.declares name = false) ∧
      command.declares name = true ∧ address = emitted before := by
  induction program generalizing address with
  | nil => cases h
  | cons command program ih =>
      rw [labelAddress?_cons] at h
      by_cases declared : command.declares name = true
      · rw [if_pos declared] at h
        cases h
        exact ⟨[], command, program, rfl, nofun, declared, rfl⟩
      · rw [if_neg declared] at h
        obtain ⟨later, found, rfl⟩ := Option.map_eq_some_iff.1 h
        obtain ⟨before, first, rest, rfl, new, declares, rfl⟩ := ih found
        refine ⟨command :: before, first, rest, rfl, ?_, declares, (emitted_cons _ _).symm⟩
        intro earlier member
        rcases List.mem_cons.1 member with rfl | member
        · simpa using declared
        · exact new earlier member

end Program

/-! ## Lines in their context -/

/-- What the lines of a text give, in their order, when each is looked at together with
all lines before it. -/
def collect {α : Type} (look : List Bytes → Bytes → Option α) (before : List Bytes) :
    List Bytes → List α
  | [] => []
  | line :: rest => (look before line).toList ++ collect look (before ++ [line]) rest

section Collect

variable {α : Type} {look : List Bytes → Bytes → Option α} {before : List Bytes}

theorem collect_append (first second : List Bytes) :
    collect look before (first ++ second) =
      collect look before first ++ collect look (before ++ first) second := by
  induction first generalizing before with
  | nil => simp [collect]
  | cons line first ih => simp [collect, ih]

/-- What is given first is given by some line, and the lines before it give nothing. -/
theorem exists_first_of_collect_eq_cons {lines : List Bytes} {found : α} {more : List α}
    (h : collect look before lines = found :: more) :
    ∃ clean line rest, lines = clean ++ line :: rest ∧ collect look before clean = [] ∧
      look (before ++ clean) line = some found := by
  induction lines generalizing before with
  | nil => cases h
  | cons line lines ih =>
      cases here : look before line with
      | some value =>
          simp only [collect, here, Option.toList_some, List.singleton_append,
            List.cons.injEq] at h
          exact ⟨[], line, lines, rfl, rfl, by rw [List.append_nil, here, h.1]⟩
      | none =>
          simp only [collect, here, Option.toList_none, List.nil_append] at h
          obtain ⟨clean, first, rest, rfl, nothing, found⟩ := ih h
          refine ⟨line :: clean, first, rest, rfl, ?_, ?_⟩
          · simp [collect, here, nothing]
          · simpa using found

/-- Lines that give nothing give nothing one by one. -/
theorem look_eq_none_of_collect_eq_nil {clean rest : List Bytes} {line : Bytes}
    (h : collect look before (clean ++ line :: rest) = []) :
    look (before ++ clean) line = none := by
  rw [collect_append] at h
  have nothing := (List.append_eq_nil_iff.1 h).2
  cases here : look (before ++ clean) line with
  | none => rfl
  | some value => simp [collect, here] at nothing

theorem collect_eq_nil {lines : List Bytes}
    (nothing : ∀ before, ∀ line ∈ lines, look before line = none) :
    collect look before lines = [] := by
  induction lines generalizing before with
  | nil => rfl
  | cons line lines ih =>
      have nothingLater (before : List Bytes) (later : Bytes) (member : later ∈ lines) :
          look before later = none :=
        nothing before later (List.mem_cons_of_mem line member)
      rw [collect, nothing before line List.mem_cons_self, ih nothingLater]
      rfl

/-- What is looked for in the same way on every line gives the same. -/
theorem collect_congr {look' : List Bytes → Bytes → Option α} {lines : List Bytes}
    (same : ∀ before, ∀ line ∈ lines, look before line = look' before line) :
    collect look before lines = collect look' before lines := by
  induction lines generalizing before with
  | nil => rfl
  | cons line lines ih =>
      have sameLater (before : List Bytes) (later : Bytes) (member : later ∈ lines) :
          look before later = look' before later :=
        same before later (List.mem_cons_of_mem line member)
      rw [collect, collect, same before line List.mem_cons_self, ih sameLater]

end Collect

/-- What the first pass refuses a line for: its length, its form, or the address of the
label on it. -/
def scanFault? (config : Config) (before : List Bytes) (line : Bytes) : Option Failure :=
  if config.maxLineLength < ((Line.dropTerminator line).length : Int) then
    some (.lineTooLong (before.length + 1))
  else
    match Command.ofLine line with
    | .malformed reason =>
      some (.syntaxError ⟨before.length + 1, Line.strip line, reason.message⟩)
    | .label name _ =>
      if (Program.ofLines before).emitted ≤ maxAddress then none
      else
        some (.syntaxError ⟨before.length + 1, Line.strip line,
          ascii "label " ++ name ++ ascii " address " ++
            Decimal.ofNat (Program.ofLines before).emitted ++ ascii " out of range " ++
            addressRange⟩)
    | .skip | .address .. | .compute .. => none

/-- The three conditions that a line without a fault meets. -/
theorem scanFault?_eq_none_iff {config : Config} {before : List Bytes} {line : Bytes} :
    scanFault? config before line = none ↔
      ¬ config.maxLineLength < ((Line.dropTerminator line).length : Int) ∧
        (∀ reason, Command.ofLine line ≠ .malformed reason) ∧
        ∀ name trailer, Command.ofLine line = .label name trailer →
          (Program.ofLines before).emitted ≤ maxAddress := by
  rw [scanFault?]
  by_cases long : config.maxLineLength < ((Line.dropTerminator line).length : Int)
  · simp [long]
  · cases command : Command.ofLine line with
    | label name trailer =>
        by_cases fits : (Program.ofLines before).emitted ≤ maxAddress
        · simp [long, fits]
        · simp [long, fits]
    | _ => simp [long]

/-- What the second pass refuses a line for: a command that has no instruction. -/
def encodingFault? (table : SymbolTable) (before : List Bytes) (line : Bytes) :
    Option Failure :=
  match (Command.ofLine line).instruction? table with
  | some (.error error) =>
    some (.syntaxError ⟨before.length + 1, Line.strip line, error.message⟩)
  | some (.ok _) | none => none

/-- What is listed for a line: the address and the digits of its instruction, if it has
one, with the number of the line and the stripped line. -/
def listed? (table : SymbolTable) (before : List Bytes) (line : Bytes) :
    Option ListingEntry :=
  match (Command.ofLine line).instruction? table with
  | some (.ok instruction) =>
    some ⟨(Program.ofLines before).emitted, before.length + 1, Line.strip line,
      instruction.digits⟩
  | some (.error _) | none => none

end HackAssembler
