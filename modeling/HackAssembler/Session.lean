/-
# Sessions

An assembler at work. A session keeps its symbol table and its variable cursor over all
its runs; the line and instruction counters, the referenced names and the listing belong
to one run. A run reads its source twice. The first pass binds each label to the address
of the instruction behind it and then gives the names that are still unbound consecutive
addresses, in the order of their first reference. The second pass emits one word for each
instruction. What a failed step leaves behind stays in the session.
-/

import HackAssembler.Bytes
import HackAssembler.Command
import HackAssembler.Config
import HackAssembler.Encoding
import HackAssembler.Failure
import HackAssembler.Instruction
import HackAssembler.Line
import HackAssembler.Listing
import HackAssembler.NameSequence
import HackAssembler.Sink
import HackAssembler.Source
import HackAssembler.SymbolTable
import HackAssembler.Text.Decimal
import HackAssembler.Word

namespace HackAssembler

/-- The state of an assembler. -/
structure Session where
  /-- The settings, with their defaults filled in. -/
  config : Config
  /-- The symbols known so far. -/
  table : SymbolTable
  /-- The address of the next new variable. -/
  nextVariable : Word
  /-- The number of lines read in the current pass. -/
  line : Nat
  /-- The number of instructions met in the current pass. -/
  instructions : Nat
  /-- The names that the last first pass met before it knew their value. -/
  references : NameSequence
  /-- What the last second pass emitted. -/
  listing : Array ListingEntry

/-- A step of a session: it may fail, and the session goes on from where it stood then. -/
abbrev SessionM := EStateM Failure Session

namespace Session

/-- A new session. -/
def new (config : Config) : Session where
  config := config.withDefaults
  table := SymbolTable.initial
  nextVariable := config.withDefaults.variableBase
  line := 0
  instructions := 0
  references := .empty
  listing := #[]

/-- Fail with a syntax error at the current line. -/
def reject {α : Type} (statement : Statement) (message : Bytes) : SessionM α := fun session =>
  .error (.syntaxError ⟨session.line, statement.content, message⟩) session

/-- Count and read a line. An overlong line is counted and not read. -/
def advance (line : Bytes) : SessionM Statement := fun session =>
  let session := { session with line := session.line + 1 }
  if session.config.maxLineLength < ((Line.dropTerminator line).length : Int) then
    .error (.lineTooLong session.line) session
  else
    let statement := Statement.ofLine line
    if statement.command.emits then
      .ok statement { session with instructions := session.instructions + 1 }
    else .ok statement session

/-- Meet the end of a source, which is a failure if a fault stands there. -/
def expectEnd (source : Source) : SessionM Unit := fun session =>
  match source.readFault with
  | none => .ok () session
  | some fault => .error (.readFailed (session.line + 1) fault) session

/-- Fail if the run was canceled. -/
def checkCanceled (canceled : Bool) : SessionM Unit :=
  if canceled then throw .canceled else pure ()

/-- Bind a label to the address of the next instruction, if that can be addressed. -/
def bindLabel (statement : Statement) (name : Bytes) : SessionM Unit := fun session =>
  if session.instructions ≤ maxAddress then
    .ok () { session with
      table := session.table.bind name (BitVec.ofNat 16 session.instructions) }
  else
    reject statement (ascii "label " ++ name ++ ascii " address " ++
      Decimal.ofNat session.instructions ++ ascii " out of range " ++ addressRange) session

/-- Note a reference to a name that has no value yet. -/
def noteOperand (operand : Bytes) : SessionM Unit := fun session =>
  if Line.isSymbolic operand && !session.table.contains operand then
    .ok () { session with references := session.references.insert operand }
  else .ok () session

/-- Read a line in the first pass. -/
def scanLine (line : Bytes) : SessionM Unit := do
  let statement ← advance line
  match statement.command with
  | .skip | .compute .. => pure ()
  | .address operand _ => noteOperand operand
  | .label name _ => bindLabel statement name
  | .malformed reason => reject statement reason.message

/-- Give a name the next variable address, unless it is bound by now. -/
def allocate (name : Bytes) : SessionM Unit := fun session =>
  if session.table.contains name then .ok () session
  else if session.nextVariable.toNat ≤ maxAddress then
    .ok () { session with
      table := session.table.bind name session.nextVariable
      nextVariable := session.nextVariable + 1 }
  else .error (.outOfVariableMemory name) session

/-- Give addresses to the noted names that no label has claimed. -/
def allocateVariables : SessionM Unit := do
  (← get).references.toList.forM allocate

/-- Start counting anew, with no names noted. -/
def startFirstPass (session : Session) : Session :=
  { session with line := 0, instructions := 0, references := .empty }

/-- Bind the labels and variables of a source. -/
def firstPass (source : Source) (canceled : Bool) : SessionM Unit := do
  checkCanceled canceled
  modify startFirstPass
  source.lines.forM scanLine
  expectEnd source
  allocateVariables

/-- Go back to the start of a source, with an empty listing. -/
def rewind (source : Source) : SessionM Unit := fun session =>
  match source.rewindFault with
  | some fault => .error (.rewindFailed fault) session
  | none => .ok () { session with line := 0, instructions := 0, listing := #[] }

/-- The failure of a line whose command cannot be encoded. -/
def rejectEncoding {α : Type} (statement : Statement) : EncodingError → SessionM α
  | .unknownSymbol unknown => fun session =>
    .error (.unknownSymbol session.line unknown) session
  | error => reject statement error.message

/-- Write an instruction and list it. -/
def emit (writer : BlockWriter) (statement : Statement) (instruction : Instruction) :
    SessionM BlockWriter := fun session =>
  let code := instruction.digits
  match writer.write (code ++ [Byte.lineFeed]) with
  | .error fault => .error (.writeFailed fault) session
  | .ok writer =>
    let entry : ListingEntry :=
      ⟨session.instructions - 1, session.line, statement.content, code⟩
    .ok writer { session with listing := session.listing.push entry }

/-- Read a line in the second pass. -/
def emitLine (writer : BlockWriter) (line : Bytes) : SessionM BlockWriter := do
  let statement ← advance line
  match statement.command with
  | .malformed reason => reject statement reason.message
  | command =>
    match command.instruction? (← get).table with
    | none => pure writer
    | some (.error error) => rejectEncoding statement error
    | some (.ok instruction) => emit writer statement instruction

/-- Hand over what is left to write. -/
def finish (writer : BlockWriter) : SessionM Sink := fun session =>
  match writer.finish with
  | .error fault => .error (.writeFailed fault) session
  | .ok sink => .ok sink session

/-- Emit the words of a source. -/
def secondPass (source : Source) (sink : Sink) (canceled : Bool) : SessionM Sink := do
  checkCanceled canceled
  let writer ← source.lines.foldlM emitLine { sink }
  expectEnd source
  finish writer

/-- Fail if the settings are not acceptable. -/
def checkConfig : SessionM Unit := fun session =>
  match session.config.validate with
  | .ok () => .ok () session
  | .error error => .error (.config error) session

/-- Run both passes over a source. -/
def assemble (source : Source) (sink : Sink) (canceled : Bool) : SessionM Sink := do
  checkConfig
  firstPass source canceled
  rewind source
  secondPass source sink canceled

end Session

/-- Assemble a source in a new session with the default settings. -/
def assemble (source : Source) (sink : Sink) (canceled : Bool) : Except Failure Sink :=
  match Session.assemble source sink canceled (Session.new Config.default) with
  | .ok sink _ => .ok sink
  | .error failure _ => .error failure

end HackAssembler
