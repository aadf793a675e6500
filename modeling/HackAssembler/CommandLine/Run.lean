/-
# Calls

What a call does. The output is written to a temporary file in the directory of the
output and moved into place only when the whole program has been assembled and the file
is closed; whatever fails on the way, the temporary file is removed and nothing is printed.
-/

import HackAssembler.Bytes
import HackAssembler.CommandLine.FileSystem
import HackAssembler.CommandLine.Options
import HackAssembler.CommandLine.Path
import HackAssembler.CommandLine.Report
import HackAssembler.CommandLine.Request
import HackAssembler.Config
import HackAssembler.Failure
import HackAssembler.Session
import HackAssembler.SymbolTable
import HackAssembler.Transcript

namespace HackAssembler

/-- Why no output was written. -/
inductive OutputFailure
  | separatorInName (name : Bytes)
  | create (fault : TemporaryFault)
  | mode (temporary : Bytes) (fault : FileFault)
  | assemble (failure : Failure)
  | close (temporary : Bytes) (fault : FileFault)
  | save (output temporary : Bytes) (fault : FileFault)
  deriving Repr, DecidableEq

/-- The wording of a failure to write the output. -/
def OutputFailure.message : OutputFailure → Bytes
  | .separatorInName name =>
    ascii "create output: createtemp " ++ name ++ ascii ": pattern contains path separator"
  | .create fault => ascii "create output: " ++ fault.message
  | .mode temporary fault =>
    ascii "chmod output: chmod " ++ temporary ++ ascii ": " ++ fault.message
  | .assemble failure => failure.message
  | .close temporary fault =>
    ascii "close output: close " ++ temporary ++ ascii ": " ++ fault.message
  | .save output temporary fault =>
    ascii "save output to " ++ output ++ ascii ": rename " ++ temporary ++ ascii " " ++ output ++
      ascii ": " ++ fault.message

/-- A write to the temporary file that is refused ends the assembly. -/
def OutputFailure.write (temporary : Bytes) (fault : FileFault) : OutputFailure :=
  .assemble (.writeFailed (ascii "write " ++ temporary ++ ascii ": " ++ fault.message))

/-- The mode of an output file: all may read it, and its owner may write to it. -/
def outputMode : Nat := 0o644

/-- Why a call failed. -/
inductive CallFailure
  | usage (error : UsageError)
  | config (error : ConfigError)
  | openInput (input : Bytes) (fault : FileFault)
  | output (input : Bytes) (failure : OutputFailure)
  deriving Repr, DecidableEq

namespace CallFailure

/-- The wording of a failed call. -/
def message : CallFailure → Bytes
  | .usage error => error.message
  | .config error => error.message
  | .openInput input fault =>
    ascii "open input: open " ++ input ++ ascii ": " ++ fault.message
  | .output input failure => ascii "assemble " ++ input ++ ascii ": " ++ failure.message

/-- The report of a failed call. -/
def report : CallFailure → Bytes
  | .output _ (.assemble (.syntaxError error)) => Report.syntaxError error
  | failure => Report.failure failure.message

end CallFailure

section

variable {m : Type → Type} [Monad m]

/-- A file operation as a step towards the output: a fault ends the attempt with `failure`. -/
def attempt (failure : FileFault → OutputFailure) (operation : m (Except FileFault Unit)) :
    ExceptT OutputFailure m Unit := ExceptT.mk do
  match ← operation with
  | .error fault => return .error (failure fault)
  | .ok () => return .ok ()

variable [FileSystem m]

/-- Hand over a text to the temporary file, if there is any. -/
def handOver (temporary text : Bytes) : ExceptT OutputFailure m Unit :=
  if text.isEmpty then pure ()
  else attempt (.write temporary) (FileSystem.write temporary text)

/-- Write what an assembly hands over, and end as it does. -/
def fill (temporary : Bytes) (transcript : Transcript) : ExceptT OutputFailure m Session := do
  handOver temporary transcript.handed
  match transcript.outcome with
  | .error failure => throw (.assemble failure)
  | .ok session => return session

/-- Make the output out of a temporary file, and move it to the output path. -/
def deliver (output temporary : Bytes) (transcript : Transcript) :
    ExceptT OutputFailure m Session := do
  attempt (.mode temporary) (FileSystem.setMode temporary outputMode)
  let session ← fill temporary transcript
  attempt (.close temporary) (FileSystem.close temporary)
  attempt (.save output temporary) (FileSystem.rename temporary output)
  return session

/-- Put what an assembly writes at the output path by way of a temporary file, which does not
outlast a failure. -/
def writeOutput (output : Bytes) (transcript : Transcript) :
    m (Except OutputFailure Session) := do
  let stem := [Byte.dot] ++ Path.base output ++ [Byte.dot]
  if stem.contains Byte.slash then
    return .error (.separatorInName (stem ++ ascii "*"))
  match ← FileSystem.createTemporary (Path.join (Path.directory output) stem) with
  | .error fault => return .error (.create fault)
  | .ok temporary =>
    match ← deliver output temporary transcript with
    | .ok session => return .ok session
    | .error failure =>
      -- the file may be closed by now, and closing it twice does no harm
      let _ ← FileSystem.close temporary
      FileSystem.remove temporary
      return .error failure

/-- What a successful call prints. -/
def printout (options : Options) (session : Session) : Bytes :=
  (if options.verbose then Report.listing session.listing.toList else []) ++
    (if options.symbols then Report.symbols session.table.entries else [])

/-- Assemble an input file into its output file. -/
def run (input : Bytes) (options : Options) : m (Except CallFailure Unit) := do
  match options.config.validate with
  | .error error => return .error (.config error)
  | .ok () =>
    match ← FileSystem.openSource input with
    | .error fault => return .error (.openInput input fault)
    | .ok source =>
      let output := if options.output.isEmpty then Path.outputName input else options.output
      match ← writeOutput output (Session.transcript source options.config) with
      | .error failure => return .error (.output input failure)
      | .ok session =>
        FileSystem.print (printout options session)
        return .ok ()

/-- Carry out a call. -/
def execute (arguments : List Bytes) : m (Except CallFailure Unit) := do
  match Request.ofArguments arguments with
  | .error error => return .error (.usage error)
  | .ok .help =>
    FileSystem.print Report.help
    return .ok ()
  | .ok (.complete completion) =>
    FileSystem.print completion.printout
    FileSystem.remark completion.remark
    return .ok ()
  | .ok (.assemble input options) => run input options

end

end HackAssembler
