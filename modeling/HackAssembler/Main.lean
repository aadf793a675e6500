/-
# The program

The assembler as a command. Everything it does is said by `execute`; this module only
connects the file operations of a call to those of the operating system.
-/

import HackAssembler.Bytes
import HackAssembler.CommandLine.FileSystem
import HackAssembler.CommandLine.Run
import HackAssembler.Source
import HackAssembler.Text.Decimal

namespace HackAssembler

namespace Terminal

/-- Byte strings as the operating system takes them. -/
def toByteArray (text : Bytes) : ByteArray := ⟨text.toArray⟩

/-- Byte strings as the operating system gives them. -/
def ofByteArray (bytes : ByteArray) : Bytes := bytes.data.toList

/-- A path for the operating system. -/
def toPath (path : Bytes) : String := (String.fromUTF8? (toByteArray path)).getD ""

/-- The fault behind an error of the operating system. -/
def faultOf : IO.Error → FileFault
  | .noFileOrDirectory .. => .notFound
  | .alreadyExists .. => .alreadyExists
  | .inappropriateType _ _ details | .invalidArgument _ _ details
  | .permissionDenied _ _ details | .resourceExhausted _ _ details
  | .noSuchThing _ _ details => .other (ascii details.decapitalize)
  | error => .other (ascii (toString error))

/-- The most names that are tried for a temporary file. -/
def maxAttempts : Nat := 10000

/-- Make a temporary file, with a fresh number behind the stem at each attempt. -/
def createTemporary (stem : Bytes) : Nat → IO (Except TemporaryFault Bytes)
  | 0 => return .error (.exhausted stem)
  | attempts + 1 => do
    let path := stem ++ Decimal.ofNat (← IO.rand 0 0xffffffff)
    try
      let _ ← IO.FS.Handle.mk (toPath path) .writeNew
      return .ok path
    catch error =>
      match faultOf error with
      | .alreadyExists => createTemporary stem attempts
      | fault => return .error (.create path fault)

/-- Read an open file as far as it goes. -/
def readSource (path : Bytes) (handle : IO.FS.Handle) : IO Source := do
  try
    return { content := ofByteArray (← handle.readBinToEnd) }
  catch error =>
    let fault := ascii "read " ++ path ++ ascii ": " ++ (faultOf error).message
    return { content := [], readFault := some fault }

/-- Open a file and read it. -/
def openSource (path : Bytes) : IO (Except FileFault Source) := do
  try
    return .ok (← readSource path (← IO.FS.Handle.mk (toPath path) .read))
  catch error => return .error (faultOf error)

/-- Carry out a file operation, with an error of the operating system as its fault. -/
def guarded (operation : IO Unit) : IO (Except FileFault Unit) := do
  try
    operation
    return .ok ()
  catch error => return .error (faultOf error)

/-- The rights in one digit of a mode. -/
def rightsOf (digit : Nat) : IO.AccessRight where
  read := digit.testBit 2
  write := digit.testBit 1
  execution := digit.testBit 0

/-- Set the mode of a file, of which the last three digits are taken. -/
def setMode (path : Bytes) (mode : Nat) : IO (Except FileFault Unit) :=
  guarded <| IO.setAccessRights (toPath path)
    { user := rightsOf (mode / 64), group := rightsOf (mode / 8), other := rightsOf mode }

/-- Write to the end of a file. No file is kept open, so all of it has to be accepted here. -/
def write (path text : Bytes) : IO (Except FileFault Unit) := guarded do
  let handle ← IO.FS.Handle.mk (toPath path) .append
  handle.write (toByteArray text)
  handle.flush

/-- Print as much as is taken. -/
def printTo (stream : IO.FS.Stream) (text : Bytes) : IO Unit := do
  try stream.write (toByteArray text) catch _ => pure ()

/-- Move a file. A directory in the way counts as an existing file. -/
def rename (old new : Bytes) : IO (Except FileFault Unit) := do
  try
    IO.FS.rename (toPath old) (toPath new)
    return .ok ()
  catch error =>
    let fault := faultOf error
    return .error (if fault.message = FileFault.isDirectory.message then .alreadyExists else fault)

instance : FileSystem IO where
  openSource := openSource
  createTemporary stem := createTemporary stem maxAttempts
  setMode := setMode
  write := write
  close _ := return .ok ()
  rename := rename
  remove path := try IO.FS.removeFile (toPath path) catch _ => pure ()
  print text := do printTo (← IO.getStdout) text
  remark text := do printTo (← IO.getStderr) text

end Terminal

end HackAssembler

/-- Carry out a call; a failure is reported on the standard error. -/
def main (arguments : List String) : IO UInt32 := do
  match ← (HackAssembler.execute (arguments.map HackAssembler.ascii) :
      IO (Except HackAssembler.CallFailure Unit)) with
  | .ok () => return 0
  | .error failure =>
    HackAssembler.Terminal.printTo (← IO.getStderr) failure.report
    return 1
