/-
# File systems

The few things a call does to its surroundings, as the operations of a class. A call is
written against the class, so the same definition runs on the real file system and on a
tree of files that one can reason about.
-/

import HackAssembler.Bytes
import HackAssembler.Source

namespace HackAssembler

/-- Why a file operation failed. -/
inductive FileFault
  | notFound
  | notDirectory
  | isDirectory
  | alreadyExists
  | nameTooLong
  | invalid
  | other (text : Bytes)
  deriving Repr, DecidableEq

/-- The wording of a fault. -/
def FileFault.message : FileFault → Bytes
  | .notFound => ascii "no such file or directory"
  | .notDirectory => ascii "not a directory"
  | .isDirectory => ascii "is a directory"
  | .alreadyExists => ascii "file exists"
  | .nameTooLong => ascii "file name too long"
  | .invalid => ascii "invalid argument"
  | .other text => text

/-- Why no temporary file was made. -/
inductive TemporaryFault
  /-- The path could not be created. -/
  | create (path : Bytes) (fault : FileFault)
  /-- All names that start with the stem are taken. -/
  | exhausted (stem : Bytes)
  deriving Repr, DecidableEq

/-- The wording of a fault. -/
def TemporaryFault.message : TemporaryFault → Bytes
  | .create path fault => ascii "open " ++ path ++ ascii ": " ++ fault.message
  | .exhausted stem => ascii "createtemp " ++ stem ++ ascii "*: file already exists"

/-- What a call does to its surroundings. Operations that need not succeed say why they have
not. -/
class FileSystem (m : Type → Type) where
  /-- Open a file for reading. What cannot be read of it shows as a fault of the source. -/
  openSource (path : Bytes) : m (Except FileFault Source)
  /-- Make a new empty file whose path starts with the stem, and return its path. -/
  createTemporary (stem : Bytes) : m (Except TemporaryFault Bytes)
  /-- Set the mode of a file that was made before. -/
  setMode (path : Bytes) (mode : Nat) : m (Except FileFault Unit)
  /-- Write to the end of a file that was made before. Where this fails, a part of the text may
  be written. -/
  write (path text : Bytes) : m (Except FileFault Unit)
  /-- Close a file that was made before. What was written to it may be refused only now. -/
  close (path : Bytes) : m (Except FileFault Unit)
  /-- Move a file to a path, in place of a file that may be there. -/
  rename (old new : Bytes) : m (Except FileFault Unit)
  /-- Remove a file. Nothing is made of it if this fails. -/
  remove (path : Bytes) : m Unit
  /-- Print to the standard output. -/
  print (text : Bytes) : m Unit
  /-- Print to the standard error. -/
  remark (text : Bytes) : m Unit

/-- What reading a directory reports. -/
def readDirectoryFault (path : Bytes) : Bytes :=
  ascii "read " ++ path ++ ascii ": " ++ FileFault.isDirectory.message

end HackAssembler
