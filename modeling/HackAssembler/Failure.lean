/-
# Failures of an assembly

Every way an assembly can end without a result, and the wording of each. A fault of the
surroundings, in reading, rewinding or writing, is carried along as the text it reports
itself with.
-/

import HackAssembler.Bytes
import HackAssembler.Config
import HackAssembler.SymbolTable
import HackAssembler.Text.Decimal

namespace HackAssembler

/-- A line that cannot be assembled. -/
structure SyntaxError where
  /-- The number of the line, counted from one. -/
  line : Int
  /-- The stripped line. -/
  content : Bytes
  /-- What is wrong with it. -/
  message : Bytes
  deriving Repr, DecidableEq

/-- The full wording of a syntax error. -/
def SyntaxError.render (error : SyntaxError) : Bytes :=
  ascii "syntax err at line " ++ Decimal.ofInt error.line ++ ascii ": " ++ error.message

/-- Why an assembly failed. -/
inductive Failure
  | config (error : ConfigError)
  | canceled
  | lineTooLong (line : Nat)
  | syntaxError (error : SyntaxError)
  | outOfVariableMemory (name : Bytes)
  | unknownSymbol (line : Nat) (unknown : UnknownSymbol)
  | readFailed (line : Nat) (fault : Bytes)
  | rewindFailed (fault : Bytes)
  | writeFailed (fault : Bytes)
  deriving Repr, DecidableEq

/-- The wording of a failure. -/
def Failure.message : Failure → Bytes
  | .config error => error.message
  | .canceled => ascii "context canceled"
  | .lineTooLong line => ascii "line " ++ Decimal.ofNat line ++ ascii ": line too long"
  | .syntaxError error => error.render
  | .outOfVariableMemory name => ascii "variable " ++ name ++ ascii ": out of variable memory"
  | .unknownSymbol line unknown =>
    ascii "line " ++ Decimal.ofNat line ++ ascii ": symbol missed by first pass: " ++
      unknown.message
  | .readFailed line fault => ascii "read line " ++ Decimal.ofNat line ++ ascii ": " ++ fault
  | .rewindFailed fault => ascii "rewind source: " ++ fault
  | .writeFailed fault => ascii "write output: " ++ fault

end HackAssembler
