/-
# Configuration

The two settings of an assembly: how long a line may be, and where variables start. A
setting that is left at zero takes its default.
-/

import HackAssembler.Bytes
import HackAssembler.Encoding
import HackAssembler.Text.Decimal
import HackAssembler.Word

namespace HackAssembler

/-- The settings of an assembly. -/
structure Config where
  /-- The longest accepted line, in bytes and without its terminator. -/
  maxLineLength : Int
  /-- The address of the first variable. -/
  variableBase : Word
  deriving Repr, DecidableEq

/-- A variable base that no instruction can address. -/
structure ConfigError where
  variableBase : Word
  deriving Repr, DecidableEq

/-- The wording of a rejected configuration. -/
def ConfigError.message (error : ConfigError) : Bytes :=
  ascii "variable base " ++ Decimal.ofNat error.variableBase.toNat ++ ascii " out of range " ++
    addressRange

namespace Config

/-- Lines of at most 1024 bytes, and variables behind the sixteen registers. -/
def default : Config := ⟨1024, 16⟩

/-- Fill in the defaults: for a line length that is not positive, and for a zero base. -/
def withDefaults (config : Config) : Config where
  maxLineLength :=
    if config.maxLineLength ≤ 0 then default.maxLineLength else config.maxLineLength
  variableBase := if config.variableBase = 0 then default.variableBase else config.variableBase

/-- Reject a variable base that no instruction can address. -/
def validate (config : Config) : Except ConfigError Unit :=
  if config.variableBase.toNat ≤ maxAddress then .ok () else .error ⟨config.variableBase⟩

end Config

end HackAssembler
