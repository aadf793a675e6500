/-
# Command line options

Reading the arguments of a call. Options and other arguments may be mixed, and a lone
double minus ends the options. A switch takes a value only behind an equals sign; any
other option takes the rest of its argument or else the next argument, whatever that
looks like. Arguments are read from left to right, the first error ends the reading, and
the last value of an option wins.
-/

import HackAssembler.Bytes
import HackAssembler.CommandLine.Literal
import HackAssembler.Config
import HackAssembler.Line
import HackAssembler.Text.Decimal
import HackAssembler.Text.Quoted
import HackAssembler.Word

namespace HackAssembler

/-- What the options of a call say. -/
structure Options where
  /-- The output path; if empty, it is derived from the input path. -/
  output : Bytes := []
  /-- Whether the listing is printed. -/
  verbose : Bool := false
  /-- Whether the symbols are printed. -/
  symbols : Bool := false
  /-- The settings of the assembly. -/
  config : Config := Config.default
  /-- Whether help was asked for. -/
  help : Bool := false
  deriving Repr, DecidableEq

/-- The options. -/
inductive Flag
  | output
  | verbose
  | symbols
  | maxLineLength
  | variableBase
  | help
  deriving Repr, DecidableEq

namespace Flag

/-- All options, in the order of their names. -/
def all : List Flag := [.help, .maxLineLength, .output, .symbols, .variableBase, .verbose]

/-- The long name, which follows two minus signs. -/
def name : Flag → Bytes
  | .output => ascii "output"
  | .verbose => ascii "verbose"
  | .symbols => ascii "symbols"
  | .maxLineLength => ascii "max-line-length"
  | .variableBase => ascii "variable-base"
  | .help => ascii "help"

/-- The letter, which follows one minus sign. -/
def letter? : Flag → Option UInt8
  | .output => some 0x6f
  | .verbose => some 0x76
  | .help => some 0x68
  | .symbols | .maxLineLength | .variableBase => none

/-- What an option is for. -/
def purpose : Flag → Bytes
  | .output => ascii "the output hack binary code file path (default: input with .hack extension)"
  | .verbose => ascii "whether print all transformed binary code"
  | .symbols => ascii "whether print the resolved symbol table"
  | .maxLineLength => ascii "the longest accepted source line in bytes"
  | .variableBase => ascii "the RAM address of the first variable"
  | .help => ascii "help for hackasm"

/-- Whether an option stands for itself and needs no value. -/
def isSwitch : Flag → Bool
  | .verbose | .symbols | .help => true
  | .output | .maxLineLength | .variableBase => false

/-- Find an option by its name. -/
def ofName? (name : Bytes) : Option Flag := all.find? (·.name == name)

/-- Find an option by its letter. -/
def ofLetter? (letter : UInt8) : Option Flag := all.find? (·.letter? == some letter)

/-- How an option is shown in a message. -/
def shown (flag : Flag) : Bytes :=
  let long := ascii "--" ++ flag.name
  match flag.letter? with
  | none => long
  | some letter => ascii "-" ++ [letter] ++ ascii ", " ++ long

/-- The reader of an option's values, as it is called in messages. -/
def reader : Flag → Bytes
  | .verbose | .symbols | .help => ascii "strconv.ParseBool"
  | .maxLineLength => ascii "strconv.ParseInt"
  | .variableBase => ascii "strconv.ParseUint"
  | .output => []

end Flag

/-- Why the arguments of a call are refused. -/
inductive UsageError
  | badForm (argument : Bytes)
  | unknownName (name : Bytes)
  | unknownLetter (letter : UInt8) (group : Bytes)
  | nameWithoutValue (argument : Bytes)
  | letterWithoutValue (letter : UInt8) (group : Bytes)
  | badValue (flag : Flag) (value : Bytes) (fault : Literal.Fault)
  | argumentCount (count : Nat)
  | nothingToComplete
  deriving Repr, DecidableEq

/-- The wording of a refusal. -/
def UsageError.message : UsageError → Bytes
  | .badForm argument => ascii "bad flag syntax: " ++ argument
  | .unknownName name => ascii "unknown flag: --" ++ name
  | .unknownLetter letter group =>
    ascii "unknown shorthand flag: " ++ Quoted.ofByte letter ++ ascii " in -" ++ group
  | .nameWithoutValue argument => ascii "flag needs an argument: " ++ argument
  | .letterWithoutValue letter group =>
    ascii "flag needs an argument: " ++ Quoted.ofByte letter ++ ascii " in -" ++ group
  | .badValue flag value fault =>
    ascii "invalid argument " ++ Quoted.ofBytes value ++ ascii " for " ++
      Quoted.ofBytes flag.shown ++ ascii " flag: " ++ flag.reader ++ ascii ": parsing " ++
      Quoted.ofBytes value ++ ascii ": " ++ fault.message
  | .argumentCount count => ascii "accepts 1 arg(s), received " ++ Decimal.ofNat count
  | .nothingToComplete => ascii "requires at least 1 arg(s), only received 0"

namespace Options

/-- Give an option a value. -/
def set (options : Options) (flag : Flag) (value : Bytes) : Except UsageError Options :=
  let refuse {α : Type} : Except Literal.Fault α → Except UsageError α :=
    Except.mapError (UsageError.badValue flag value)
  match flag with
  | .output => .ok { options with output := value }
  | .verbose => do return { options with verbose := ← refuse (Literal.boolean value) }
  | .symbols => do return { options with symbols := ← refuse (Literal.boolean value) }
  | .help => do return { options with help := ← refuse (Literal.boolean value) }
  | .maxLineLength => do
    let length ← refuse (Literal.integer value)
    return { options with config := { options.config with maxLineLength := length } }
  | .variableBase => do
    let base ← refuse (Literal.natural 0xffff value)
    return { options with config := { options.config with variableBase := BitVec.ofNat 16 base } }

end Options

namespace Arguments

/-- How the next argument is to be read. -/
inductive Mode
  /-- As an option or a plain argument. -/
  | mixed
  /-- As the value of an option; the error says what is missing otherwise. -/
  | value (flag : Flag) (missing : UsageError)
  /-- As a plain argument. -/
  | plain
  deriving Repr, DecidableEq

/-- What is known after some arguments. -/
structure State where
  options : Options := {}
  /-- The options that were given, last one first. -/
  given : List Flag := []
  /-- The plain arguments, last one first. -/
  plain : List Bytes := []
  mode : Mode := .mixed
  deriving Repr, DecidableEq

namespace State

/-- Give an option a value. -/
def give (state : State) (flag : Flag) (value : Bytes) : Except UsageError State :=
  (state.options.set flag value).map fun options =>
    { state with options := options, given := flag :: state.given, mode := .mixed }

/-- Turn a switch on. -/
def switchOn (state : State) (flag : Flag) : Except UsageError State :=
  state.give flag (ascii "true")

/-- Take a plain argument. -/
def takePlain (state : State) (argument : Bytes) : State :=
  { state with plain := argument :: state.plain }

/-- Let the next argument be the value of an option. -/
def await (state : State) (flag : Flag) (missing : UsageError) : State :=
  { state with mode := .value flag missing }

end State

/-- Read an option that is given by its name. -/
def readName (state : State) (argument text : Bytes) : Except UsageError State :=
  match text with
  | Byte.minus :: _ | Byte.equals :: _ => .error (.badForm argument)
  | _ =>
    match Line.cutAt Byte.equals text with
    | (name, value?) =>
      match Flag.ofName? name, value? with
      | none, _ => .error (.unknownName name)
      | some flag, some value => state.give flag value
      | some flag, none =>
        if flag.isSwitch then state.switchOn flag
        else .ok (state.await flag (.nameWithoutValue argument))

/-- Read a group of options that are given by their letters. What starts with `test.` is
passed over. -/
def readLetters (state : State) : Bytes → Except UsageError State
  | [] => .ok state
  | letter :: rest =>
    if (ascii "test.").isPrefixOf (letter :: rest) then .ok state
    else
      match Flag.ofLetter? letter with
      | none => .error (.unknownLetter letter (letter :: rest))
      | some flag =>
        match rest with
        | Byte.equals :: b :: more => state.give flag (b :: more)
        | _ =>
          if flag.isSwitch then
            match state.switchOn flag with
            | .error error => .error error
            | .ok state => readLetters state rest
          else if rest.isEmpty then
            .ok (state.await flag (.letterWithoutValue letter (letter :: rest)))
          else state.give flag rest

/-- Read one argument. -/
def step (state : State) (argument : Bytes) : Except UsageError State :=
  match state.mode with
  | .plain => .ok (state.takePlain argument)
  | .value flag _ => state.give flag argument
  | .mixed =>
    match argument with
    | [Byte.minus, Byte.minus] => .ok { state with mode := .plain }
    | Byte.minus :: Byte.minus :: text => readName state argument text
    | Byte.minus :: letter :: rest => readLetters state (letter :: rest)
    | argument => .ok (state.takePlain argument)

/-- Read all arguments. An option at their end that still awaits its value is an error. -/
def read (arguments : List Bytes) : Except UsageError State := do
  let state ← arguments.foldlM step {}
  match state.mode with
  | .value _ missing => throw missing
  | .mixed | .plain => return state

end Arguments

end HackAssembler
