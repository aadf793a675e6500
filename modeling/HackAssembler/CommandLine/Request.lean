/-
# Requests

What a call asks for, as its arguments say it: a completion, the help text or the
assembly of one file.
-/

import HackAssembler.Bytes
import HackAssembler.CommandLine.Completion
import HackAssembler.CommandLine.Options

namespace HackAssembler

/-- What a call asks for. -/
inductive Request
  | help
  | complete (completion : Completion)
  | assemble (input : Bytes) (options : Options)
  deriving Repr, DecidableEq

namespace Request

/-- Read the arguments of a call for help or an assembly. Help goes before everything else;
without it there has to be one plain argument, the input path. -/
def ofOptions (arguments : List Bytes) : Except UsageError Request := do
  let state ← Arguments.read arguments
  if state.options.help then return .help
  match state.plain with
  | [input] => return .assemble input state.options
  | plain => throw (.argumentCount plain.length)

/-- Read the arguments of any call. A keyword for completion comes before the options; the
words to complete are all the others. -/
def ofArguments (arguments : List Bytes) : Except UsageError Request :=
  match Completion.keyword? arguments with
  | none => ofOptions arguments
  | some keyword =>
    (Completion.ofWords (keyword == Completion.describedKeyword) (arguments.erase keyword)).map
      .complete

end Request

end HackAssembler
