/-
# Completion

What a shell is told when it asks how the last word of a call may go on. Only names of
options are proposed. A call asks for this when its first plain word is one of two
keywords; which word that is has to be told before the options are read, by a coarser
rule than the one that reads them, and help does not count as an option here.
-/

import HackAssembler.Bytes
import HackAssembler.CommandLine.Options
import HackAssembler.Text.Decimal

namespace HackAssembler

/-- A proposal for the last word. -/
structure Candidate where
  text : Bytes
  description : Bytes
  deriving Repr, DecidableEq

/-- What the shell is to do besides offering the candidates. -/
inductive Directive
  /-- Offer file names as well. -/
  | offerFiles
  /-- Offer nothing else. -/
  | noFiles
  deriving Repr, DecidableEq

namespace Directive

/-- The number that stands for a directive. -/
def code : Directive → Nat
  | .offerFiles => 0
  | .noFiles => 4

/-- The name of a directive. -/
def name : Directive → Bytes
  | .offerFiles => ascii "ShellCompDirectiveDefault"
  | .noFiles => ascii "ShellCompDirectiveNoFileComp"

end Directive

/-- A request to complete the last word of a call. -/
structure Completion where
  /-- Whether the candidates are shown with their descriptions. -/
  described : Bool
  /-- The words before the last one. -/
  finished : List Bytes
  /-- The word to complete. -/
  last : Bytes
  deriving Repr, DecidableEq

namespace Completion

/-- The keyword that asks for candidates with their descriptions. -/
def describedKeyword : Bytes := ascii "__complete"

/-- The keyword that asks for candidates alone. -/
def bareKeyword : Bytes := ascii "__completeNoDesc"

/-- Whether a word together with the next one may be an option and its value. -/
def takesNext (word : Bytes) : Bool :=
  let isSwitch (flag? : Option Flag) : Bool :=
    flag?.any fun flag => flag.isSwitch && flag != .help
  !word.contains Byte.equals &&
    match word with
    | Byte.minus :: Byte.minus :: name => !isSwitch (Flag.ofName? name)
    | [Byte.minus, letter] => !isSwitch (Flag.ofLetter? letter)
    | _ => false

/-- The first plain word. -/
def firstPlain? : List Bytes → Option Bytes
  | [] => none
  | word :: rest =>
    if word = [Byte.minus, Byte.minus] then none
    else if takesNext word then
      match rest with
      | [] => none
      | _ :: rest => firstPlain? rest
    else
      match word with
      | [] | Byte.minus :: _ => firstPlain? rest
      | word => some word

/-- The keyword of a call, if its first plain word is one. -/
def keyword? (arguments : List Bytes) : Option Bytes :=
  (firstPlain? arguments).filter fun word => word == describedKeyword || word == bareKeyword

/-- Whether a word is an option that a value may follow. -/
def isOpen (word : Bytes) : Bool :=
  !word.contains Byte.equals &&
    match word with
    | _ :: Byte.minus :: _ :: _ => true
    | Byte.minus :: second :: _ => second != Byte.minus
    | _ => false

/-- What is to be completed: the last word, without an equals sign that follows two minus
signs and no open option. -/
def goal (completion : Completion) : Bytes :=
  match completion.last with
  | Byte.minus :: Byte.minus :: Byte.equals :: text =>
    if completion.finished.getLast?.any isOpen then completion.last else text
  | last => last

/-- Whether a word may be the beginning of an option without a value. -/
def startsOption (word : Bytes) : Bool :=
  word.head? == some Byte.minus && !word.contains Byte.equals

/-- The ways to write an option that go on from a beginning. -/
def spellings (flag : Flag) (beginning : Bytes) : List Bytes :=
  let long := ascii "--" ++ flag.name
  let short := flag.letter?.map fun letter => ascii "-" ++ [letter]
  (long :: short.toList).filter beginning.isPrefixOf

/-- The options that may follow some words, unless these are wrong or end the options. -/
def freeFlags? (finished : List Bytes) : Option (List Flag) :=
  match Arguments.read finished with
  | .error _ => none
  | .ok state =>
    if state.mode = .plain ∨ .help ∈ state.given then none
    else some (Flag.all.filter fun flag => flag != .help && !state.given.contains flag)

/-- The candidates, if an option may stand at the end of the call. -/
def candidates? (completion : Completion) : Option (List Candidate) :=
  if startsOption completion.goal then
    (freeFlags? completion.finished).map fun flags =>
      flags.flatMap fun flag =>
        (spellings flag completion.goal).map fun text => ⟨text, flag.purpose⟩
  else none

/-- What the shell is to do besides. -/
def directive (completion : Completion) : Directive :=
  if completion.candidates?.isSome then .noFiles else .offerFiles

/-- What is printed: the candidates and the number of the directive. -/
def printout (completion : Completion) : Bytes :=
  let line (candidate : Candidate) : Bytes :=
    candidate.text ++
      (if completion.described then [Byte.tab] ++ candidate.description else []) ++
      [Byte.lineFeed]
  (completion.candidates?.getD []).flatMap line ++ [Byte.colon] ++
    Decimal.ofNat completion.directive.code ++ [Byte.lineFeed]

/-- What is said beside the printout. -/
def remark (completion : Completion) : Bytes :=
  ascii "Completion ended with directive: " ++ completion.directive.name ++ [Byte.lineFeed]

/-- Read the words of a request; the last one has to be there, though it may be empty. -/
def ofWords (described : Bool) (words : List Bytes) : Except UsageError Completion :=
  match words.getLast? with
  | none => .error .nothingToComplete
  | some last => .ok { described, finished := words.dropLast, last }

end Completion

end HackAssembler
