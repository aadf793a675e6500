/-
# Literals on the command line

The values that an option can take. An integer may be written in base two, eight, ten or
sixteen, with underscores between its digits. Its digits are taken from left to right
and the first that does not belong to the base, or that carries the value over the limit,
decides the outcome; the places of the underscores are looked at only after that.
-/

import HackAssembler.Bytes

namespace HackAssembler

namespace Literal

/-- Why a text is not an acceptable value. -/
inductive Fault
  | malformed
  | outOfRange
  deriving Repr, DecidableEq

/-- The wording of a fault. -/
def Fault.message : Fault → Bytes
  | .malformed => ascii "invalid syntax"
  | .outOfRange => ascii "value out of range"

/-- The lower case of a letter. -/
def lower (b : UInt8) : UInt8 := b ||| 0x20

/-- The base that the letter behind a leading zero stands for. -/
def baseOfLetter? (b : UInt8) : Option Nat :=
  if lower b = 0x62 then some 2
  else if lower b = 0x6f then some 8
  else if lower b = 0x78 then some 16
  else none

/-- The base of a literal and the digits in that base. A leading zero without a letter, or
with a letter and nothing behind it, is octal. -/
def radix : Bytes → Nat × Bytes
  | Byte.zero :: letter :: b :: rest =>
    match baseOfLetter? letter with
    | some base => (base, b :: rest)
    | none => (8, letter :: b :: rest)
  | Byte.zero :: rest => (8, rest)
  | text => (10, text)

/-- The value of a digit or letter. -/
def digitValue? (b : UInt8) : Option Nat :=
  if Byte.isDigit b then some (Byte.digitValue b)
  else if Byte.isLetter b then some ((lower b).toNat - 0x61 + 10)
  else none

/-- Read digits up to `limit`, passing over underscores. -/
def readDigits (base limit : Nat) : Bytes → Nat → Except Fault Nat
  | [], acc => .ok acc
  | Byte.underscore :: rest, acc => readDigits base limit rest acc
  | b :: rest, acc =>
    match digitValue? b with
    | none => .error .malformed
    | some digit =>
      if base ≤ digit then .error .malformed
      else if limit < base * acc + digit then .error .outOfRange
      else readDigits base limit rest (base * acc + digit)

/-- Whether every underscore stands between two digits, where `afterDigit` tells what
stands before the text. -/
def separatesDigits (afterDigit : Bool) : Bytes → Bool
  | [] => true
  | [Byte.underscore] => false
  | Byte.underscore :: rest => afterDigit && separatesDigits false rest
  | _ :: rest => separatesDigits true rest

/-- Whether the underscores of a literal are well placed; the mark of a base counts as a
digit. -/
def separatorsFit : Bytes → Bool
  | Byte.zero :: letter :: rest =>
    if (baseOfLetter? letter).isSome then separatesDigits true rest
    else separatesDigits true (letter :: rest)
  | text => separatesDigits false text

/-- Read a literal without a sign, of value at most `limit`. -/
def natural (limit : Nat) (text : Bytes) : Except Fault Nat :=
  if text.isEmpty then .error .malformed
  else
    match radix text with
    | (base, digits) =>
      match readDigits base limit digits 0 with
      | .error fault => .error fault
      | .ok value => if separatorsFit text then .ok value else .error .malformed

/-- The largest magnitude that fits 64 bits without a sign. -/
def maxMagnitude : Nat := 0xffffffffffffffff

/-- The magnitude of the least integer of 64 bits. -/
def signLimit : Nat := 0x8000000000000000

/-- Read a literal with an optional sign, of a value that fits 64 bits. -/
def integer (text : Bytes) : Except Fault Int :=
  let (negative, magnitude) :=
    match text with
    | Byte.plus :: rest => (false, rest)
    | Byte.minus :: rest => (true, rest)
    | text => (false, text)
  match natural maxMagnitude magnitude with
  | .error fault => .error fault
  | .ok value =>
    if negative then
      if value ≤ signLimit then .ok (-value) else .error .outOfRange
    else if value < signLimit then .ok value else .error .outOfRange

/-- Read a truth value. -/
def boolean (text : Bytes) : Except Fault Bool :=
  if ["1", "t", "T", "TRUE", "true", "True"].any (ascii · == text) then .ok true
  else if ["0", "f", "F", "FALSE", "false", "False"].any (ascii · == text) then .ok false
  else .error .malformed

end Literal

end HackAssembler
