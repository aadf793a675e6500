/-
# UTF-8 sequences

Reading one character off the front of a byte string, writing one, and cutting a byte
string into characters and stray bytes. A sequence is read only in its shortest form
and only for a scalar value, so what cannot be read is exactly what no character is
written as.
-/

import HackAssembler.Bytes

namespace HackAssembler

namespace Utf8

/-- How many bytes a sequence with this lead byte has; zero for a byte that leads none. -/
def sequenceLength (lead : UInt8) : Nat :=
  if lead < 0x80 then 1
  else if lead < 0xc0 then 0
  else if lead < 0xe0 then 2
  else if lead < 0xf0 then 3
  else if lead < 0xf8 then 4
  else 0

/-- The bits that a lead byte contributes to a sequence of the given length. -/
def leadBits (length : Nat) (lead : UInt8) : Nat :=
  match length with
  | 2 => lead.toNat % 0x20
  | 3 => lead.toNat % 0x10
  | 4 => lead.toNat % 0x08
  | _ => lead.toNat

/-- The least code point that needs a sequence of the given length. -/
def leastCodePoint : Nat → Nat
  | 2 => 0x80
  | 3 => 0x800
  | 4 => 0x10000
  | _ => 0

/-- Bytes that continue a sequence. -/
def isContinuation (b : UInt8) : Bool := 0x80 ≤ b && b < 0xc0

/-- Read one character off the front, with the number of bytes it takes. -/
def decode? : Bytes → Option (Char × Nat)
  | [] => none
  | lead :: rest =>
    let length := sequenceLength lead
    let tail := rest.take (length - 1)
    let code := tail.foldl (fun acc b => 64 * acc + b.toNat % 64) (leadBits length lead)
    if length ≠ 0 ∧ tail.length = length - 1 ∧ tail.all isContinuation = true
        ∧ leastCodePoint length ≤ code ∧ code.isValidChar then
      some (Char.ofNat code, length)
    else none

/-- The bytes of one character. -/
def encode (c : Char) : Bytes := String.utf8EncodeChar c

/-- A unit of a byte string read as UTF-8: a character, or a byte that is part of none. -/
inductive Piece
  | char (c : Char)
  | stray (b : UInt8)
  deriving Repr, DecidableEq

namespace Piece

/-- Read on behind `skip` bytes that belong to the last character; `done` holds the
pieces read so far, last one first. -/
def readOn (skip : Nat) (done : List Piece) : Bytes → List Piece
  | [] => done.reverse
  | b :: rest =>
    match skip with
    | skip + 1 => readOn skip done rest
    | 0 =>
      match decode? (b :: rest) with
      | some (c, length) => readOn (length - 1) (.char c :: done) rest
      | none => readOn 0 (.stray b :: done) rest

/-- The characters and stray bytes of a text, in order. -/
def ofBytes (text : Bytes) : List Piece := readOn 0 [] text

end Piece

end Utf8

end HackAssembler
