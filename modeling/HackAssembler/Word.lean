/-
# Machine words

A machine word has sixteen bits and is written as sixteen binary digits, most
significant first. The writing is defined for every width, because the fields of an
instruction are written the same way; a word put together from fields is then written
as its fields one after the other.
-/

import HackAssembler.Bytes

namespace HackAssembler

/-- A sixteen bit machine word, also the value of a symbol. -/
abbrev Word := BitVec 16

/-- The largest address that an instruction can carry; the top bit of the word tells
address instructions from computations. -/
def maxAddress : Nat := 32767

/-- The binary digit of a bit. -/
def bitDigit (bit : Bool) : UInt8 := if bit then Byte.one else Byte.zero

/-- The binary digits of a bit vector, most significant first. -/
def binaryDigits {n : Nat} (bits : BitVec n) : Bytes :=
  (List.range n).map fun i => bitDigit (bits.getMsbD i)

@[simp]
theorem length_binaryDigits {n : Nat} (bits : BitVec n) : (binaryDigits bits).length = n := by
  simp [binaryDigits]

/-- The digits of two fields put together are the digits of the one and then of the
other. -/
theorem binaryDigits_append {m n : Nat} (high : BitVec m) (low : BitVec n) :
    binaryDigits (high ++ low) = binaryDigits high ++ binaryDigits low := by
  apply List.ext_getElem
  · simp
  · intro i h₁ h₂
    simp only [binaryDigits, List.getElem_map, List.getElem_range, List.getElem_append,
      List.length_map, List.length_range, BitVec.getMsbD_append]
    by_cases h : i < m
    · simp [h, Nat.not_le_of_lt h]
    · simp [h, Nat.le_of_not_lt h]

end HackAssembler
