/-
# Numerals are read back

A decimal numeral of a number is a string of digits that denotes it, and the binary digits
of a bit vector denote its value. The numeral of a number with several digits is the numeral
of its tenth with one more digit behind it, and what is said about decimal numerals here
goes by induction along that. What digits denote by their positions is defined apart from how
they are read, so that a word can be described without a reference to how it is written.
-/

import Mathlib.Data.Nat.Digits.Defs
import HackAssembler.Text.Decimal
import HackAssembler.Word

namespace HackAssembler

namespace Decimal

theorem digit_of_lt {digit : Nat} (small : digit < 10) :
    Byte.isDigit digit.digitChar.toUInt8 = true ∧
      Byte.digitValue digit.digitChar.toUInt8 = digit := by
  have all : ∀ digit : Fin 10, Byte.isDigit digit.val.digitChar.toUInt8 = true ∧
      Byte.digitValue digit.val.digitChar.toUInt8 = digit.val := by
    decide
  exact all ⟨digit, small⟩

theorem ofNat_of_lt {n : Nat} (small : n < 10) : ofNat n = [n.digitChar.toUInt8] := by
  rw [ofNat, Nat.toDigits_of_lt_base small, List.map_singleton]

theorem ofNat_of_le {n : Nat} (large : 10 ≤ n) :
    ofNat n = ofNat (n / 10) ++ [(n % 10).digitChar.toUInt8] := by
  rw [ofNat, Nat.toDigits_of_base_le (by decide) large, List.map_append, List.map_singleton,
    ofNat]

theorem ofNat_ne_nil (n : Nat) : ofNat n ≠ [] := by
  by_cases small : n < 10
  · rw [ofNat_of_lt small]
    exact List.cons_ne_nil _ _
  · rw [ofNat_of_le (Nat.not_lt.1 small)]
    exact List.concat_ne_nil _ _

theorem all_isDigit_ofNat (n : Nat) : (ofNat n).all Byte.isDigit = true := by
  induction n using Nat.strongRecOn with
  | ind n ih =>
      by_cases small : n < 10
      · rw [ofNat_of_lt small, List.all_cons, (digit_of_lt small).1, List.all_nil, Bool.and_true]
      · have front := ih (n / 10) (by omega)
        have last := (digit_of_lt (Nat.mod_lt n (by decide : 0 < 10))).1
        rw [ofNat_of_le (Nat.not_lt.1 small), List.all_append, front, List.all_cons, last,
          List.all_nil, Bool.and_true, Bool.true_and]

/-- A numeral denotes the number it was written for. -/
theorem value_ofNat (n : Nat) : value (ofNat n) = n := by
  induction n using Nat.strongRecOn with
  | ind n ih =>
      by_cases small : n < 10
      · rw [ofNat_of_lt small, value, List.foldl_cons, List.foldl_nil, (digit_of_lt small).2]
        omega
      · have front := ih (n / 10) (by omega)
        have last := (digit_of_lt (Nat.mod_lt n (by decide : 0 < 10))).2
        rw [value] at front
        rw [ofNat_of_le (Nat.not_lt.1 small), value, List.foldl_append, front, List.foldl_cons,
          List.foldl_nil, last]
        omega

/-- A numeral is read back within any limit that it respects. -/
theorem read?_ofNat {limit n : Nat} (within : n ≤ limit) : read? limit (ofNat n) = some n :=
  read?_eq_some_iff.2 ⟨ofNat_ne_nil n, all_isDigit_ofNat n, value_ofNat n, within⟩

theorem length_ofNat_le {n places : Nat} (some_place : 0 < places) (small : n < 10 ^ places) :
    (ofNat n).length ≤ places := by
  rw [ofNat, List.length_map]
  exact Nat.toDigits_length 10 n places some_place small

end Decimal

/-! ## Binary digits -/

/-- The number that a string of binary digits denotes, most significant digit first. -/
def binaryValue (digits : Bytes) : Nat :=
  digits.foldl (fun acc b => 2 * acc + Byte.digitValue b) 0

/-- Read as many binary digits as there are bits. -/
def readBinary? (n : Nat) (digits : Bytes) : Option (BitVec n) :=
  if digits.length = n ∧ digits.all (fun b => b == Byte.zero || b == Byte.one) then
    some (BitVec.ofNat n (binaryValue digits))
  else none

theorem binaryDigits_cons {n : Nat} (high : Bool) (low : BitVec n) :
    binaryDigits (BitVec.cons high low) = bitDigit high :: binaryDigits low := by
  rw [binaryDigits, List.range_succ_eq_map, List.map_cons, List.map_map, BitVec.getMsbD_cons_zero,
    binaryDigits]
  congr 1
  apply List.map_congr_left
  intro i _
  rw [Function.comp_apply, BitVec.getMsbD_cons_succ]

/-- Reading the digits of a bit vector on from a value shifts that value to the left. -/
theorem foldl_binaryDigits {n : Nat} (bits : BitVec n) (acc : Nat) :
    (binaryDigits bits).foldl (fun acc b => 2 * acc + Byte.digitValue b) acc =
      acc * 2 ^ n + bits.toNat := by
  induction n generalizing acc with
  | zero => simp [binaryDigits, BitVec.of_length_zero]
  | succ n ih =>
      rw [← BitVec.cons_msb_setWidth bits]
      generalize bits.msb = high, bits.setWidth n = low
      have digit : Byte.digitValue (bitDigit high) = high.toNat := by cases high <;> decide
      rw [binaryDigits_cons, List.foldl_cons, ih, digit, BitVec.toNat_cons', Nat.shiftLeft_eq]
      ring

theorem binaryValue_binaryDigits {n : Nat} (bits : BitVec n) :
    binaryValue (binaryDigits bits) = bits.toNat := by
  rw [binaryValue, foldl_binaryDigits, Nat.zero_mul, Nat.zero_add]

theorem isBit_of_mem_binaryDigits {n : Nat} {bits : BitVec n} {b : UInt8}
    (member : b ∈ binaryDigits bits) : b = Byte.zero ∨ b = Byte.one := by
  obtain ⟨i, -, rfl⟩ := List.mem_map.1 member
  cases bits.getMsbD i
  · exact .inl rfl
  · exact .inr rfl

/-- A bit vector is read back from its digits. -/
theorem readBinary?_binaryDigits {n : Nat} (bits : BitVec n) :
    readBinary? n (binaryDigits bits) = some bits := by
  have proper : (binaryDigits bits).length = n ∧
      (binaryDigits bits).all (fun b => b == Byte.zero || b == Byte.one) = true := by
    refine ⟨length_binaryDigits bits, List.all_eq_true.2 fun b member => ?_⟩
    simpa using isBit_of_mem_binaryDigits member
  rw [readBinary?, if_pos proper, binaryValue_binaryDigits, BitVec.ofNat_toNat,
    BitVec.setWidth_eq]

/-! ## Digits by position -/

/-- The number that digits denote in a base, the most significant digit first. -/
def denoted (base : Nat) (digits : Bytes) : Nat :=
  Nat.ofDigits base (digits.reverse.map Byte.digitValue)

/-- Reading digits from the left, one after the other, gives the number they denote. -/
theorem foldl_digits_eq_denoted (base : Nat) (digits : Bytes) :
    digits.foldl (fun acc b => base * acc + Byte.digitValue b) 0 = denoted base digits := by
  rw [denoted, Nat.ofDigits_eq_foldr, List.foldr_map, List.foldr_reverse]
  simp only [Nat.cast_id, Nat.add_comm]

theorem Decimal.value_eq_denoted (digits : Bytes) : value digits = denoted 10 digits :=
  foldl_digits_eq_denoted 10 digits

theorem binaryValue_eq_denoted (digits : Bytes) : binaryValue digits = denoted 2 digits :=
  foldl_digits_eq_denoted 2 digits

/-- The word of an address command carries this number: it has sixteen binary digits, the first
of which is a zero, and they denote the number. -/
structure Carries (word : Bytes) (number : Nat) : Prop where
  length : word.length = 16
  leading : word.head? = some Byte.zero
  binary : ∀ b ∈ word, b = Byte.zero ∨ b = Byte.one
  number : denoted 2 word = number

/-- A string of binary digits is told apart by its length and the number it denotes. -/
theorem eq_of_denoted_eq {first second : Bytes} (sameLength : first.length = second.length)
    (bits : ∀ b ∈ first, b = Byte.zero ∨ b = Byte.one)
    (bits' : ∀ b ∈ second, b = Byte.zero ∨ b = Byte.one)
    (same : denoted 2 first = denoted 2 second) : first = second := by
  have small {digits : Bytes} (bits : ∀ b ∈ digits, b = Byte.zero ∨ b = Byte.one) :
      ∀ value ∈ digits.reverse.map Byte.digitValue, value < 2 := by
    intro value member
    obtain ⟨b, here, rfl⟩ := List.mem_map.1 member
    obtain rfl | rfl := bits b (List.mem_reverse.1 here) <;> decide
  have back {digits : Bytes} (bits : ∀ b ∈ digits, b = Byte.zero ∨ b = Byte.one) :
      (digits.map Byte.digitValue).map (fun value => bitDigit (value == 1)) = digits := by
    rw [List.map_map]
    refine (List.map_congr_left ?_).trans (List.map_id digits)
    intro b here
    obtain rfl | rfl := bits b here <;> rfl
  have values := Nat.ofDigits_inj_of_len_eq Nat.one_lt_two (by simp [sameLength]) (small bits)
    (small bits') same
  rw [List.map_reverse, List.map_reverse, List.reverse_inj] at values
  rw [← back bits, values, back bits']

/-- A word is determined by the number that it carries. -/
theorem Carries.unique {first second : Bytes} {number : Nat} (one : Carries first number)
    (other : Carries second number) : first = second :=
  eq_of_denoted_eq (one.length.trans other.length.symm) one.binary other.binary
    (one.number.trans other.number.symm)

end HackAssembler
