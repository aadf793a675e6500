/-
# Decimal numerals

Writing naturals and integers in decimal, and reading a constant back under an upper
limit. Reading stops at the first byte that is no digit and at the first value over
the limit, so a numeral of any length is refused without computing its value.
-/

import HackAssembler.Bytes

namespace HackAssembler

namespace Decimal

/-- The decimal numeral of a natural number, without leading zeros. -/
def ofNat (n : Nat) : Bytes := (Nat.toDigits 10 n).map Char.toUInt8

/-- The decimal numeral of an integer, with a sign only below zero. -/
def ofInt : Int → Bytes
  | .ofNat n => ofNat n
  | .negSucc n => Byte.minus :: ofNat (n + 1)

/-- Fill `text` up with blanks on its left to at least `width` bytes. -/
def padLeft (width : Nat) (text : Bytes) : Bytes :=
  List.replicate (width - text.length) Byte.space ++ text

/-- The number that a string of digits denotes, most significant digit first. -/
def value (digits : Bytes) : Nat :=
  digits.foldl (fun acc b => 10 * acc + Byte.digitValue b) 0

/-- Take one more digit into a value that must stay within `limit`. -/
def extend? (limit acc : Nat) (b : UInt8) : Option Nat :=
  if Byte.isDigit b then
    let next := 10 * acc + Byte.digitValue b
    if next ≤ limit then some next else none
  else none

/-- Read a nonempty string of digits whose value is at most `limit`. -/
def read? (limit : Nat) (text : Bytes) : Option Nat :=
  if text.isEmpty then none else text.foldlM (extend? limit) 0

/-- A digit is taken in exactly if it is one and the value stays within the limit. -/
theorem extend?_eq_some_iff {limit acc next : Nat} {b : UInt8} :
    extend? limit acc b = some next ↔
      Byte.isDigit b = true ∧ 10 * acc + Byte.digitValue b = next ∧ next ≤ limit := by
  simp only [extend?]
  split
  · next digit =>
    split
    · next fits =>
      simp only [Option.some.injEq, digit, true_and]
      exact ⟨fun equal => ⟨equal, equal ▸ fits⟩, fun both => both.1⟩
    · next tooLarge =>
      simp only [reduceCtorEq, false_iff]
      rintro ⟨_, rfl, fits⟩
      exact tooLarge fits
  · next other => simp [other]

/-- Values only grow while digits are taken in, so a prefix stays within any limit that
the whole respects. -/
theorem le_foldl_value (digits : Bytes) (acc : Nat) :
    acc ≤ digits.foldl (fun acc b => 10 * acc + Byte.digitValue b) acc := by
  induction digits generalizing acc with
  | nil => exact Nat.le_refl acc
  | cons b rest ih =>
    calc
      acc ≤ 10 * acc + Byte.digitValue b := by omega
      _ ≤ _ := ih _

/-- Taking in a string of digits from a value on. -/
theorem foldlM_extend?_eq_some_iff {limit acc result : Nat} {text : Bytes} (within : acc ≤ limit) :
    text.foldlM (extend? limit) acc = some result ↔
      text.all Byte.isDigit = true ∧
        text.foldl (fun acc b => 10 * acc + Byte.digitValue b) acc = result ∧ result ≤ limit := by
  induction text generalizing acc with
  | nil =>
    simp only [List.foldlM_nil, List.all_nil, List.foldl_nil, true_and]
    constructor
    · intro h
      cases h
      exact ⟨rfl, within⟩
    · rintro ⟨rfl, _⟩
      rfl
  | cons b rest ih =>
    simp only [List.foldlM_cons, List.all_cons, List.foldl_cons, Bool.and_eq_true]
    constructor
    · intro h
      obtain ⟨next, taken, more⟩ := Option.bind_eq_some_iff.1 h
      obtain ⟨digit, rfl, fits⟩ := extend?_eq_some_iff.1 taken
      obtain ⟨digits, value, small⟩ := (ih fits).1 more
      exact ⟨⟨digit, digits⟩, value, small⟩
    · rintro ⟨⟨digit, digits⟩, value, small⟩
      have fits : 10 * acc + Byte.digitValue b ≤ limit :=
        Nat.le_trans (le_foldl_value rest _) (value ▸ small)
      exact Option.bind_eq_some_iff.2
        ⟨_, extend?_eq_some_iff.2 ⟨digit, rfl, fits⟩, (ih fits).2 ⟨digits, value, small⟩⟩

/-- What is read is a nonempty string of digits of a value within the limit, and the
number read is that value. -/
theorem read?_eq_some_iff {limit result : Nat} {text : Bytes} :
    read? limit text = some result ↔
      text ≠ [] ∧ text.all Byte.isDigit = true ∧ value text = result ∧ result ≤ limit := by
  rw [read?]
  cases text with
  | nil => simp
  | cons b rest =>
    simp only [List.isEmpty_cons, Bool.false_eq_true, if_false, ne_eq, reduceCtorEq,
      not_false_eq_true, true_and]
    exact foldlM_extend?_eq_some_iff (Nat.zero_le limit)

end Decimal

end HackAssembler
