/-
# How symbols are bound over time

What a session knows about symbols is its table and the address of the next variable, and
there are only two ways in which this changes: a label is bound to an address, or an
unbound symbol is bound to the next address, which then moves on. What is true of the
symbols of a session over all its life follows from these two steps. A binding is never
replaced, and the variables stand at consecutive addresses in the order in which they
were bound.

Which steps a session takes, and in which order, is left to the module on its calls.
-/

import Mathlib.Logic.Relation
import HackAssembler.Session

namespace HackAssembler

namespace SymbolTable

/-- Of several entries for one name the first counts, and none does if the name was bound
before. -/
theorem get?_foldl_bind (entries : List SymbolEntry) (table : SymbolTable) (name : Bytes) :
    (entries.foldl (fun table entry => table.bind entry.name entry.value) table).get? name =
      (table.get? name).or ((entries.find? (·.name == name)).map SymbolEntry.value) := by
  induction entries generalizing table with
  | nil => simp
  | cons entry entries ih =>
      rw [List.foldl_cons, ih, get?_bind, List.find?_cons]
      by_cases same : entry.name = name
      · subst same
        cases table.get? entry.name <;> simp
      · simp [same, beq_false_of_ne same]

/-- The table of a new session binds the reserved names and nothing else. -/
theorem get?_initial (name : Bytes) :
    initial.get? name = (reserved.find? (·.name == name)).map SymbolEntry.value := by
  have unbound : empty.get? name = none := by simp [empty, get?]
  rw [initial, get?_foldl_bind, unbound, Option.none_or]

theorem get?_initial_of_mem :
    ∀ entry ∈ reserved, initial.get? entry.name = some entry.value := by
  intro entry member
  rw [get?_initial]
  revert entry
  decide

theorem le_maxAddress_of_get?_initial {name : Bytes} {value : Word}
    (h : initial.get? name = some value) : value.toNat ≤ maxAddress := by
  rw [get?_initial] at h
  obtain ⟨entry, found, rfl⟩ := Option.map_eq_some_iff.1 h
  have small : ∀ entry ∈ reserved, entry.value.toNat ≤ maxAddress := by decide
  exact small entry (List.mem_of_find?_eq_some found)

/-- What is bound stays bound to the same value. -/
theorem get?_bind_of_bound {table : SymbolTable} {name : Bytes} {value : Word}
    (bound : table.get? name = some value) (other : Bytes) (address : Word) :
    (table.bind other address).get? name = some value := by
  rw [get?_bind]
  split
  · next new =>
      obtain ⟨rfl, free⟩ := new
      rw [free] at bound
      cases bound
  · exact bound

/-- A value that is found in an extended table was there before, or is the new one. -/
theorem get?_bind_cases {table : SymbolTable} {name other : Bytes} {value address : Word}
    (h : (table.bind other address).get? name = some value) :
    table.get? name = some value ∨ value = address := by
  rw [get?_bind] at h
  split at h
  · cases h
    exact .inr rfl
  · exact .inl h

end SymbolTable

/-- What a session knows about symbols. -/
structure Symbols where
  table : SymbolTable
  /-- The address of the next variable. -/
  cursor : Word

namespace Symbols

/-- The two ways in which symbols change. -/
inductive Step : Symbols → Symbols → Prop
  | bindLabel {table : SymbolTable} {cursor : Word} (name : Bytes) {address : Nat}
      (fits : address ≤ maxAddress) :
      Step ⟨table, cursor⟩ ⟨table.bind name (BitVec.ofNat 16 address), cursor⟩
  | allocate {table : SymbolTable} {cursor : Word} {name : Bytes}
      (isSymbol : Line.isSymbol name = true) (free : table.get? name = none)
      (fits : cursor.toNat ≤ maxAddress) :
      Step ⟨table, cursor⟩ ⟨table.bind name cursor, cursor + 1⟩

/-- One state of the symbols leads to another by any number of steps. -/
def Leads : Symbols → Symbols → Prop := Relation.ReflTransGen Step

variable {first last : Symbols} {base : Nat} {names : List Bytes}

theorem Step.get?_eq_some (step : Step first last) {name : Bytes} {value : Word}
    (bound : first.table.get? name = some value) : last.table.get? name = some value := by
  cases step with
  | bindLabel | allocate => exact SymbolTable.get?_bind_of_bound bound _ _

/-- A binding is never lost or replaced. -/
theorem Leads.get?_eq_some (leads : Leads first last) {name : Bytes} {value : Word}
    (bound : first.table.get? name = some value) : last.table.get? name = some value := by
  induction leads with
  | refl => exact bound
  | tail _ step ih => exact step.get?_eq_some ih

/-- The symbols that a table binds when `names` are the variables so far, in the order in
which they were bound, and variables start at `base`. -/
structure HasVariables (base : Nat) (names : List Bytes) (symbols : Symbols) : Prop where
  distinct : names.Nodup
  isSymbol : ∀ name ∈ names, Line.isSymbol name = true
  notReserved : ∀ name ∈ names, ∀ entry ∈ SymbolTable.reserved, entry.name ≠ name
  bound : ∀ (index : Nat) (name : Bytes), names[index]? = some name →
    ∃ address, symbols.table.get? name = some address ∧ address.toNat = base + index
  cursor : symbols.cursor.toNat = base + names.length
  reserved : ∀ entry ∈ SymbolTable.reserved, symbols.table.get? entry.name = some entry.value
  small : ∀ name value, symbols.table.get? name = some value → value.toNat ≤ maxAddress

namespace HasVariables

theorem bindLabel {table : SymbolTable} {cursor : Word} {address : Nat}
    (holds : HasVariables base names ⟨table, cursor⟩) (name : Bytes)
    (fits : address ≤ maxAddress) :
    HasVariables base names ⟨table.bind name (BitVec.ofNat 16 address), cursor⟩ where
  distinct := holds.distinct
  isSymbol := holds.isSymbol
  notReserved := holds.notReserved
  bound := by
    intro index other place
    obtain ⟨value, bound, isPlace⟩ := holds.bound index other place
    exact ⟨value, SymbolTable.get?_bind_of_bound bound _ _, isPlace⟩
  cursor := holds.cursor
  reserved := by
    intro entry member
    exact SymbolTable.get?_bind_of_bound (holds.reserved entry member) _ _
  small := by
    intro other value bound
    rcases SymbolTable.get?_bind_cases bound with old | rfl
    · exact holds.small other value old
    · rw [BitVec.toNat_ofNat]
      exact Nat.le_trans (Nat.mod_le _ _) fits

/-- A variable is new, since those that there are and the reserved names are bound. -/
theorem allocate {table : SymbolTable} {cursor : Word} {name : Bytes}
    (holds : HasVariables base names ⟨table, cursor⟩) (isSymbol : Line.isSymbol name = true)
    (free : table.get? name = none) (fits : cursor.toNat ≤ maxAddress) :
    HasVariables base (names ++ [name]) ⟨table.bind name cursor, cursor + 1⟩ where
  distinct := by
    have new : name ∉ names := by
      intro member
      obtain ⟨index, place⟩ := List.mem_iff_getElem?.1 member
      obtain ⟨value, bound, -⟩ := holds.bound index name place
      rw [free] at bound
      cases bound
    refine List.nodup_append.2 ⟨holds.distinct, List.pairwise_singleton _ name, ?_⟩
    rintro other member same isLast rfl
    exact new (List.mem_singleton.1 isLast ▸ member)
  isSymbol := by
    intro other member
    rcases List.mem_append.1 member with old | isLast
    · exact holds.isSymbol other old
    · rw [List.mem_singleton.1 isLast]
      exact isSymbol
  notReserved := by
    intro other member entry isReserved
    rcases List.mem_append.1 member with old | isLast
    · exact holds.notReserved other old entry isReserved
    · rw [List.mem_singleton.1 isLast]
      rintro rfl
      rw [holds.reserved entry isReserved] at free
      cases free
  bound := by
    intro index other place
    rw [List.getElem?_append] at place
    split at place
    · obtain ⟨value, bound, isPlace⟩ := holds.bound index other place
      exact ⟨value, SymbolTable.get?_bind_of_bound bound _ _, isPlace⟩
    · next beyond =>
        rw [List.getElem?_singleton] at place
        split at place
        · cases place
          have here : cursor.toNat = base + names.length := holds.cursor
          refine ⟨cursor, by simp [SymbolTable.get?_bind, free], ?_⟩
          omega
        · cases place
  cursor := by
    rw [maxAddress] at fits
    have here : cursor.toNat = base + names.length := holds.cursor
    have one : (1 : Word).toNat = 1 := rfl
    rw [BitVec.toNat_add, one, List.length_append, List.length_singleton]
    omega
  reserved := by
    intro entry member
    exact SymbolTable.get?_bind_of_bound (holds.reserved entry member) _ _
  small := by
    intro other value bound
    rcases SymbolTable.get?_bind_cases bound with old | rfl
    · exact holds.small other value old
    · exact fits

/-- Every step keeps the variables, and adds at most one at the end. -/
theorem step (holds : HasVariables base names first) (step : Step first last) :
    ∃ more, HasVariables base (names ++ more) last := by
  cases step with
  | bindLabel name fits =>
      refine ⟨[], ?_⟩
      rw [List.append_nil]
      exact holds.bindLabel name fits
  | @allocate table cursor name isSymbol free fits =>
      exact ⟨[name], holds.allocate isSymbol free fits⟩

theorem leads (holds : HasVariables base names first) (leads : Leads first last) :
    ∃ more, HasVariables base (names ++ more) last := by
  induction leads with
  | refl =>
      refine ⟨[], ?_⟩
      rw [List.append_nil]
      exact holds
  | tail _ step ih =>
      obtain ⟨some, holds⟩ := ih
      obtain ⟨more, holds⟩ := holds.step step
      refine ⟨some ++ more, ?_⟩
      rw [← List.append_assoc]
      exact holds

/-- Different variables are bound to different addresses. -/
theorem eq_of_get?_eq (holds : HasVariables base names first) {one other : Bytes}
    (member : one ∈ names) (otherMember : other ∈ names)
    (same : first.table.get? one = first.table.get? other) : one = other := by
  obtain ⟨index, place⟩ := List.mem_iff_getElem?.1 member
  obtain ⟨otherIndex, otherPlace⟩ := List.mem_iff_getElem?.1 otherMember
  obtain ⟨value, bound, address⟩ := holds.bound index one place
  obtain ⟨otherValue, otherBound, otherAddress⟩ := holds.bound otherIndex other otherPlace
  rw [bound, otherBound] at same
  cases same
  have sameIndex : index = otherIndex := by omega
  subst sameIndex
  rw [place] at otherPlace
  exact Option.some.inj otherPlace

end HasVariables

end Symbols

end HackAssembler
