/-
# Entries in their order

The entries of a table are listed by value, and by the bytes of their names where values are
equal. Names are distinct, so no two entries are equal in this order, and the order alone fixes
the list. It makes no difference in which order the entries are taken out of the table, or how
ties are broken while they are sorted, since there are no ties.

What is known of the method of sorting is only that it permutes what it is given and leaves no
entry behind one that it is less than. That the comparison is a strict order, which such a
method relies on, is shown here.
-/

import Mathlib.Order.Defs.Unbundled
import HackAssembler.Proofs.FirstBinding

namespace HackAssembler

/-- The comparison of byte strings is that of the first bytes that differ, and a string comes
before those that it is a beginning of. -/
theorem compare_eq_lt_iff (left right : Bytes) : compare left right = .lt ↔ left < right := by
  induction left generalizing right with
  | nil =>
      cases right with
      | nil => exact iff_of_false nofun (List.lt_irrefl [])
      | cons b right => exact iff_of_true rfl (List.nil_lt_cons b right)
  | cons a left ih =>
      cases right with
      | nil => exact iff_of_false nofun (List.not_lt_nil (a :: left))
      | cons b right =>
          have first : compare (a :: left) (b :: right) =
              (compare a b).then (compare left right) := List.compareLex_cons_cons
          rw [first, Ordering.then_eq_lt, Std.compare_eq_lt, Std.LawfulEqOrd.compare_eq_iff_eq, ih,
            List.cons_lt_cons_iff]

namespace SymbolEntry

/-- The comparison that entries are sorted with: by value, and by name where the values are
equal. -/
def less (left right : SymbolEntry) : Bool :=
  if left.value ≠ right.value then left.value.toNat < right.value.toNat
  else left.name < right.name

/-- An entry stands before another: its value is smaller, or the values are equal and its name
comes first. -/
def Before (left right : SymbolEntry) : Prop :=
  left.value.toNat < right.value.toNat ∨ left.value = right.value ∧ left.name < right.name

theorem less_iff_before {left right : SymbolEntry} : less left right = true ↔ Before left right := by
  rw [less, Before]
  by_cases same : left.value = right.value
  · simp [same]
  · simp [same]

theorem le_iff {left right : SymbolEntry} :
    le left right = true ↔ left = right ∨ Before left right := by
  obtain ⟨leftName, leftValue⟩ := left
  obtain ⟨rightName, rightValue⟩ := right
  simp only [le, Before, Bool.or_eq_true, Bool.and_eq_true, decide_eq_true_eq, beq_iff_eq,
    Ordering.isLE_iff_eq_lt_or_eq_eq, compare_eq_lt_iff, Std.LawfulEqOrd.compare_eq_iff_eq,
    SymbolEntry.mk.injEq]
  constructor
  · rintro (smaller | ⟨rfl, before | rfl⟩)
    · exact .inr (.inl smaller)
    · exact .inr (.inr ⟨rfl, before⟩)
    · exact .inl ⟨rfl, rfl⟩
  · rintro (⟨rfl, rfl⟩ | smaller | ⟨rfl, before⟩)
    · exact .inr ⟨rfl, .inr rfl⟩
    · exact .inl smaller
    · exact .inr ⟨rfl, .inl before⟩

/-- Entries can be compared in just one way. -/
instance isStrictTotalOrder_before : IsStrictTotalOrder SymbolEntry Before where
  irrefl entry before := by
    obtain smaller | ⟨-, before⟩ := before
    · exact Nat.lt_irrefl _ smaller
    · exact List.lt_irrefl _ before
  trans first second third before after := by
    obtain smaller | ⟨same, before⟩ := before
    · obtain smallerStill | ⟨sameStill, -⟩ := after
      · exact .inl (Nat.lt_trans smaller smallerStill)
      · exact .inl (sameStill ▸ smaller)
    · obtain smaller | ⟨sameStill, after⟩ := after
      · exact .inl (same ▸ smaller)
      · exact .inr ⟨same.trans sameStill, List.lt_trans before after⟩
  trichotomous left right notBefore notAfter := by
    obtain ⟨leftName, leftValue⟩ := left
    obtain ⟨rightName, rightValue⟩ := right
    have sameValue : leftValue = rightValue := by
      apply BitVec.eq_of_toNat_eq
      have notSmaller : ¬ leftValue.toNat < rightValue.toNat := fun smaller =>
        notBefore (.inl smaller)
      have notLarger : ¬ rightValue.toNat < leftValue.toNat := fun larger =>
        notAfter (.inl larger)
      omega
    subst sameValue
    obtain before | rfl | after := Std.lt_trichotomy leftName rightName
    · exact absurd (.inr ⟨rfl, before⟩) notBefore
    · rfl
    · exact absurd (.inr ⟨rfl, after⟩) notAfter

/-- One entry may stand in front of another exactly if the other is not less. -/
theorem less_eq_false_iff {left right : SymbolEntry} :
    less right left = false ↔ left = right ∨ Before left right := by
  rw [← Bool.not_eq_true, less_iff_before]
  constructor
  · intro notBefore
    by_cases before : Before left right
    · exact .inr before
    · exact .inl (isStrictTotalOrder_before.trichotomous left right before notBefore)
  · rintro (rfl | before) after
    · exact isStrictTotalOrder_before.irrefl left after
    · exact isStrictTotalOrder_before.irrefl left
        (isStrictTotalOrder_before.trans left right left before after)

/-- The comparison that a list is sorted with is the one that it is checked with. -/
theorem le_iff_less_eq_false {left right : SymbolEntry} :
    le left right = true ↔ less right left = false :=
  le_iff.trans less_eq_false_iff.symm

/-- Entries that may stand either way are the same. -/
theorem eq_of_less_eq_false {left right : SymbolEntry} (one : less right left = false)
    (other : less left right = false) : left = right := by
  obtain same | before := less_eq_false_iff.1 one
  · exact same
  · rw [less_iff_before.2 before] at other
    cases other

/-- A list is sorted by the comparison: no entry is less than one in front of it. -/
def IsSorted (list : List SymbolEntry) : Prop :=
  list.Pairwise fun earlier later => less later earlier = false

/-- Among lists of the same entries, only one is sorted. -/
theorem eq_of_isSorted {list other : List SymbolEntry} (perm : list.Perm other)
    (sorted : IsSorted list) (otherSorted : IsSorted other) : list = other :=
  perm.eq_of_pairwise (fun _ _ _ _ => eq_of_less_eq_false) sorted otherSorted

/-- A sorted list without repetitions is strictly increasing. -/
theorem IsSorted.increasing {list : List SymbolEntry} (sorted : IsSorted list)
    (nodup : list.Nodup) : list.Pairwise Before := by
  refine (sorted.and nodup).imp ?_
  rintro earlier later ⟨notLess, apart⟩
  exact (less_eq_false_iff.1 notLess).resolve_left apart

theorem isSorted_mergeSort (list : List SymbolEntry) : IsSorted (list.mergeSort le) := by
  have trans (first second third : SymbolEntry) (one : le first second = true)
      (other : le second third = true) : le first third = true := by
    rw [le_iff] at one other ⊢
    obtain rfl | before := one
    · exact other
    · obtain rfl | after := other
      · exact .inr before
      · exact .inr (isStrictTotalOrder_before.trans first second third before after)
  have total (left right : SymbolEntry) : (le left right || le right left) = true := by
    rw [Bool.or_eq_true, le_iff_less_eq_false, le_iff]
    cases before : less right left with
    | false => exact .inl rfl
    | true => exact .inr (.inr (less_iff_before.1 before))
  exact (List.pairwise_mergeSort trans total list).imp le_iff_less_eq_false.1

end SymbolEntry

namespace SymbolTable

open SymbolEntry

/-- These are the entries of a table, each of them once, in any order. -/
structure Visits (table : SymbolTable) (visited : List SymbolEntry) : Prop where
  mem_iff : ∀ name value, ⟨name, value⟩ ∈ visited ↔ table.get? name = some value
  nodup : visited.Nodup

/-- A list of the entries of a table as it may come out, whatever order the entries are visited
in and whatever method they are sorted by. -/
structure MayList (table : SymbolTable) (list : List SymbolEntry) : Prop where
  visited : ∃ visited, table.Visits visited ∧ list.Perm visited
  sorted : IsSorted list

/-- A list shows a table: it has the entries of the table, each of them once, and its entries
increase. -/
structure Shows (table : SymbolTable) (list : List SymbolEntry) : Prop extends
    Visits table list where
  increasing : list.Pairwise Before

theorem visits_toList (table : SymbolTable) :
    table.Visits (table.bindings.toList.map fun binding => ⟨binding.1, binding.2⟩) where
  mem_iff name value := by
    simp [get?]
  nodup := by
    rw [List.Nodup, List.pairwise_map]
    refine Std.ExtTreeMap.distinct_keys_toList.imp ?_
    intro first second apart same
    have sameName : first.1 = second.1 := congrArg SymbolEntry.name same
    exact apart (Std.LawfulEqOrd.compare_eq_iff_eq.2 sameName)

theorem mayList_entries (table : SymbolTable) : table.MayList table.entries where
  visited := ⟨_, visits_toList table, List.mergeSort_perm _ _⟩
  sorted := isSorted_mergeSort _

theorem MayList.visits {table : SymbolTable} {list : List SymbolEntry}
    (mayList : table.MayList list) : table.Visits list := by
  obtain ⟨visited, visits, perm⟩ := mayList.visited
  constructor
  · intro name value
    rw [perm.mem_iff]
    exact visits.mem_iff name value
  · exact perm.nodup_iff.2 visits.nodup

/-- What may be listed for a table shows it. -/
theorem MayList.shows {table : SymbolTable} {list : List SymbolEntry}
    (mayList : table.MayList list) : table.Shows list :=
  ⟨mayList.visits, mayList.sorted.increasing mayList.visits.nodup⟩

/-- What may be listed for tables with the same bindings is the same. -/
theorem MayList.eq_of_same {table other : SymbolTable} {list otherList : List SymbolEntry}
    (same : ∀ name, other.get? name = table.get? name) (mayList : table.MayList list)
    (otherMayList : other.MayList otherList) : otherList = list := by
  have perm : otherList.Perm list := by
    rw [List.perm_ext_iff_of_nodup otherMayList.visits.nodup mayList.visits.nodup]
    intro entry
    rw [otherMayList.visits.mem_iff, mayList.visits.mem_iff, same]
  exact eq_of_isSorted perm otherMayList.sorted mayList.sorted

/-- The list of entries is canonical. Whatever calls a table has behind it, its list of entries
has every binding once and nothing else, in strictly increasing order. Any other calls that lead
to the same bindings, with the names added in another order, added again or asked for, lead to
the same list, and no other list can come out, whatever order the entries are visited in and
whatever method they are sorted by. -/
theorem shows_entries_of_calls (history : List Operation) :
    (initial.behind history).Shows (initial.behind history).entries ∧
    ∀ others, (∀ name, (initial.behind others).get? name = (initial.behind history).get? name) →
      ∀ list, (initial.behind others).MayList list ↔ list = (initial.behind history).entries := by
  have listed := mayList_entries (initial.behind history)
  refine ⟨listed.shows, ?_⟩
  intro others same list
  constructor
  · intro mayList
    exact MayList.eq_of_same same listed mayList
  · rintro rfl
    rw [← MayList.eq_of_same same listed (mayList_entries (initial.behind others))]
    exact mayList_entries (initial.behind others)

/-- Names may be added in another order, and the later value of a name and of a fixed name are
not taken. -/
theorem shows_entries_of_calls_reordered :
    ∃ history others : List Operation,
      history = [.add (ascii "i") 16, .add (ascii "END") 16, .add [0xff] 3] ∧
      others = [.add [0xff] 3, .add (ascii "END") 16, .add (ascii "SP") 7, .add (ascii "i") 16,
        .add (ascii "END") 2, .size] ∧
      (∀ name, (initial.behind others).get? name = (initial.behind history).get? name) ∧
      (initial.behind others).entries = (initial.behind history).entries := by
  have same (name : Bytes) :
      (initial.behind [.add [0xff] 3, .add (ascii "END") 16, .add (ascii "SP") 7,
        .add (ascii "i") 16, .add (ascii "END") 2, .size]).get? name =
      (initial.behind [.add (ascii "i") 16, .add (ascii "END") 16, .add [0xff] 3]).get? name := by
    rw [(reflects_behind _).value, (reflects_behind _).value]
    by_cases named : name ∈ [ascii "SP", ascii "i", ascii "END", [0xff]]
    · revert name
      decide
    · simp only [List.mem_cons, List.not_mem_nil, or_false, not_or, ← ne_eq] at named
      obtain ⟨notSP, notI, notEnd, notByte⟩ := named
      simp [expected?, List.findSome?_cons, Operation.adds?, notSP.symm, notI.symm, notEnd.symm,
        notByte.symm]
  refine ⟨_, _, rfl, rfl, same, ?_⟩
  exact ((shows_entries_of_calls _).2 _ same _).1 (mayList_entries _)

end SymbolTable

end HackAssembler
