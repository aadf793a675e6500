/-
# Sequences of distinct names

Names in the order of their first occurrence. An index beside the sequence answers
whether a name has occurred, and the type keeps the two in agreement.
-/

import Std.Data.ExtTreeSet
import HackAssembler.Bytes

namespace HackAssembler

/-- Distinct names in the order in which they were first given. -/
structure NameSequence where
  names : Array Bytes
  index : Std.ExtTreeSet Bytes compare
  mem_index_iff : ∀ name, name ∈ index ↔ name ∈ names.toList
  nodup : names.toList.Nodup

namespace NameSequence

/-- No names. -/
def empty : NameSequence where
  names := #[]
  index := ∅
  mem_index_iff := by simp
  nodup := by simp

instance : Inhabited NameSequence := ⟨empty⟩

/-- The names in order. -/
def toList (sequence : NameSequence) : List Bytes := sequence.names.toList

/-- Give a name, which is added at the end if it is new. -/
def insert (sequence : NameSequence) (name : Bytes) : NameSequence :=
  match sequence with
  | ⟨names, index, mem_index_iff, nodup⟩ =>
    if h : name ∈ index then ⟨names, index, mem_index_iff, nodup⟩
    else
      { names := names.push name
        index := index.insert name
        mem_index_iff := by
          intro other
          rw [Std.ExtTreeSet.mem_insert, Std.LawfulEqCmp.compare_eq_iff_eq, mem_index_iff,
            Array.toList_push, List.mem_append, List.mem_singleton, eq_comm, or_comm]
        nodup := by
          have fresh : name ∉ names.toList := fun member => h ((mem_index_iff name).2 member)
          rw [Array.toList_push]
          refine List.nodup_append.2 ⟨nodup, by simp, ?_⟩
          intro other member last mem_last
          rw [List.mem_singleton.1 mem_last]
          exact fun equal => fresh (equal ▸ member) }

@[simp]
theorem toList_empty : empty.toList = [] := rfl

/-- A name that occurred before changes nothing, and a new one comes last. -/
theorem toList_insert (sequence : NameSequence) (name : Bytes) :
    (sequence.insert name).toList =
      if name ∈ sequence.toList then sequence.toList else sequence.toList ++ [name] := by
  obtain ⟨names, index, mem_index_iff, nodup⟩ := sequence
  by_cases h : name ∈ index
  · simp [insert, toList, h, (mem_index_iff name).1 h]
  · have fresh : name ∉ names.toList := fun member => h ((mem_index_iff name).2 member)
    simp [insert, toList, h, fresh]

end NameSequence

end HackAssembler
