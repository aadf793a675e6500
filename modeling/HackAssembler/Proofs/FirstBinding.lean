/-
# What a symbol table has been told

A table is asked and told things in any order, and what it answers depends on the earlier
calls alone. This module says how, without a table: a reserved name has its fixed value, any
other name has the value it was first added with, and a name that was never added has none.
Calls that only ask change nothing, and neither does an addition that comes too late.

The table is counted by what it has answered itself, so that its size is tied to the additions
that it reported as new.
-/

import Mathlib.Data.List.Induction
import HackAssembler.Proofs.Symbols

namespace HackAssembler

namespace SymbolTable

/-! ## Calls -/

/-- What can be asked of a table. -/
inductive Operation
  | add (name : Bytes) (value : Word)
  | contains (name : Bytes)
  | lookup (name : Bytes)
  | size
  | entries

/-- What a table answers. -/
inductive Answer
  | added (isNew : Bool)
  | contains (found : Bool)
  | value (result : Except UnknownSymbol Word)
  | size (count : Nat)
  | entries (list : List SymbolEntry)

/-- Whether the answer reports a new name. -/
def Answer.isNew : Answer → Bool
  | .added isNew => isNew
  | _ => false

/-- Answer one call. -/
def perform (table : SymbolTable) : Operation → Answer × SymbolTable
  | .add name value =>
    match table.add name value with
    | (isNew, table) => (.added isNew, table)
  | .contains name => (.contains (table.contains name), table)
  | .lookup name => (.value (table.lookup name), table)
  | .size => (.size table.size, table)
  | .entries => (.entries table.entries, table)

/-- The answers to a sequence of calls. -/
def answers (table : SymbolTable) : List Operation → List Answer
  | [] => []
  | operation :: later =>
    match table.perform operation with
    | (answer, table) => answer :: table.answers later

theorem answers_cons (table : SymbolTable) (operation : Operation) (later : List Operation) :
    table.answers (operation :: later) =
      (table.perform operation).1 :: (table.perform operation).2.answers later := rfl

/-- The table behind a sequence of calls. -/
def behind (table : SymbolTable) (history : List Operation) : SymbolTable :=
  history.foldl (fun table operation => (table.perform operation).2) table

theorem behind_nil (table : SymbolTable) : table.behind [] = table := rfl

theorem behind_concat (table : SymbolTable) (history : List Operation) (operation : Operation) :
    table.behind (history ++ [operation]) = ((table.behind history).perform operation).2 := by
  simp [behind]

/-- Later calls do not change earlier answers. -/
theorem answers_append (table : SymbolTable) (history later : List Operation) :
    table.answers (history ++ later) =
      table.answers history ++ (table.behind history).answers later := by
  induction history generalizing table with
  | nil => rfl
  | cons operation history ih =>
      rw [List.cons_append, answers_cons, answers_cons, ih]
      rfl

theorem length_answers (table : SymbolTable) (history : List Operation) :
    (table.answers history).length = history.length := by
  induction history generalizing table with
  | nil => rfl
  | cons operation history ih => exact congrArg (· + 1) (ih _)

/-! ## What is expected -/

/-- The names that a table has from the start, with their values. -/
def fixedNames : List (String × Nat) :=
  [("SP", 0), ("LCL", 1), ("ARG", 2), ("THIS", 3), ("THAT", 4), ("SCREEN", 16384),
    ("KBD", 24576), ("R0", 0), ("R1", 1), ("R2", 2), ("R3", 3), ("R4", 4), ("R5", 5), ("R6", 6),
    ("R7", 7), ("R8", 8), ("R9", 9), ("R10", 10), ("R11", 11), ("R12", 12), ("R13", 13),
    ("R14", 14), ("R15", 15)]

/-- The value that a name has from the start. -/
def fixedValue? (name : Bytes) : Option Word :=
  (fixedNames.find? fun entry => ascii entry.1 == name).map fun entry => BitVec.ofNat 16 entry.2

/-- The value that the call adds for a name. -/
def Operation.adds? (name : Bytes) : Operation → Option Word
  | .add other value => if other = name then some value else none
  | _ => none

/-- The value of a name behind a history of calls: its fixed value, or else the value of its
first addition. -/
def expected? (history : List Operation) (name : Bytes) : Option Word :=
  (fixedValue? name).or (history.findSome? (Operation.adds? name))

/-- The right answer to a call behind a history of calls that were answered like this. -/
def IsAnswer (history : List Operation) (given : List Answer) : Operation → Answer → Prop
  | .add name _, .added isNew => isNew = true ↔ expected? history name = none
  | .contains name, .contains found => found = true ↔ ∃ value, expected? history name = some value
  | .lookup name, .value (.ok value) => expected? history name = some value
  | .lookup name, .value (.error unknown) =>
    expected? history name = none ∧ unknown.name = name
  | .size, .size count => count = 23 + given.countP Answer.isNew
  | .entries, .entries list => list.length = 23 + given.countP Answer.isNew
  | _, _ => False

/-! ## Tables behind a history -/

theorem length_entries (table : SymbolTable) : table.entries.length = table.size := by
  simp [entries, SymbolTable.size]

theorem contains_iff_lookup (table : SymbolTable) (name : Bytes) :
    table.contains name = true ↔ ∃ value, table.lookup name = .ok value := by
  rw [contains_eq_isSome_get?, lookup]
  cases table.get? name <;> simp

/-- The table knows what it should know behind a history, and has counted what it reported. -/
structure Reflects (history : List Operation) (given : List Answer) (table : SymbolTable) :
    Prop where
  value : ∀ name, table.get? name = expected? history name
  size : table.size = 23 + given.countP Answer.isNew

theorem reserved_eq : reserved =
    fixedNames.map fun entry => ⟨ascii entry.1, BitVec.ofNat 16 entry.2⟩ := by
  decide

theorem reflects_initial : initial.Reflects [] [] where
  value name := by
    rw [get?_initial, reserved_eq, List.find?_map, Option.map_map]
    simp [expected?, fixedValue?, Function.comp_def]
  size := by
    decide +kernel

/-- A later call adds a value only where there is none. -/
theorem expected?_concat (history : List Operation) (operation : Operation) (name : Bytes) :
    expected? (history ++ [operation]) name =
      (expected? history name).or (operation.adds? name) := by
  simp [expected?, List.findSome?_append, Option.or_assoc]

theorem perform_add (table : SymbolTable) (name : Bytes) (value : Word) :
    table.perform (.add name value) =
      (.added (!table.contains name), table.bind name value) := by
  rw [perform, add_eq]

section Reflects

variable {history : List Operation} {given : List Answer} {table : SymbolTable}

theorem Reflects.contains_iff (reflects : table.Reflects history given) (name : Bytes) :
    table.contains name = true ↔ ∃ value, expected? history name = some value := by
  rw [contains_eq_isSome_get?, reflects.value, Option.isSome_iff_exists]

/-- A call that asks for something leaves the table as it is. -/
theorem Reflects.asked (reflects : table.Reflects history given) {operation : Operation}
    {answer : Answer} (silent : ∀ name, operation.adds? name = none)
    (nothingNew : answer.isNew = false) :
    table.Reflects (history ++ [operation]) (given ++ [answer]) where
  value name := by
    rw [expected?_concat, silent, Option.or_none]
    exact reflects.value name
  size := by
    rw [List.countP_append, List.countP_singleton, nothingNew]
    exact reflects.size

/-- An addition counts if the name is new, and is the first one then. -/
theorem Reflects.added (reflects : table.Reflects history given) (name : Bytes) (value : Word) :
    (table.bind name value).Reflects (history ++ [.add name value])
      (given ++ [.added (!table.contains name)]) where
  value other := by
    rw [get?_bind, reflects.value, reflects.value, expected?_concat, Operation.adds?]
    by_cases same : name = other
    · subst same
      cases expected? history name <;> simp
    · simp [same]
  size := by
    rw [size_bind, reflects.size, List.countP_append, List.countP_singleton, Answer.isNew]
    cases table.contains name with
    | true => rfl
    | false => rfl

/-- Every call keeps the table in agreement with the history. -/
theorem Reflects.perform (reflects : table.Reflects history given) (operation : Operation) :
    (table.perform operation).2.Reflects (history ++ [operation])
      (given ++ [(table.perform operation).1]) := by
  cases operation with
  | add name value =>
      rw [perform_add]
      exact reflects.added name value
  | contains name | lookup name | size | entries => exact reflects.asked (fun _ => rfl) rfl

/-- A table that agrees with the history gives the right answer to the next call. -/
theorem Reflects.isAnswer (reflects : table.Reflects history given) (operation : Operation) :
    IsAnswer history given operation (table.perform operation).1 := by
  cases operation with
  | add name value =>
      rw [perform_add]
      show (!table.contains name) = true ↔ expected? history name = none
      rw [contains_eq_isSome_get?, reflects.value]
      cases expected? history name <;> simp
  | contains name => exact reflects.contains_iff name
  | lookup name =>
      show IsAnswer history given (.lookup name) (.value (table.lookup name))
      rw [lookup]
      cases bound : table.get? name with
      | some value => exact (reflects.value name).symm.trans bound
      | none => exact ⟨(reflects.value name).symm.trans bound, rfl⟩
  | size => exact reflects.size
  | entries =>
      show table.entries.length = 23 + given.countP Answer.isNew
      rw [← reflects.size, length_entries]

end Reflects

/-- From a new table on, the table and the history agree after any number of calls. -/
theorem reflects_behind (history : List Operation) :
    (initial.behind history).Reflects history (initial.answers history) := by
  induction history using List.reverseRecOn with
  | nil =>
      rw [behind_nil, answers]
      exact reflects_initial
  | append_singleton history operation ih =>
      rw [behind_concat, answers_append, answers_cons, answers]
      exact ih.perform operation

/-- The first binding of a name wins, over any sequence of calls. Whatever a new table was asked
and told before, and whatever comes later, the answer to a call is the right one: a name has its
fixed value or else the value that it was first added with, a failed look-up carries the name,
a name is reported as new exactly if it had no value, and the table is as large as the fixed
names and the names it has reported as new. At any time a name is contained exactly if it can be
looked up, and the table is as large as its list of entries. -/
theorem isAnswer_of_calls (history : List Operation) (operation : Operation)
    (later : List Operation) :
    (∃ answer rest,
      initial.answers (history ++ operation :: later) =
        initial.answers history ++ answer :: rest ∧
      rest.length = later.length ∧
      IsAnswer history (initial.answers history) operation answer) ∧
    (∀ name, (initial.behind history).contains name = true ↔
      ∃ value, (initial.behind history).lookup name = .ok value) ∧
    (initial.behind history).size = (initial.behind history).entries.length := by
  have reflects := reflects_behind history
  refine ⟨?_, contains_iff_lookup _, (length_entries _).symm⟩
  refine ⟨((initial.behind history).perform operation).1,
    ((initial.behind history).perform operation).2.answers later, ?_, length_answers _ later,
    reflects.isAnswer operation⟩
  rw [answers_append, answers_cons]

end SymbolTable

end HackAssembler
