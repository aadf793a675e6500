/-
# The symbol table

A finite map from names to machine words in which a name, once bound, keeps its value.
A fresh table holds the reserved names. The table is determined by its bindings alone,
so two tables that answer every look-up alike are equal, and the sorted view is a
function of the bindings.
-/

import Std.Data.ExtTreeMap
import HackAssembler.Bytes
import HackAssembler.Text.Decimal
import HackAssembler.Text.Quoted
import HackAssembler.Word

namespace HackAssembler

/-- A name with the value it is bound to. -/
structure SymbolEntry where
  name : Bytes
  value : Word
  deriving Repr, DecidableEq

namespace SymbolEntry

/-- An entry as text: the name, an equals sign, the value in decimal. -/
def render (entry : SymbolEntry) : Bytes :=
  entry.name ++ [Byte.equals] ++ Decimal.ofNat entry.value.toNat

/-- Entries are ordered by value, and by the bytes of the name among equal values. -/
def le (left right : SymbolEntry) : Bool :=
  left.value.toNat < right.value.toNat ||
    (left.value == right.value && (compare left.name right.name).isLE)

end SymbolEntry

/-- A look-up of a name that is not bound. -/
structure UnknownSymbol where
  name : Bytes
  deriving Repr, DecidableEq

/-- The text of a failed look-up. -/
def UnknownSymbol.message (unknown : UnknownSymbol) : Bytes :=
  ascii "unknown symbol " ++ Quoted.ofBytes unknown.name

/-- Names bound to words. -/
structure SymbolTable where
  bindings : Std.ExtTreeMap Bytes Word compare

namespace SymbolTable

/-- The table without any name. -/
def empty : SymbolTable := ⟨∅⟩

/-- The value of a name, if it is bound. -/
def get? (table : SymbolTable) (name : Bytes) : Option Word := table.bindings[name]?

/-- The value of a name, or the complaint that it has none. -/
def lookup (table : SymbolTable) (name : Bytes) : Except UnknownSymbol Word :=
  match table.get? name with
  | some value => .ok value
  | none => .error ⟨name⟩

/-- Whether a name is bound. -/
def contains (table : SymbolTable) (name : Bytes) : Bool := table.bindings.contains name

/-- Bind a name, unless it is bound already. -/
def bind (table : SymbolTable) (name : Bytes) (value : Word) : SymbolTable :=
  ⟨table.bindings.insertIfNew name value⟩

/-- Bind a name, unless it is bound already, and tell whether it was free. -/
def add (table : SymbolTable) (name : Bytes) (value : Word) : Bool × SymbolTable :=
  match table.bindings.containsThenInsertIfNew name value with
  | (bound, bindings) => (!bound, ⟨bindings⟩)

/-- The number of bound names. -/
def size (table : SymbolTable) : Nat := table.bindings.size

/-- All entries, ordered by value and then by name. -/
def entries (table : SymbolTable) : List SymbolEntry :=
  (table.bindings.toList.map fun binding => ⟨binding.1, binding.2⟩).mergeSort SymbolEntry.le

/-- The names of the memory regions. -/
def regions : List SymbolEntry :=
  [⟨ascii "SP", 0⟩, ⟨ascii "LCL", 1⟩, ⟨ascii "ARG", 2⟩, ⟨ascii "THIS", 3⟩, ⟨ascii "THAT", 4⟩,
    ⟨ascii "SCREEN", 0x4000⟩, ⟨ascii "KBD", 0x6000⟩]

/-- The names of the sixteen registers. -/
def registers : List SymbolEntry :=
  (List.range 16).map fun i => ⟨ascii "R" ++ Decimal.ofNat i, BitVec.ofNat 16 i⟩

/-- The reserved names. -/
def reserved : List SymbolEntry := regions ++ registers

/-- The table that holds the reserved names and nothing else. -/
def initial : SymbolTable :=
  reserved.foldl (fun table entry => table.bind entry.name entry.value) empty

/-- Tables with the same bindings are equal. -/
theorem ext_get? {left right : SymbolTable} (h : ∀ name, left.get? name = right.get? name) :
    left = right := by
  cases left with
  | mk left =>
    cases right with
    | mk right =>
      congr 1
      exact Std.ExtTreeMap.ext_getElem? h

/-- A name is bound exactly when it has a value. -/
theorem contains_eq_isSome_get? (table : SymbolTable) (name : Bytes) :
    table.contains name = (table.get? name).isSome := by
  simp [contains, get?]

/-- A new binding is seen under its own name, and only if the name was free. -/
theorem get?_bind (table : SymbolTable) (name other : Bytes) (value : Word) :
    (table.bind name value).get? other =
      if name = other ∧ table.get? name = none then some value else table.get? other := by
  simp [bind, get?, Std.ExtTreeMap.getElem?_insertIfNew]

/-- A name is added exactly if it is not bound. -/
theorem add_eq (table : SymbolTable) (name : Bytes) (value : Word) :
    table.add name value = (!table.contains name, table.bind name value) := by
  simp [add, contains, bind]

/-- Binding a name adds one to the size exactly if the name was free. -/
theorem size_bind (table : SymbolTable) (name : Bytes) (value : Word) :
    (table.bind name value).size =
      if table.contains name = true then table.size else table.size + 1 := by
  simp [bind, size, contains, Std.ExtTreeMap.size_insertIfNew]

end SymbolTable

end HackAssembler
