/-
# Lines, put together and read

A text is taken apart one line at a time. This module says what the first line of a text
is and what is left of a line without its terminator, so that a text that is put together
from lines is known to fall apart into the same lines again. It also says which lines are
read as an address command or as a label, and that such a line is put together from what
is read in it.
-/

import Mathlib.Data.List.Induction
import Mathlib.Data.List.SplitBy
import HackAssembler.Proofs.Program
import HackAssembler.Proofs.Computation

namespace HackAssembler

namespace Line

variable {content : Bytes}

/-! ## Lines of a text -/

/-- Bytes without a line feed are one line along with the byte behind them. -/
theorem split_concat (noFeed : Byte.lineFeed ∉ content) (b : UInt8) :
    split (content ++ [b]) = [content ++ [b]] := by
  apply List.splitBy_of_isChain (by simp)
  rw [List.isChain_iff_getElem]
  intro i bound
  have inside : i < content.length := by
    rw [List.length_append, List.length_singleton] at bound
    omega
  rw [List.getElem_append_left inside, bne_iff_ne]
  exact fun feed => noFeed (feed ▸ List.getElem_mem inside)

/-- A text without a line feed is one line, unless it is empty. -/
theorem split_of_open (noFeed : Byte.lineFeed ∉ content) (nonempty : content ≠ []) :
    split content = [content] := by
  rw [← List.dropLast_concat_getLast nonempty]
  exact split_concat (fun feed => noFeed (List.dropLast_subset content feed)) _

/-- The first line of a text goes up to the first line feed. -/
theorem split_cons (noFeed : Byte.lineFeed ∉ content) (rest : Bytes) :
    split (content ++ Byte.lineFeed :: rest) = (content ++ [Byte.lineFeed]) :: split rest := by
  have closed : ∀ x ∈ (content ++ [Byte.lineFeed]).getLast?, ∀ y ∈ rest.head?,
      (x != Byte.lineFeed) = false := by
    simp
  rw [List.append_cons, split, List.splitBy_append closed]
  exact congrArg (· ++ split rest) (split_concat noFeed Byte.lineFeed)

/-- No byte of a text is lost. -/
theorem flatten_split (text : Bytes) : (split text).flatten = text := List.flatten_splitBy _ text

/-- The next line behind this text is a line of its own: there is no line that is open. -/
def IsClosed (text : Bytes) : Prop := text = [] ∨ text.getLast? = some Byte.lineFeed

instance (text : Bytes) : Decidable (IsClosed text) := inferInstanceAs (Decidable (_ ∨ _))

/-- Behind a closed text the lines are those of what follows. -/
theorem split_append {text : Bytes} (closed : IsClosed text) (rest : Bytes) :
    split (text ++ rest) = split text ++ split rest := by
  apply List.splitBy_append
  intro b last _ _
  obtain rfl | ends := closed
  · cases last
  · rw [ends] at last
    cases last
    rfl

/-- The text of lines, each with a line feed. -/
def join (contents : List Bytes) : Bytes :=
  contents.flatMap fun content => content ++ [Byte.lineFeed]

theorem split_join {contents : List Bytes}
    (noFeed : ∀ content ∈ contents, Byte.lineFeed ∉ content) :
    split (join contents) = contents.map fun content => content ++ [Byte.lineFeed] := by
  induction contents with
  | nil => rfl
  | cons content contents ih =>
      rw [List.forall_mem_cons] at noFeed
      rw [join, List.flatMap_cons, List.append_assoc, List.singleton_append,
        split_cons noFeed.1, ← join, ih noFeed.2, List.map_cons]

/-- What is shown for a text without a line feed, and for a line before any text it is shown
for, is shown for every text. -/
theorem text_induction {P : Bytes → Prop} (last : ∀ content, Byte.lineFeed ∉ content → P content)
    (line : ∀ content rest, Byte.lineFeed ∉ content → P rest →
      P (content ++ Byte.lineFeed :: rest)) (text : Bytes) : P text := by
  induction length : text.length using Nat.strongRecOn generalizing text with
  | ind n ih =>
      by_cases feed : Byte.lineFeed ∈ text
      · obtain ⟨content, rest, rfl, noFeed⟩ := List.eq_append_cons_of_mem feed
        apply line content rest noFeed
        apply ih rest.length _ rest rfl
        rw [← length, List.length_append, List.length_cons]
        omega
      · exact last text feed

/-- A line feed stands nowhere but at the end of the line. -/
def IsSingle (line : Bytes) : Prop := Byte.lineFeed ∉ line.dropLast

instance (line : Bytes) : Decidable (IsSingle line) := inferInstanceAs (Decidable (¬ _))

/-- The lines that a text is split into hold one line each. -/
theorem isSingle_of_mem_split {text line : Bytes} (member : line ∈ split text) :
    IsSingle line := by
  induction text using text_induction with
  | last content noFeed =>
      by_cases empty : content = []
      · subst empty
        cases member
      · rw [split_of_open noFeed empty, List.mem_singleton] at member
        subst member
        exact fun feed => noFeed (List.dropLast_subset line feed)
  | line content rest noFeed ih =>
      rw [split_cons noFeed, List.mem_cons] at member
      obtain rfl | later := member
      · rw [IsSingle, List.dropLast_concat]
        exact noFeed
      · exact ih later

/-- A single line is split into nothing but itself. -/
theorem split_of_isSingle {line : Bytes} (single : IsSingle line) (nonempty : line ≠ []) :
    split line = [line] := by
  rw [← List.dropLast_concat_getLast nonempty]
  exact split_concat single _

/-! ## Terminators -/

theorem dropTerminator_append {terminator : Bytes}
    (proper : ∀ b ∈ terminator, isTerminator b = true) (content : Bytes) :
    dropTerminator (content ++ terminator) = dropTerminator content := by
  rw [dropTerminator, List.reverse_append, List.dropWhile_append_of_pos, dropTerminator]
  simpa using proper

theorem dropTerminator_eq_self (bare : ∀ b ∈ content.getLast?, isTerminator b = false) :
    dropTerminator content = content := by
  cases content using List.reverseRecOn with
  | nil => rfl
  | append_singleton front b =>
      have kept : isTerminator b = false := bare b (by simp)
      simp [dropTerminator, kept]

/-- A line is what is left without its terminator, and the terminator. -/
theorem exists_terminator (line : Bytes) :
    ∃ terminator, line = dropTerminator line ++ terminator ∧
      ∀ b ∈ terminator, isTerminator b = true := by
  refine ⟨(line.reverse.takeWhile isTerminator).reverse, ?_, ?_⟩
  · rw [dropTerminator, ← List.reverse_append, List.takeWhile_append_dropWhile,
      List.reverse_reverse]
  · intro b member
    exact List.mem_takeWhile_imp (List.mem_reverse.1 member)

/-- Stripping a line brings no byte into it. -/
theorem mem_of_mem_strip {line : Bytes} {b : UInt8} (member : b ∈ strip line) : b ∈ line := by
  have left : b ∈ dropTerminator line := (List.mem_filter.1 member).1
  rw [dropTerminator, List.mem_reverse] at left
  exact List.mem_reverse.1 ((List.dropWhile_sublist _).subset left)

theorem strip_append {terminator : Bytes} (proper : ∀ b ∈ terminator, isTerminator b = true)
    (line : Bytes) : strip (line ++ terminator) = strip line := by
  rw [strip, dropTerminator_append proper, strip]

/-- Nothing is left of a line feed when a line is stripped. -/
theorem lineFeed_not_mem_strip {line : Bytes} (single : IsSingle line) :
    Byte.lineFeed ∉ strip line := by
  intro member
  cases line using List.reverseRecOn with
  | nil => cases member
  | append_singleton front b =>
      rw [IsSingle, List.dropLast_concat] at single
      by_cases ends : isTerminator b = true
      · rw [strip_append (List.forall_mem_singleton.2 ends)] at member
        exact single (mem_of_mem_strip member)
      · obtain before | last := List.mem_append.1 (mem_of_mem_strip member)
        · exact single before
        · rw [← List.mem_singleton.1 last] at ends
          exact ends rfl

/-! ## Comments -/

/-- Behind a line there is nothing or a comment. -/
theorem isTail_cases {tail : Bytes} (proper : isTail tail = true) :
    tail = [] ∨ ∃ remark, tail = Byte.slash :: Byte.slash :: remark := by
  rw [isTail, Bool.or_eq_true, List.isEmpty_iff, List.isPrefixOf_iff_prefix] at proper
  exact proper.imp_right fun ⟨remark, whole⟩ => ⟨remark, whole.symm⟩

theorem isTail_cons_of_ne {b : UInt8} (other : b ≠ Byte.slash) (rest : Bytes) :
    isTail (b :: rest) = false := by
  simp [isTail, List.isPrefixOf, other.symm]

section Tail

variable {front tail : Bytes} (noSlash : Byte.slash ∉ front) (proper : isTail tail = true)

include noSlash

theorem forall_ne_slash (b : UInt8) (member : b ∈ front) : (b != Byte.slash) = true :=
  bne_iff_ne.2 fun same => noSlash (same ▸ member)

theorem meaning_eq_self : meaning front = front :=
  List.takeWhile_eq_self_iff.2 (forall_ne_slash noSlash)

theorem trailer_eq_nil : trailer front = [] :=
  List.dropWhile_eq_nil_iff.2 (forall_ne_slash noSlash)

include proper

theorem meaning_append : meaning (front ++ tail) = front := by
  rw [meaning, List.takeWhile_append_of_pos (forall_ne_slash noSlash)]
  obtain rfl | ⟨remark, rfl⟩ := isTail_cases proper <;> simp

theorem trailer_append : trailer (front ++ tail) = tail := by
  rw [trailer, List.dropWhile_append_of_pos (forall_ne_slash noSlash)]
  obtain rfl | ⟨remark, rfl⟩ := isTail_cases proper <;> simp

end Tail

theorem slash_not_mem_meaning (line : Bytes) : Byte.slash ∉ meaning line := fun member => by
  simpa using List.mem_takeWhile_imp member

/-- All bytes of a symbol are symbol characters. -/
theorem isSymbolChar_of_isSymbol {name : Bytes} (symbol : isSymbol name = true) {b : UInt8}
    (member : b ∈ name) : Byte.isSymbolChar b = true := by
  cases name with
  | nil => cases member
  | cons first rest =>
      rw [isSymbol, isSymbolTail, Bool.and_eq_true, List.all_eq_true] at symbol
      obtain rfl | member := List.mem_cons.1 member
      · rw [Byte.isSymbolChar, symbol.1, Bool.true_or]
      · exact symbol.2 b member

end Line

/-- The lines of a source hold one line each, whether or not a fault stands at its end. -/
theorem Source.isSingle_of_mem_lines {source : Source} {line : Bytes}
    (member : line ∈ source.lines) : Line.IsSingle line := by
  rw [lines] at member
  split at member
  · exact Line.isSingle_of_mem_split member
  · exact Line.isSingle_of_mem_split (List.mem_of_mem_filter member)

namespace Command

open Line

theorem slash_not_mem_of_operandFault? {operand : Bytes} (proper : operandFault? operand = none) :
    Byte.slash ∉ operand := by
  intro member
  cases operand with
  | nil => cases proper
  | cons b rest =>
      rw [operandFault?] at proper
      split at proper
      · next digit =>
          split at proper
          · next digits =>
              have all : ∀ c ∈ b :: rest, Byte.isDigit c = true := by
                simpa [digit] using digits
              exact absurd (all _ member) (by decide)
          · cases proper
      · split at proper
        · next symbol => exact absurd (isSymbolChar_of_isSymbol symbol member) (by decide)
        · cases proper

/-- Which lines are address commands. -/
theorem ofStripped_eq_address_iff {stripped operand tail : Bytes} :
    ofStripped stripped = .address operand tail ↔
      stripped = Byte.atSign :: (operand ++ tail) ∧ operandFault? operand = none ∧
        isTail tail = true := by
  constructor
  · intro read
    rw [ofStripped.eq_def] at read
    split at read
    · cases read
    · split at read <;> cases read
    · next body =>
        have proper := operandFault?_of_ofAddress read
        rw [ofAddress] at read
        split at read
        · cases read
        · split at read
          · next comment =>
              cases read
              rw [meaning_append_trailer]
              exact ⟨rfl, proper, comment⟩
          · cases read
    · rw [ofLabel] at read
      split at read
      · repeat' split at read
        all_goals cases read
      · cases read
    · split at read <;> cases read
  · rintro ⟨rfl, proper, comment⟩
    have noSlash := slash_not_mem_of_operandFault? proper
    show ofAddress (operand ++ tail) = _
    rw [ofAddress, meaning_append noSlash comment, trailer_append noSlash comment, proper]
    exact if_pos comment

/-- Which lines are labels. -/
theorem ofStripped_eq_label_iff {stripped name tail : Bytes} :
    ofStripped stripped = .label name tail ↔
      stripped = Byte.openParen :: (name ++ Byte.closeParen :: tail) ∧ isSymbol name = true ∧
        isTail tail = true := by
  constructor
  · intro read
    rw [ofStripped.eq_def] at read
    split at read
    · cases read
    · split at read <;> cases read
    · rw [ofAddress] at read
      split at read
      · cases read
      · split at read <;> cases read
    · next body =>
        rw [ofLabel] at read
        obtain ⟨left, right, -, rfl, cut⟩ | ⟨-, cut⟩ := cutAt_cases Byte.closeParen body
        · rw [cut] at read
          simp only [Bool.not_eq_true'] at read
          split at read
          · cases read
          · split at read
            · cases read
            · next symbol =>
                split at read
                · cases read
                · next comment =>
                    cases read
                    exact ⟨rfl, by simpa using symbol, by simpa using comment⟩
        · rw [cut] at read
          cases read
    · split at read <;> cases read
  · rintro ⟨rfl, symbol, comment⟩
    have noParen : Byte.closeParen ∉ name := fun member =>
      absurd (isSymbolChar_of_isSymbol symbol member) (by decide)
    have noSlash : Byte.slash ∉ name := fun member =>
      absurd (isSymbolChar_of_isSymbol symbol member) (by decide)
    show ofLabel (name ++ Byte.closeParen :: tail) = _
    rw [ofLabel, cutAt_of_mem noParen]
    simp [noSlash, symbol, comment]

/-- A line that starts with none of the marks is a computation, or malformed. -/
theorem ofStripped_of_plain {b : UInt8} (noSlash : b ≠ Byte.slash) (noAt : b ≠ Byte.atSign)
    (noParen : b ≠ Byte.openParen) (rest : Bytes) :
    ofStripped (b :: rest) =
      if startsCompute b then .compute (meaning (b :: rest)) (Line.trailer (b :: rest))
      else .malformed (.character b) := by
  rw [ofStripped.eq_def]
  split
  · next empty => cases empty
  · next opens => exact absurd (List.cons.inj opens).1 noSlash
  · next opens => exact absurd (List.cons.inj opens).1 noAt
  · next opens => exact absurd (List.cons.inj opens).1 noParen
  · next whole =>
      cases whole
      rfl

end Command

end HackAssembler
