/-
# The text of a computation

Which texts are computations. A computation is written as its destination, an equals
sign, what is computed, a semicolon and its jump, where a destination that stores nowhere
and a jump that is never taken are left out with their separators, but not both at once.
The text is read back as the instruction it was written for, and nothing else is read.
-/

import Mathlib.Data.List.TakeWhile
import HackAssembler.Encoding

namespace HackAssembler

namespace Line

theorem cutAt_of_mem {separator : UInt8} {left right : Bytes} (h : separator ∉ left) :
    cutAt separator (left ++ separator :: right) = (left, some right) := by
  have before : ∀ b ∈ left, (b != separator) = true := by
    intro b member
    have differs : b ≠ separator := fun same => h (same ▸ member)
    simpa using differs
  rw [cutAt, List.takeWhile_append_of_pos before, List.dropWhile_append_of_pos before]
  simp

theorem cutAt_of_not_mem {separator : UInt8} {text : Bytes} (h : separator ∉ text) :
    cutAt separator text = (text, none) := by
  have all : ∀ b ∈ text, (b != separator) = true := by
    intro b member
    have differs : b ≠ separator := fun same => h (same ▸ member)
    simpa using differs
  rw [cutAt, List.takeWhile_eq_self_iff.2 all, List.dropWhile_eq_nil_iff.2 all]
  rfl

/-- A text is cut at the first separator in it, or not at all. -/
theorem cutAt_cases (separator : UInt8) (text : Bytes) :
    (∃ left right, separator ∉ left ∧ text = left ++ separator :: right ∧
        cutAt separator text = (left, some right)) ∨
      (separator ∉ text ∧ cutAt separator text = (text, none)) := by
  by_cases member : separator ∈ text
  · obtain ⟨left, right, rfl, new⟩ := List.eq_append_cons_of_mem member
    exact .inl ⟨left, right, new, rfl, cutAt_of_mem new⟩
  · exact .inr ⟨member, cutAt_of_not_mem member⟩

end Line

/-! ## Fields -/

namespace Fields

/-- The text of fields, with the separators of those that are there. -/
def text (fields : Fields) : Bytes :=
  (match fields.dest with
    | some dest => dest ++ [Byte.equals]
    | none => []) ++ fields.comp ++
  (match fields.jump with
    | some jump => Byte.semicolon :: jump
    | none => [])

/-- Only a text that is made up of fields is cut into them. -/
theorem text_of_ofText {source : Bytes} {fields : Fields} (h : ofText source = .ok fields) :
    source = fields.text ∧ (fields.dest ≠ none ∨ fields.jump ≠ none) := by
  rw [ofText] at h
  obtain ⟨left, right, -, rfl, cut⟩ | ⟨-, cut⟩ := Line.cutAt_cases Byte.semicolon source
  · rw [cut] at h
    obtain ⟨dest, comp, -, rfl, cutLeft⟩ | ⟨-, cutLeft⟩ := Line.cutAt_cases Byte.equals left
    · simp only [cutLeft, Except.ok.injEq] at h
      subst h
      simp [text]
    · simp only [cutLeft] at h
      split at h
      · cases h
      · cases h
        simp [text]
  · rw [cut] at h
    obtain ⟨dest, comp, -, rfl, cutLeft⟩ | ⟨-, cutLeft⟩ := Line.cutAt_cases Byte.equals source
    · simp only [cutLeft, Except.ok.injEq] at h
      subst h
      simp [text]
    · simp only [cutLeft] at h
      cases h

/-- Fields without separators in them are cut out of their text again. -/
theorem ofText_text {fields : Fields} (some_field : fields.dest ≠ none ∨ fields.jump ≠ none)
    (dest_plain : ∀ dest, fields.dest = some dest → Byte.equals ∉ dest ∧ Byte.semicolon ∉ dest)
    (comp_plain : Byte.equals ∉ fields.comp ∧ Byte.semicolon ∉ fields.comp)
    (jump_plain : ∀ jump, fields.jump = some jump → Byte.equals ∉ jump) :
    ofText fields.text = .ok fields := by
  obtain ⟨dest, comp, jump⟩ := fields
  cases dest with
  | some dest =>
      obtain ⟨noEquals, noSemicolon⟩ := dest_plain dest rfl
      have separators : Byte.semicolon ≠ Byte.equals := by decide
      have left : Byte.semicolon ∉ dest ++ Byte.equals :: comp := by
        simp [noSemicolon, comp_plain.2, separators]
      have cutLeft : Line.cutAt Byte.equals (dest ++ Byte.equals :: comp) = (dest, some comp) :=
        Line.cutAt_of_mem noEquals
      cases jump with
      | some jump =>
          have shape : text ⟨some dest, comp, some jump⟩ =
              (dest ++ Byte.equals :: comp) ++ Byte.semicolon :: jump := by simp [text]
          rw [shape, ofText, Line.cutAt_of_mem left]
          simp only [cutLeft]
      | none =>
          have shape : text ⟨some dest, comp, none⟩ = dest ++ Byte.equals :: comp := by
            simp [text]
          rw [shape, ofText, Line.cutAt_of_not_mem left]
          simp only [cutLeft]
  | none =>
      cases jump with
      | none => simp at some_field
      | some jump =>
          have shape : text ⟨none, comp, some jump⟩ = comp ++ Byte.semicolon :: jump := by
            simp [text]
          rw [shape, ofText, Line.cutAt_of_mem comp_plain.2]
          simp only [Line.cutAt_of_not_mem comp_plain.1]
          simp [jump_plain jump rfl]

end Fields

/-! ## Mnemonics -/

theorem Comp.plain_mnemonic (comp : Comp) :
    Byte.equals ∉ comp.mnemonic ∧ Byte.semicolon ∉ comp.mnemonic := by
  cases comp with
  | operand y | notOperand y | negOperand y | incOperand y | decOperand y
  | dataPlus y | dataMinus y | minusData y | dataAnd y | dataOr y => cases y <;> decide
  | _ => decide

theorem Dest.plain_mnemonic (dest : Dest) :
    Byte.equals ∉ dest.mnemonic ∧ Byte.semicolon ∉ dest.mnemonic := by
  obtain ⟨address, data, memory⟩ := dest
  cases address <;> cases data <;> cases memory <;> decide

theorem Jump.equals_not_mem_mnemonic (jump : Jump) : Byte.equals ∉ jump.mnemonic := by
  cases jump <;> decide

/-- The field of a destination; storing nowhere has none. -/
def Dest.field (dest : Dest) : Option Bytes :=
  if dest = Dest.nowhere then none else some dest.mnemonic

/-- The field of a jump; a jump that is never taken has none. -/
def Jump.field (jump : Jump) : Option Bytes :=
  if jump = .never then none else some jump.mnemonic

theorem Dest.ofField_field (dest : Dest) : Dest.ofField dest.field = .ok dest := by
  obtain ⟨address, data, memory⟩ := dest
  cases address <;> cases data <;> cases memory <;> rfl

theorem Dest.eq_field_of_ofField {field : Option Bytes} {dest : Dest}
    (h : Dest.ofField field = .ok dest) : field = dest.field := by
  cases field with
  | none =>
      cases h
      rfl
  | some text =>
      rw [Dest.ofField] at h
      split at h
      · next found read =>
          cases h
          obtain ⟨stores, rfl⟩ := Dest.ofMnemonic?_eq_some_iff.1 read
          simp [Dest.field, stores]
      · cases h

theorem Jump.ofField_field (jump : Jump) : Jump.ofField jump.field = .ok jump := by
  cases jump <;> rfl

theorem Jump.eq_field_of_ofField {field : Option Bytes} {jump : Jump}
    (h : Jump.ofField field = .ok jump) : field = jump.field := by
  cases field with
  | none =>
      cases h
      rfl
  | some text =>
      rw [Jump.ofField] at h
      split at h
      · next found read =>
          cases h
          obtain ⟨taken, rfl⟩ := Jump.ofMnemonic?_eq_some_iff.1 read
          simp [Jump.field, taken]
      · cases h

/-! ## Computations -/

namespace Instruction

/-- The text of a computation. -/
def computeText (comp : Comp) (dest : Dest) (jump : Jump) : Bytes :=
  Fields.text ⟨dest.field, comp.mnemonic, jump.field⟩

/-- A computation is read field by field, from left to right behind the trailer. -/
theorem ofCompute_eq (text trailer : Bytes) :
    ofCompute text trailer =
      if Line.isTail trailer then
        match Fields.ofText text with
        | .error error => .error error
        | .ok fields =>
          match Dest.ofField fields.dest with
          | .error error => .error error
          | .ok dest =>
            match Comp.ofMnemonic? fields.comp with
            | none => .error (.comp text)
            | some comp =>
              match Jump.ofField fields.jump with
              | .error error => .error error
              | .ok jump => .ok (.compute comp dest jump)
      else .error .comment := by
  rw [ofCompute]
  cases Line.isTail trailer with
  | false => rfl
  | true =>
      cases Fields.ofText text with
      | error error => rfl
      | ok fields =>
          cases stored : Dest.ofField fields.dest with
          | error error => simp [bind, Except.bind, stored]
          | ok dest =>
              cases computed : Comp.ofMnemonic? fields.comp with
              | none =>
                  simp only [bind, Except.bind, stored, computed]
                  rfl
              | some comp =>
                  cases jumped : Jump.ofField fields.jump <;>
                    simp [bind, Except.bind, pure, Except.pure, stored, computed, jumped]

theorem field_ne_none_iff {dest : Dest} {jump : Jump} :
    (dest.field ≠ none ∨ jump.field ≠ none) ↔ (dest ≠ Dest.nowhere ∨ jump ≠ .never) := by
  simp [Dest.field, Jump.field]

theorem ofText_computeText {comp : Comp} {dest : Dest} {jump : Jump}
    (storesOrJumps : dest ≠ Dest.nowhere ∨ jump ≠ .never) :
    Fields.ofText (computeText comp dest jump) =
      .ok ⟨dest.field, comp.mnemonic, jump.field⟩ := by
  apply Fields.ofText_text (field_ne_none_iff.2 storesOrJumps) ?_ comp.plain_mnemonic ?_
  · intro field present
    have same : field = dest.mnemonic := by
      by_cases nowhere : dest = Dest.nowhere
      · simp [Dest.field, nowhere] at present
      · simpa [Dest.field, nowhere, eq_comm] using present
    rw [same]
    exact dest.plain_mnemonic
  · intro field present
    have same : field = jump.mnemonic := by
      by_cases never : jump = .never
      · simp [Jump.field, never] at present
      · simpa [Jump.field, never, eq_comm] using present
    rw [same]
    exact jump.equals_not_mem_mnemonic

/-- A computation is accepted exactly if it is the text of an instruction that stores or
jumps, and its trailer is proper. -/
theorem ofCompute_eq_ok_iff {text trailer : Bytes} {instruction : Instruction} :
    ofCompute text trailer = .ok instruction ↔
      Line.isTail trailer = true ∧ ∃ comp dest jump,
        (dest ≠ Dest.nowhere ∨ jump ≠ .never) ∧ text = computeText comp dest jump ∧
          instruction = .compute comp dest jump := by
  rw [ofCompute_eq]
  constructor
  · intro h
    split at h
    · next proper =>
        refine ⟨proper, ?_⟩
        cases cut : Fields.ofText text with
        | error error => simp [cut] at h
        | ok fields =>
            obtain ⟨rfl, someField⟩ := Fields.text_of_ofText cut
            obtain ⟨destField, compField, jumpField⟩ := fields
            simp only [cut] at h
            cases stored : Dest.ofField destField with
            | error error => simp [stored] at h
            | ok dest =>
                cases computed : Comp.ofMnemonic? compField with
                | none => simp [stored, computed] at h
                | some comp =>
                    cases jumped : Jump.ofField jumpField with
                    | error error => simp [stored, computed, jumped] at h
                    | ok jump =>
                        simp only [stored, computed, jumped, Except.ok.injEq] at h
                        rw [Dest.eq_field_of_ofField stored, Jump.eq_field_of_ofField jumped,
                          Comp.ofMnemonic?_eq_some_iff.1 computed] at someField ⊢
                        exact ⟨comp, dest, jump, field_ne_none_iff.1 someField, rfl, h.symm⟩
    · cases h
  · rintro ⟨proper, comp, dest, jump, storesOrJumps, rfl, rfl⟩
    simp [proper, ofText_computeText storesOrJumps, Dest.ofField_field, Jump.ofField_field]

/-- The fields of a computation are read without any table. -/
theorem ofCompute_ne_unknownSymbol {text trailer : Bytes} {unknown : UnknownSymbol} :
    ofCompute text trailer ≠ .error (.unknownSymbol unknown) := by
  have cutting : Fields.ofText text ≠ .error (.unknownSymbol unknown) := by
    rw [Fields.ofText]
    split
    split
    · nofun
    · split <;> nofun
    · nofun
  have storing (field : Option Bytes) : Dest.ofField field ≠ .error (.unknownSymbol unknown) := by
    cases field with
    | none => nofun
    | some text =>
        rw [Dest.ofField]
        split <;> nofun
  have jumping (field : Option Bytes) : Jump.ofField field ≠ .error (.unknownSymbol unknown) := by
    cases field with
    | none => nofun
    | some text =>
        rw [Jump.ofField]
        split <;> nofun
  rw [ofCompute_eq]
  split
  · cases cut : Fields.ofText text with
    | error error =>
        rw [cut] at cutting
        exact fun same => cutting (by injection same with same; rw [same])
    | ok fields =>
        cases stored : Dest.ofField fields.dest with
        | error error =>
            have := storing fields.dest
            rw [stored] at this
            simpa [stored] using this
        | ok dest =>
            cases computed : Comp.ofMnemonic? fields.comp with
            | none => simp [stored, computed]
            | some comp =>
                cases jumped : Jump.ofField fields.jump with
                | error error =>
                    have := jumping fields.jump
                    rw [jumped] at this
                    simpa [stored, computed, jumped] using this
                | ok jump => simp [stored, computed, jumped]
  · nofun

end Instruction

end HackAssembler
