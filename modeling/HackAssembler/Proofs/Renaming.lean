/-
# Names do not matter

The symbols that a program introduces can be exchanged for others. As long as different
symbols stay different, and the reserved names are neither exchanged nor taken, the same
machine code comes out, the same number of variables is placed, and each new symbol stands
for what the old one did. No spelling of a symbol has any influence on an address.
-/

import Mathlib.Logic.Embedding.Basic
import HackAssembler.Proofs.Lines
import HackAssembler.Proofs.Mirroring
import HackAssembler.Proofs.Symbols

namespace HackAssembler

/-- A name that a program can introduce: a symbol that is not reserved. -/
def IsUserSymbol (name : Bytes) : Prop :=
  Line.isSymbol name = true ∧ ∀ entry ∈ SymbolTable.reserved, entry.name ≠ name

instance (name : Bytes) : Decidable (IsUserSymbol name) := inferInstanceAs (Decidable (_ ∧ _))

/-- The names that a program can introduce. -/
abbrev UserSymbol := { name : Bytes // IsUserSymbol name }

theorem IsUserSymbol.isSymbolic {name : Bytes} (user : IsUserSymbol name) :
    Line.isSymbolic name = true := by
  obtain ⟨symbol, -⟩ := user
  cases name with
  | nil => cases symbol
  | cons b rest => exact (Bool.and_eq_true_iff.1 symbol).1

/-- Nothing is known about a name that a program can introduce before it is introduced. -/
theorem IsUserSymbol.get?_initial {name : Bytes} (user : IsUserSymbol name) :
    SymbolTable.initial.get? name = none := by
  have absent : SymbolTable.reserved.find? (·.name == name) = none := by
    rw [List.find?_eq_none]
    intro entry member same
    exact user.2 entry member (eq_of_beq same)
  rw [SymbolTable.get?_initial, absent, Option.map_none]

namespace Renaming

/-- The exchange of all symbols that a program can introduce. All other texts, the reserved
names among them, are left as they are. -/
def ofEmbedding (f : UserSymbol ↪ UserSymbol) : Renaming where
  rename name := if user : IsUserSymbol name then (f ⟨name, user⟩).val else name
  injective := by
    intro name name' same
    by_cases user : IsUserSymbol name
    · by_cases user' : IsUserSymbol name'
      · simp only [user, user', dif_pos] at same
        exact congrArg Subtype.val (f.injective (Subtype.ext same))
      · simp only [user, user', dif_pos, dif_neg, not_false_iff] at same
        exact absurd (same ▸ (f ⟨name, user⟩).property) user'
    · by_cases user' : IsUserSymbol name'
      · simp only [user, user', dif_pos, dif_neg, not_false_iff] at same
        exact absurd (same ▸ (f ⟨name', user'⟩).property) user
      · simpa only [user, user', dif_neg, not_false_iff] using same
  constant := by
    intro text constant
    have other : ¬ IsUserSymbol text := fun user => by
      rw [user.isSymbolic] at constant
      cases constant
    rw [dif_neg other]

variable (f : UserSymbol ↪ UserSymbol)

theorem ofEmbedding_apply (symbol : UserSymbol) : ofEmbedding f symbol.val = (f symbol).val :=
  dif_pos symbol.property

theorem ofEmbedding_of_not {name : Bytes} (other : ¬ IsUserSymbol name) :
    ofEmbedding f name = name :=
  dif_neg other

theorem isSymbol_ofEmbedding {name : Bytes} (symbol : Line.isSymbol name = true) :
    Line.isSymbol (ofEmbedding f name) = true := by
  by_cases user : IsUserSymbol name
  · rw [ofEmbedding_apply f ⟨name, user⟩]
    exact (f ⟨name, user⟩).property.1
  · rw [ofEmbedding_of_not f user]
    exact symbol

/-- A new session knows nothing about exchanged symbols, before or after the exchange. -/
theorem get?_initial_ofEmbedding (name : Bytes) :
    SymbolTable.initial.get? (ofEmbedding f name) = SymbolTable.initial.get? name := by
  by_cases user : IsUserSymbol name
  · rw [ofEmbedding_apply f ⟨name, user⟩, (f ⟨name, user⟩).property.get?_initial,
      user.get?_initial]
  · rw [ofEmbedding_of_not f user]

end Renaming

/-! ## Renamed texts -/

/-- A stripped line with its symbol exchanged, if it has one. -/
def Line.renamed (ρ : Renaming) (stripped : Bytes) : Bytes :=
  match Command.ofStripped stripped with
  | .address operand trailer => Byte.atSign :: (ρ operand ++ trailer)
  | .label name trailer => Byte.openParen :: (ρ name ++ Byte.closeParen :: trailer)
  | .skip | .compute .. | .malformed _ => stripped

/-- The second text is the first one with the symbols of its address commands and labels
exchanged. Blanks and terminators may differ. -/
def RenamedText (f : UserSymbol ↪ UserSymbol) (text text' : Bytes) : Prop :=
  List.Forall₂
    (fun line line' =>
      Line.strip line' = Line.renamed (Renaming.ofEmbedding f) (Line.strip line))
    (Line.split text) (Line.split text')

namespace Command

theorem operandFault?_of_isSymbol {name : Bytes} (symbol : Line.isSymbol name = true) :
    operandFault? name = none := by
  cases name with
  | nil => cases symbol
  | cons b rest =>
      have noDigit : ¬ Byte.isDigit b = true := fun digit => by
        rw [Line.isSymbol, Byte.isSymbolStart_eq_false_of_isDigit digit] at symbol
        cases symbol
      rw [operandFault?, if_neg noDigit, if_pos symbol]

theorem operandFault?_ofEmbedding (f : UserSymbol ↪ UserSymbol) {operand : Bytes}
    (proper : operandFault? operand = none) :
    operandFault? (Renaming.ofEmbedding f operand) = none := by
  by_cases user : IsUserSymbol operand
  · exact operandFault?_of_isSymbol (Renaming.isSymbol_ofEmbedding f user.1)
  · rw [Renaming.ofEmbedding_of_not f user]
    exact proper

/-- A line with its symbol exchanged says the same. -/
theorem echoes_renamed (f : UserSymbol ↪ UserSymbol) (stripped : Bytes) :
    Echoes (Renaming.ofEmbedding f) (ofStripped stripped)
      (ofStripped (Line.renamed (Renaming.ofEmbedding f) stripped)) := by
  rw [Line.renamed]
  cases read : ofStripped stripped with
  | address operand trailer =>
      obtain ⟨-, proper, comment⟩ := ofStripped_eq_address_iff.1 read
      rw [ofStripped_eq_address_iff.2 ⟨rfl, operandFault?_ofEmbedding f proper, comment⟩]
      exact .address
  | label name trailer =>
      obtain ⟨-, symbol, comment⟩ := ofStripped_eq_label_iff.1 read
      rw [ofStripped_eq_label_iff.2 ⟨rfl, Renaming.isSymbol_ofEmbedding f symbol, comment⟩]
      exact .label
  | skip =>
      rw [read]
      exact .skip
  | compute text trailer =>
      rw [read]
      exact .compute rfl
  | malformed reason =>
      rw [read]
      exact .malformed

end Command

/-- A text with its symbols exchanged says the same. -/
theorem RenamedText.aligned {f : UserSymbol ↪ UserSymbol} {text text' : Bytes}
    (renamed : RenamedText f text text') :
    Aligned (Renaming.ofEmbedding f) (Line.split text) (Line.split text') := by
  rw [RenamedText] at renamed
  generalize Line.split text = lines, Line.split text' = lines' at renamed ⊢
  induction renamed with
  | nil => exact .nil
  | @cons line line' lines lines' head tail ih =>
      refine .both ?_ ih
      rw [Command.ofLine, Command.ofLine, Statement.ofLine, Statement.ofLine, head]
      exact Command.echoes_renamed f (Line.strip line)

/-! ## Every text can be renamed -/

namespace Line

/-- An exchange of symbols brings no other bytes into a line than those of symbols. -/
theorem forall_mem_renamed (f : UserSymbol ↪ UserSymbol) {P : UInt8 → Prop} {stripped : Bytes}
    (here : ∀ b ∈ stripped, P b) (symbols : ∀ b, Byte.isSymbolChar b = true → P b) :
    ∀ b ∈ renamed (Renaming.ofEmbedding f) stripped, P b := by
  have renamedHere {name : Bytes} (here : ∀ b ∈ name, P b) :
      ∀ b ∈ Renaming.ofEmbedding f name, P b := by
    by_cases user : IsUserSymbol name
    · intro b member
      exact symbols b (isSymbolChar_of_isSymbol (Renaming.isSymbol_ofEmbedding f user.1) member)
    · rw [Renaming.ofEmbedding_of_not f user]
      exact here
  rw [renamed]
  split
  · next operand trailer read =>
      obtain ⟨rfl, -, -⟩ := Command.ofStripped_eq_address_iff.1 read
      simp only [List.forall_mem_cons, List.forall_mem_append] at here ⊢
      exact ⟨here.1, renamedHere here.2.1, here.2.2⟩
  · next name trailer read =>
      obtain ⟨rfl, -, -⟩ := Command.ofStripped_eq_label_iff.1 read
      simp only [List.forall_mem_cons, List.forall_mem_append] at here ⊢
      exact ⟨here.1, renamedHere here.2.1, here.2.2⟩
  all_goals exact here

theorem plain_renamed (f : UserSymbol ↪ UserSymbol) {content : Bytes}
    (noFeed : Byte.lineFeed ∉ content) :
    ∀ b ∈ renamed (Renaming.ofEmbedding f) (strip content),
      isBlank b = false ∧ b ≠ Byte.lineFeed := by
  apply forall_mem_renamed
  · intro b member
    exact ⟨isBlank_of_mem_strip member, fun feed => noFeed (feed ▸ mem_of_mem_strip member)⟩
  · have plain : ∀ n : Fin 256, Byte.isSymbolChar (.ofFin n) = true →
        isBlank (.ofFin n) = false ∧ UInt8.ofFin n ≠ Byte.lineFeed := by
      decide +kernel
    exact fun b => plain b.toFin

/-- A blank keeps what stands before it from being taken for a terminator. -/
theorem strip_concat_space {content : Bytes} (noBlank : ∀ b ∈ content, isBlank b = false) :
    strip (content ++ [Byte.space]) = content := by
  have kept : dropTerminator (content ++ [Byte.space]) = content ++ [Byte.space] := by
    apply dropTerminator_eq_self
    intro b last
    rw [List.getLast?_concat] at last
    cases last
    rfl
  have noBlank : ∀ b ∈ content, (!isBlank b) = true := by simpa using noBlank
  rw [strip, kept, List.filter_append, List.filter_eq_self.2 noBlank]
  simp [isBlank]

end Line

/-- Every text can be renamed. -/
theorem exists_renamedText (f : UserSymbol ↪ UserSymbol) (text : Bytes) :
    ∃ text', RenamedText f text text' := by
  induction text using Line.text_induction with
  | last content noFeed =>
      by_cases empty : content = []
      · exact ⟨[], by simp [RenamedText, Line.split, empty]⟩
      · have plain := Line.plain_renamed f noFeed
        refine ⟨Line.renamed (Renaming.ofEmbedding f) (Line.strip content) ++ [Byte.space], ?_⟩
        rw [RenamedText, Line.split_of_open noFeed empty,
          Line.split_concat fun feed => (plain _ feed).2 rfl]
        exact .cons (Line.strip_concat_space fun b member => (plain b member).1) .nil
  | line content rest noFeed ih =>
      obtain ⟨rest', renamed⟩ := ih
      have plain := Line.plain_renamed f noFeed
      have noFeed' : Byte.lineFeed ∉
          Line.renamed (Renaming.ofEmbedding f) (Line.strip content) ++ [Byte.space] :=
        List.not_mem_append (fun feed => (plain _ feed).2 rfl) (by decide)
      have proper : ∀ b ∈ [Byte.lineFeed], Line.isTerminator b = true :=
        List.forall_mem_singleton.2 rfl
      refine ⟨Line.renamed (Renaming.ofEmbedding f) (Line.strip content) ++ [Byte.space] ++
        Byte.lineFeed :: rest', ?_⟩
      rw [RenamedText, Line.split_cons noFeed, Line.split_cons noFeed']
      refine .cons ?_ renamed
      rw [Line.strip_append proper, Line.strip_append proper,
        Line.strip_concat_space fun b member => (plain b member).1]

/-! ## Runs -/

namespace Session

/-- The sessions give the same values to symbols that are exchanged for each other, and have
come to the same variable. -/
def Exchanged (f : UserSymbol ↪ UserSymbol) (session session' : Session) : Prop :=
  session'.nextVariable = session.nextVariable ∧
    ∀ symbol : UserSymbol,
      session'.table.get? (f symbol).val = session.table.get? symbol.val

theorem Mirrors.exchanged {f : UserSymbol ↪ UserSymbol} {settings : Config}
    {session session' : Session}
    (mirrors : Mirrors (Renaming.ofEmbedding f) settings session session') :
    Exchanged f session session' := by
  refine ⟨mirrors.nextVariable, fun symbol => ?_⟩
  rw [← Renaming.ofEmbedding_apply]
  exact mirrors.table symbol.val

theorem mirrors_new (f : UserSymbol ↪ UserSymbol) (config : Config) :
    Mirrors (Renaming.ofEmbedding f) config.withDefaults (new config) (new config) where
  config := rfl
  config' := rfl
  nextVariable := rfl
  instructions := rfl
  table := Renaming.get?_initial_ofEmbedding f
  references := rfl
  listing := rfl

/-- Every text can be renamed, and however that is done, the same is written, or both runs
fail, and in the end each new symbol stands for what the old one does. -/
theorem matches_assemble_of_renamed (f : UserSymbol ↪ UserSymbol) (text : Bytes) :
    (∃ text', RenamedText f text text') ∧
      ∀ text', RenamedText f text text' → ∀ config : Config,
        (∀ line ∈ Line.split text, config.withDefaults.Admits line) →
        (∀ line ∈ Line.split text', config.withDefaults.Admits line) → ∀ sink canceled,
          Matches (Exchanged f) (fun _ _ => Exchanged f)
            (assemble { content := text } sink canceled (new config))
            (assemble { content := text' } sink canceled (new config)) := by
  refine ⟨exists_renamedText f text, ?_⟩
  intro text' renamed config short short' sink canceled
  have mirrors := mirrors_new f config
  refine (matches_assemble renamed.aligned short short' mirrors sink canceled).mono ?_ ?_
  · intro reached reached' mirrors
    exact mirrors.exchanged
  · rintro failure failure' reached reached' ⟨-, mirrors⟩
    exact mirrors.exchanged

/-- The exchange that puts a dot before every symbol. -/
def dotted : UserSymbol ↪ UserSymbol where
  toFun symbol := ⟨Byte.dot :: symbol.val, by
    obtain ⟨name, symbol, -⟩ := symbol
    have other : ∀ entry ∈ SymbolTable.reserved, entry.name.head? ≠ some Byte.dot := by decide
    refine ⟨?_, fun entry member same => other entry member (by rw [same]; rfl)⟩
    have dot : Byte.isSymbolStart Byte.dot = true := by decide
    rw [Line.isSymbol, Line.isSymbolTail, dot, Bool.true_and, List.all_eq_true]
    exact fun b => Line.isSymbolChar_of_isSymbol symbol⟩
  inj' _ _ same := Subtype.ext (List.cons.inj (congrArg Subtype.val same)).2

/-- A variable, a label and a reserved name, of which the last one stays. -/
theorem matches_assemble_of_renamed_dotted :
    RenamedText dotted (ascii "@i//n\n(END)\n@SP\n@END\n0;JMP\n")
        (ascii "@ .i //n\r\n(.END)\n@SP\n@.END\n0;JMP") ∧
      Matches (Exchanged dotted) (fun _ _ => Exchanged dotted)
        (assemble { content := ascii "@i//n\n(END)\n@SP\n@END\n0;JMP\n" } {} false
          (new .default))
        (assemble { content := ascii "@ .i //n\r\n(.END)\n@SP\n@.END\n0;JMP" } {} false
          (new .default)) := by
  have renamed : RenamedText dotted (ascii "@i//n\n(END)\n@SP\n@END\n0;JMP\n")
      (ascii "@ .i //n\r\n(.END)\n@SP\n@.END\n0;JMP") := by
    unfold RenamedText
    decide +kernel
  exact ⟨renamed, (matches_assemble_of_renamed dotted _).2 _ renamed .default (by decide +kernel)
    (by decide +kernel) {} false⟩

end Session

end HackAssembler
