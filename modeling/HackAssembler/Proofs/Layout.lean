/-
# Layout

A text is a list of rows, each of them a content and a terminator. Blanks in the contents,
the spelling of the terminators, comments, and rows without a command are a matter of
layout. This module says what it means for two texts to differ in their layout only, and
shows that the differences do not matter: what is left of a text without its layout is kept
by every edit, and a run depends on nothing else but that.

Runs over such texts count different lines, so the place of a failure is compared by the
lines with a command on them.
-/

import Mathlib.Logic.Relation
import HackAssembler.Proofs.Lines
import HackAssembler.Proofs.Mirroring

namespace HackAssembler

/-! ## Comments -/

namespace Line

/-- A content without its blanks. -/
def dropBlanks (content : Bytes) : Bytes := content.filter fun b => !isBlank b

/-- A stripped line without the comment at its end. What only looks like a comment stays. -/
def dropComment (stripped : Bytes) : Bytes :=
  if isTail (trailer stripped) then meaning stripped else stripped

theorem dropComment_append {front tail : Bytes} (noSlash : Byte.slash ∉ front)
    (proper : isTail tail = true) : dropComment (front ++ tail) = front := by
  rw [dropComment, trailer_append noSlash proper, if_pos proper, meaning_append noSlash proper]

/-- Nothing is left of a comment, and something is left of any other line. -/
theorem dropComment_eq_nil_iff (stripped : Bytes) :
    dropComment stripped = [] ↔ isTail stripped = true := by
  constructor
  · intro empty
    rw [dropComment] at empty
    split at empty
    · next proper =>
        rw [← meaning_append_trailer stripped, empty]
        exact proper
    · rw [empty]
      rfl
  · intro proper
    rw [← List.nil_append stripped]
    exact dropComment_append List.not_mem_nil proper

end Line

namespace Command

open Line

/-- A command without the comment behind it. -/
def bare : Command → Command
  | .address operand _ => .address operand []
  | .label name _ => .label name []
  | .compute text trailer => .compute text (if isTail trailer then [] else trailer)
  | .skip => .skip
  | .malformed reason => .malformed reason

theorem echoes_of_bare_eq {command command' : Command} (same : command'.bare = command.bare) :
    Echoes Renaming.id command command' := by
  cases command <;> cases command' <;> simp only [bare, reduceCtorEq, address.injEq, label.injEq,
    compute.injEq, malformed.injEq, and_true] at same
  case skip.skip => exact .skip
  case address.address =>
      subst same
      exact .address
  case compute.compute text trailer text' trailer' =>
      obtain ⟨rfl, trailers⟩ := same
      have proper (tail : Bytes) : isTail (if isTail tail then [] else tail) = isTail tail := by
        split
        · next comment => rw [comment, isTail, List.isEmpty_nil, Bool.true_or]
        · rfl
      have tails := congrArg isTail trailers
      rw [proper, proper] at tails
      exact .compute tails
  case label.label =>
      subst same
      exact .label
  case malformed.malformed =>
      subst same
      exact .malformed

section Tail

variable {front tail : Bytes} (noSlash : Byte.slash ∉ front) (proper : isTail tail = true)

include noSlash proper

theorem bare_ofAddress_append : (ofAddress (front ++ tail)).bare = (ofAddress front).bare := by
  rw [ofAddress, ofAddress, meaning_append noSlash proper, trailer_append noSlash proper,
    meaning_eq_self noSlash, trailer_eq_nil noSlash, if_pos proper]
  cases operandFault? front <;> rfl

/-- A parenthesis in a comment does not close a label. -/
theorem ofLabel_append_of_unclosed (missing : Byte.closeParen ∉ front) :
    ofLabel (front ++ tail) = .malformed .unclosedLabel := by
  obtain ⟨left, right, new, whole, cut⟩ | ⟨-, cut⟩ := cutAt_cases Byte.closeParen (front ++ tail)
  · have hidden : Byte.slash ∈ left := by
      obtain ⟨between, rfl, later⟩ | ⟨between, rfl, later⟩ := List.append_eq_append_iff.1 whole
      · obtain rfl | ⟨remark, rfl⟩ := isTail_cases proper
        · simp at later
        · cases between with
          | nil => cases later
          | cons b between =>
              obtain ⟨rfl, -⟩ := List.cons.inj later
              simp
      · cases between with
        | nil =>
            obtain rfl | ⟨remark, rfl⟩ := isTail_cases proper <;> cases later
        | cons b between =>
            obtain ⟨rfl, -⟩ := List.cons.inj later
            exact absurd (by simp) missing
    rw [ofLabel, cut]
    simp [hidden]
  · rw [ofLabel, cut]

theorem bare_ofLabel_append : (ofLabel (front ++ tail)).bare = (ofLabel front).bare := by
  obtain ⟨name, rest, new, rfl, -⟩ | ⟨missing, cut⟩ := cutAt_cases Byte.closeParen front
  · have tails : isTail (rest ++ tail) = isTail rest := by
      cases rest with
      | nil => exact proper
      | cons b rest =>
          have other : b ≠ Byte.slash := by
            rintro rfl
            exact noSlash (by simp)
          rw [List.cons_append, isTail_cons_of_ne other, isTail_cons_of_ne other]
    rw [ofLabel, ofLabel, List.append_assoc, List.cons_append, cutAt_of_mem new, cutAt_of_mem new]
    simp only [tails]
    repeat' split
    all_goals rfl
  · have unclosed : ofLabel front = .malformed .unclosedLabel := by rw [ofLabel, cut]
    rw [ofLabel_append_of_unclosed noSlash proper missing, unclosed]

/-- A comment behind a line does not change what the line says. -/
theorem bare_ofStripped_append : (ofStripped (front ++ tail)).bare = (ofStripped front).bare := by
  cases front with
  | nil => obtain rfl | ⟨remark, rfl⟩ := isTail_cases proper <;> rfl
  | cons b front =>
      have other : b ≠ Byte.slash := by
        rintro rfl
        exact noSlash List.mem_cons_self
      have noSlashRest : Byte.slash ∉ front := fun member =>
        noSlash (List.mem_cons_of_mem b member)
      by_cases address : b = Byte.atSign
      · subst address
        exact bare_ofAddress_append noSlashRest proper
      by_cases label : b = Byte.openParen
      · subst label
        exact bare_ofLabel_append noSlashRest proper
      have text := meaning_append noSlash proper
      have comment := trailer_append noSlash proper
      rw [List.cons_append] at text comment ⊢
      rw [ofStripped_of_plain other address label, ofStripped_of_plain other address label,
        meaning_eq_self noSlash, trailer_eq_nil noSlash, text, comment]
      split
      · rw [bare, if_pos proper]
        rfl
      · rfl

end Tail

theorem bare_ofStripped_dropComment (stripped : Bytes) :
    (ofStripped (dropComment stripped)).bare = (ofStripped stripped).bare := by
  rw [dropComment]
  split
  · next proper =>
      have dropped := bare_ofStripped_append (slash_not_mem_meaning stripped) proper
      rw [meaning_append_trailer] at dropped
      exact dropped.symm
  · rfl

/-- A line says nothing exactly if nothing is left of it without its comment. -/
theorem ofStripped_eq_skip_iff (stripped : Bytes) :
    ofStripped stripped = .skip ↔ dropComment stripped = [] := by
  rw [dropComment_eq_nil_iff]
  constructor
  · intro silent
    rw [ofStripped.eq_def] at silent
    split at silent
    · rfl
    · split at silent
      · assumption
      · cases silent
    · rw [ofAddress] at silent
      repeat' split at silent
      all_goals cases silent
    · rw [ofLabel] at silent
      repeat' split at silent
      all_goals cases silent
    · split at silent <;> cases silent
  · intro proper
    obtain rfl | ⟨remark, rfl⟩ := isTail_cases proper <;> rfl

end Command

/-! ## Texts without their layout -/

namespace Line

/-- What is left of a line without its layout. -/
def bare (line : Bytes) : Bytes := dropComment (strip line)

/-- What is left of the lines without their layout. Lines of which nothing is left are left
out. -/
def bareLines (lines : List Bytes) : List Bytes := (lines.map bare).filter (!·.isEmpty)

theorem bareLines_cons (line : Bytes) (lines : List Bytes) :
    bareLines (line :: lines) =
      if bare line = [] then bareLines lines else bare line :: bareLines lines := by
  by_cases silent : bare line = [] <;> simp [bareLines, silent]

end Line

theorem Command.ofLine_eq_skip_iff (line : Bytes) :
    Command.ofLine line = .skip ↔ Line.bare line = [] :=
  ofStripped_eq_skip_iff (Line.strip line)

theorem Command.echoes_of_line_bare_eq {line line' : Bytes}
    (same : Line.bare line' = Line.bare line) :
    Echoes Renaming.id (ofLine line) (ofLine line') := by
  apply echoes_of_bare_eq
  calc (ofLine line').bare
    _ = (ofStripped (Line.bare line')).bare := (bare_ofStripped_dropComment _).symm
    _ = (ofStripped (Line.bare line)).bare := by rw [same]
    _ = (ofLine line).bare := bare_ofStripped_dropComment _

/-- Lines of which the same is left without their layout say the same. -/
theorem aligned_of_bareLines_eq {lines lines' : List Bytes}
    (same : Line.bareLines lines' = Line.bareLines lines) :
    Aligned Renaming.id lines lines' := by
  induction lines generalizing lines' with
  | nil =>
      induction lines' with
      | nil => exact .nil
      | cons line' lines' ih =>
          rw [Line.bareLines_cons] at same
          split at same
          · next silent => exact .right ((Command.ofLine_eq_skip_iff line').2 silent) (ih same)
          · cases same
  | cons line lines ih =>
      rw [Line.bareLines_cons line] at same
      split at same
      · next silent => exact .left ((Command.ofLine_eq_skip_iff line).2 silent) (ih same)
      · -- the first line that says anything in the other text is the one that belongs to it
        induction lines' with
        | nil => cases same
        | cons line' lines' ih' =>
            rw [Line.bareLines_cons] at same
            split at same
            · next silent => exact .right ((Command.ofLine_eq_skip_iff line').2 silent) (ih' same)
            · obtain ⟨head, tail⟩ := List.cons.inj same
              exact .both (Command.echoes_of_line_bare_eq head) (ih tail)

/-! ## Rows -/

/-- How a row ends: in some carriage returns, and then in a line feed or not. -/
structure Terminator where
  returns : Nat
  feed : Bool

/-- The bytes of a terminator. -/
def Terminator.bytes (terminator : Terminator) : Bytes :=
  List.replicate terminator.returns Byte.carriageReturn ++
    if terminator.feed then [Byte.lineFeed] else []

/-- A content with a terminator. The content goes as far as it can: it holds no line feed,
and a carriage return at the end would belong to the terminator. -/
structure Row where
  content : Bytes
  terminator : Terminator
  noFeed : Byte.lineFeed ∉ content
  noReturn : content.getLast? ≠ some Byte.carriageReturn

namespace Row

/-- The bytes of a row. -/
def bytes (row : Row) : Bytes := row.content ++ row.terminator.bytes

/-- What is left of a row without its layout. -/
def bare (row : Row) : Bytes := Line.dropComment (Line.dropBlanks row.content)

/-- A line is read up to its terminator. -/
theorem strip_bytes (row : Row) : Line.strip row.bytes = Line.dropBlanks row.content := by
  have proper : ∀ b ∈ row.terminator.bytes, Line.isTerminator b = true := by
    intro b member
    rw [Terminator.bytes, List.mem_append] at member
    obtain member | member := member
    · rw [List.eq_of_mem_replicate member]
      rfl
    · split at member
      · rw [List.mem_singleton.1 member]
        rfl
      · cases member
  have bare : ∀ b ∈ row.content.getLast?, Line.isTerminator b = false := by
    intro b last
    have noFeed : b ≠ Byte.lineFeed := fun feed =>
      row.noFeed (feed ▸ List.mem_of_mem_getLast? last)
    have noReturn : b ≠ Byte.carriageReturn := fun back => row.noReturn (back ▸ last)
    simp [Line.isTerminator, noFeed, noReturn]
  rw [Line.strip, bytes, Line.dropTerminator_append proper, Line.dropTerminator_eq_self bare,
    Line.dropBlanks]

theorem bare_bytes (row : Row) : Line.bare row.bytes = row.bare := by
  rw [Line.bare, strip_bytes, bare]

/-- A row is the first line of a text that starts with it. A row without any bytes is no line,
and nothing is left of it. -/
theorem bareLines_split_append (row : Row) {rest : Bytes}
    (ends : row.terminator.feed = true ∨ rest = []) :
    Line.bareLines (Line.split (row.bytes ++ rest)) =
      if row.bare = [] then Line.bareLines (Line.split rest)
      else row.bare :: Line.bareLines (Line.split rest) := by
  have noFeed : Byte.lineFeed ∉
      row.content ++ List.replicate row.terminator.returns Byte.carriageReturn := by
    simp [row.noFeed, List.mem_replicate, show Byte.lineFeed ≠ Byte.carriageReturn by decide]
  have whole : row.bytes = row.content ++
      List.replicate row.terminator.returns Byte.carriageReturn ++
        if row.terminator.feed then [Byte.lineFeed] else [] := by
    rw [bytes, Terminator.bytes, List.append_assoc]
  rw [← bare_bytes, ← Line.bareLines_cons]
  cases feed : row.terminator.feed with
  | true =>
      rw [feed, if_pos rfl] at whole
      rw [whole, List.append_assoc, List.singleton_append, Line.split_cons noFeed]
  | false =>
      obtain rfl : rest = [] := ends.resolve_left (by simp [feed])
      rw [feed, if_neg Bool.false_ne_true, List.append_nil] at whole
      rw [List.append_nil]
      by_cases empty : row.bytes = []
      · rw [empty]
        rfl
      · rw [← whole] at noFeed
        rw [Line.split_of_open noFeed empty]
        rfl

end Row

/-! ## Layouts -/

/-- A text as rows. Only the last one can do without its line feed. -/
structure Layout where
  rows : List Row
  fed : ∀ row ∈ rows.dropLast, row.terminator.feed = true

namespace Layout

/-- The bytes of all rows. -/
def text (layout : Layout) : Bytes := layout.rows.flatMap Row.bytes

/-- What is left of the rows without their layout. -/
theorem bareLines_split_text (layout : Layout) :
    Line.bareLines (Line.split layout.text) =
      (layout.rows.map Row.bare).filter (!·.isEmpty) := by
  obtain ⟨rows, fed⟩ := layout
  show Line.bareLines (Line.split (rows.flatMap Row.bytes)) = _
  induction rows with
  | nil => rfl
  | cons row rows ih =>
      have ends : row.terminator.feed = true ∨ rows.flatMap Row.bytes = [] := by
        cases rows with
        | nil => exact .inr rfl
        | cons next rows => exact .inl (fed row (by simp))
      have fedRest : ∀ later ∈ rows.dropLast, later.terminator.feed = true := by
        intro later member
        cases rows with
        | nil => cases member
        | cons next rows => exact fed later (List.mem_cons_of_mem row member)
      rw [List.flatMap_cons, row.bareLines_split_append ends, ih fedRest]
      by_cases silent : row.bare = [] <;> simp [silent]

/-- The carriage returns at the end can be told from what is before them. -/
theorem exists_append_returns (content : Bytes) : ∃ front returns,
    content = front ++ List.replicate returns Byte.carriageReturn ∧
      front.getLast? ≠ some Byte.carriageReturn := by
  induction content using List.reverseRecOn with
  | nil => exact ⟨[], 0, rfl, nofun⟩
  | append_singleton content b ih =>
      by_cases back : b = Byte.carriageReturn
      · obtain ⟨front, returns, rfl, noReturn⟩ := ih
        refine ⟨front, returns + 1, ?_, noReturn⟩
        rw [back, List.append_assoc, ← List.replicate_succ']
      · exact ⟨content ++ [b], 0, by simp, by simpa using back⟩

theorem exists_row {content : Bytes} (noFeed : Byte.lineFeed ∉ content) (feed : Bool) :
    ∃ row : Row, row.terminator.feed = feed ∧
      row.bytes = content ++ if feed then [Byte.lineFeed] else [] := by
  obtain ⟨front, returns, rfl, noReturn⟩ := exists_append_returns content
  refine ⟨⟨front, ⟨returns, feed⟩, fun member => noFeed (List.mem_append_left _ member),
    noReturn⟩, rfl, ?_⟩
  rw [Row.bytes, Terminator.bytes, List.append_assoc]

/-- Every text has a layout, so there is no text that the edits below cannot be made to. -/
theorem exists_text_eq (text : Bytes) : ∃ layout : Layout, layout.text = text := by
  induction text using Line.text_induction with
  | last content noFeed =>
      obtain ⟨row, -, bytes⟩ := exists_row noFeed false
      refine ⟨⟨[row], nofun⟩, ?_⟩
      simpa [text] using bytes
  | line content rest noFeed ih =>
      obtain ⟨layout, rfl⟩ := ih
      obtain ⟨row, feed, bytes⟩ := exists_row noFeed true
      refine ⟨⟨row :: layout.rows, fun later member => ?_⟩, ?_⟩
      · cases rows : layout.rows with
        | nil =>
            rw [rows] at member
            cases member
        | cons next below =>
            rw [rows] at member
            obtain rfl | member := List.mem_cons.1 member
            · exact feed
            · exact layout.fed later (rows ▸ member)
      · simp [text, bytes]

end Layout

/-! ## Edits -/

/-- One edit within a row. -/
inductive Row.Edit (row row' : Row) : Prop
  /-- A blank is put anywhere into the content. -/
  | blank (left right : Bytes) (b : UInt8) (isBlank : Line.isBlank b = true)
      (content : row.content = left ++ right) (content' : row'.content = left ++ b :: right)
      (terminator : row'.terminator = row.terminator)
  /-- The row gets another terminator. -/
  | terminator (content : row'.content = row.content)
  /-- A comment is put behind a content that has no slash. -/
  | comment (remark : Bytes) (noSlash : Byte.slash ∉ row.content)
      (content' : row'.content = row.content ++ Byte.slash :: Byte.slash :: remark)
      (terminator : row'.terminator = row.terminator)

/-- One edit of a layout. -/
inductive Layout.Edit (layout layout' : Layout) : Prop
  /-- A row is edited. -/
  | row (above below : List Row) {row row' : Row} (edit : row.Edit row')
      (rows : layout.rows = above ++ row :: below) (rows' : layout'.rows = above ++ row' :: below)
  /-- A row is added in which nothing stands but blanks, or a comment. -/
  | added (above below : List Row) {row : Row}
      (silent : Line.isTail (Line.dropBlanks row.content) = true)
      (rows : layout.rows = above ++ below) (rows' : layout'.rows = above ++ row :: below)

/-- Texts that become each other by edits of their layout, in any number, made or undone. -/
def Relaid : Bytes → Bytes → Prop :=
  Relation.EqvGen fun text text' =>
    ∃ layout layout' : Layout, layout.Edit layout' ∧ layout.text = text ∧ layout'.text = text'

theorem Row.Edit.bare_eq {row row' : Row} (edit : row.Edit row') : row'.bare = row.bare := by
  cases edit with
  | blank left right b isBlank content content' _ =>
      simp [Row.bare, Line.dropBlanks, content, content', isBlank]
  | terminator content => rw [Row.bare, content, Row.bare]
  | comment remark noSlash content' _ =>
      have noSlashBare : Byte.slash ∉ Line.dropBlanks row.content := fun member =>
        noSlash (List.mem_filter.1 member).1
      have dropped : Line.dropBlanks row'.content =
          Line.dropBlanks row.content ++ Byte.slash :: Byte.slash :: Line.dropBlanks remark := by
        rw [content', Line.dropBlanks, List.filter_append]
        rfl
      have alone := Line.dropComment_append noSlashBare (rfl : Line.isTail [] = true)
      rw [List.append_nil] at alone
      rw [Row.bare, dropped, Line.dropComment_append noSlashBare rfl, Row.bare, alone]

/-- An edit of the layout leaves the same behind without it. -/
theorem Layout.Edit.bareLines_eq {layout layout' : Layout} (edit : layout.Edit layout') :
    Line.bareLines (Line.split layout'.text) = Line.bareLines (Line.split layout.text) := by
  rw [bareLines_split_text, bareLines_split_text]
  cases edit with
  | row above below edit rows rows' => simp [rows, rows', edit.bare_eq]
  | added above below silent rows rows' =>
      have nothing := (Line.dropComment_eq_nil_iff _).2 silent
      simp [rows, rows', Row.bare, nothing]

theorem Relaid.bareLines_eq {text text' : Bytes} (relaid : Relaid text text') :
    Line.bareLines (Line.split text') = Line.bareLines (Line.split text) := by
  induction relaid with
  | rel text text' edited =>
      obtain ⟨layout, layout', edit, rfl, rfl⟩ := edited
      exact edit.bareLines_eq
  | refl text => rfl
  | symm text text' _ ih => exact ih.symm
  | trans text text' text'' _ _ first second => exact second.trans first

/-! ## Runs -/

/-- The number of the line that a failure is about, if it is about one. -/
def Failure.line? : Failure → Option Int
  | .lineTooLong line | .unknownSymbol line _ | .readFailed line _ => some line
  | .syntaxError error => some error.line
  | .config _ | .canceled | .outOfVariableMemory _ | .rewindFailed _ | .writeFailed _ => none

/-- The same failure, met in another text. If it is about a line, then the two lines stand
at the same place, and what is said about them is the same. -/
inductive Failure.Moved (lines lines' : List Bytes) : Failure → Failure → Prop
  | unplaced {failure : Failure} (unplaced : failure.line? = none) :
      Moved lines lines' failure failure
  | unknownSymbol {number number' : Nat} {unknown : UnknownSymbol}
      (place : SamePlace lines lines' number number') :
      Moved lines lines' (.unknownSymbol number unknown) (.unknownSymbol number' unknown)
  | syntaxError {number number' : Nat} {content content' message : Bytes}
      (place : SamePlace lines lines' number number') :
      Moved lines lines' (.syntaxError ⟨number, content, message⟩)
        (.syntaxError ⟨number', content', message⟩)

theorem Failure.Echoes.moved {lines lines' : List Bytes} {failure failure' : Failure}
    (echo : Echoes Renaming.id lines lines' failure failure') :
    Moved lines lines' failure failure' := by
  cases echo with
  | config | canceled | rewindFailed | writeFailed | outOfVariableMemory => exact .unplaced rfl
  | unknownSymbol name place => exact .unknownSymbol place
  | syntaxError place wording =>
      obtain rfl := wording rfl
      exact .syntaxError place

namespace Session

/-- The sessions know the same symbols, have noted the same names and have listed the same
words. -/
structure Agrees (session session' : Session) : Prop where
  table : session'.table = session.table
  nextVariable : session'.nextVariable = session.nextVariable
  references : session'.references.toList = session.references.toList
  listing : session'.listing.toList.map ListingEntry.word =
    session.listing.toList.map ListingEntry.word

theorem Mirrors.agrees {settings : Config} {session session' : Session}
    (mirrors : Mirrors Renaming.id settings session session') : Agrees session session' where
  table := SymbolTable.ext_get? mirrors.table
  nextVariable := mirrors.nextVariable
  references := mirrors.references.trans (List.map_id _)
  listing := mirrors.listing

/-- A change of layout changes nothing about a run but the numbers and the spelling of lines:
the same is written and the sessions agree in the end, or both fail for the same reason. -/
theorem matches_assemble_of_relaid {text text' : Bytes} (relaid : Relaid text text')
    (session : Session) (short : ∀ line ∈ Line.split text, session.config.Admits line)
    (short' : ∀ line ∈ Line.split text', session.config.Admits line) (sink : Sink)
    (canceled : Bool) :
    Matches Agrees
      (fun failure failure' _ _ =>
        Failure.Moved (Line.split text) (Line.split text') failure failure')
      (assemble { content := text } sink canceled session)
      (assemble { content := text' } sink canceled session) := by
  have aligned := aligned_of_bareLines_eq relaid.bareLines_eq
  have mirrors : Mirrors Renaming.id session.config session session :=
    ⟨rfl, rfl, rfl, rfl, fun _ => rfl, (List.map_id _).symm, rfl⟩
  refine (matches_assemble aligned short short' mirrors sink canceled).mono ?_ ?_
  · intro reached reached' mirrors
    exact mirrors.agrees
  · rintro failure failure' reached reached' ⟨echo, -⟩
    exact echo.moved

/-- A row of blanks in front, a blank and a comment, and no line feed at the end: the line
that cannot be encoded is the second one of the one text and the third one of the other. -/
theorem matches_assemble_of_relaid_refused :
    Relaid (ascii "@i\nD=X\n") (ascii "\t\r\n@ i\nD=X//x") ∧
      (∀ line ∈ Line.split (ascii "@i\nD=X\n"), (new .default).config.Admits line) ∧
      (∀ line ∈ Line.split (ascii "\t\r\n@ i\nD=X//x"), (new .default).config.Admits line) ∧
      Matches Agrees
        (fun failure failure' _ _ =>
          Failure.Moved (Line.split (ascii "@i\nD=X\n"))
            (Line.split (ascii "\t\r\n@ i\nD=X//x")) failure failure')
        (assemble { content := ascii "@i\nD=X\n" } {} false (new .default))
        (assemble { content := ascii "\t\r\n@ i\nD=X//x" } {} false (new .default)) := by
  have relaid : Relaid (ascii "@i\nD=X\n") (ascii "\t\r\n@ i\nD=X//x") := by
    let loads : Row := ⟨ascii "@i", ⟨0, true⟩, by decide +kernel, by decide +kernel⟩
    let spaced : Row := ⟨ascii "@ i", ⟨0, true⟩, by decide +kernel, by decide +kernel⟩
    let fed : Row := ⟨ascii "D=X", ⟨0, true⟩, by decide +kernel, by decide +kernel⟩
    let unfed : Row := ⟨ascii "D=X", ⟨0, false⟩, by decide +kernel, by decide +kernel⟩
    let remarked : Row := ⟨ascii "D=X//x", ⟨0, false⟩, by decide +kernel, by decide +kernel⟩
    let blank : Row := ⟨ascii "\t", ⟨1, true⟩, by decide +kernel, by decide +kernel⟩
    have spacing : loads.Edit spaced := .blank [Byte.atSign] (ascii "i") Byte.space rfl rfl rfl rfl
    have dropping : fed.Edit unfed := .terminator rfl
    have remarking : unfed.Edit remarked := .comment (ascii "x") (by decide +kernel) rfl rfl
    have first : Layout.Edit ⟨[loads, fed], by simp [loads]⟩ ⟨[spaced, fed], by simp [spaced]⟩ :=
      .row [] [fed] spacing rfl rfl
    have second : Layout.Edit ⟨[spaced, fed], by simp [spaced]⟩
        ⟨[spaced, unfed], by simp [spaced]⟩ :=
      .row [spaced] [] dropping rfl rfl
    have third : Layout.Edit ⟨[spaced, unfed], by simp [spaced]⟩
        ⟨[spaced, remarked], by simp [spaced]⟩ :=
      .row [spaced] [] remarking rfl rfl
    have fourth : Layout.Edit ⟨[spaced, remarked], by simp [spaced]⟩
        ⟨[blank, spaced, remarked], by simp [blank, spaced]⟩ :=
      .added [] [spaced, remarked] (by decide +kernel) rfl rfl
    exact .trans _ _ _ (.rel _ _ ⟨_, _, first, by decide +kernel, rfl⟩)
      (.trans _ _ _ (.rel _ _ ⟨_, _, second, rfl, rfl⟩)
        (.trans _ _ _ (.rel _ _ ⟨_, _, third, rfl, rfl⟩)
          (.rel _ _ ⟨_, _, fourth, rfl, by decide +kernel⟩)))
  have short : ∀ line ∈ Line.split (ascii "@i\nD=X\n"), (new .default).config.Admits line := by
    decide +kernel
  have short' : ∀ line ∈ Line.split (ascii "\t\r\n@ i\nD=X//x"),
      (new .default).config.Admits line := by
    decide +kernel
  exact ⟨relaid, short, short', matches_assemble_of_relaid relaid _ short short' {} false⟩

end Session

end HackAssembler
