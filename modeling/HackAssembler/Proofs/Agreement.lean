/-
# Agreement of the two passes

Both passes read the same lines and count them in the same way, and the second knows
every symbol that the first has met. So behind a first pass that succeeded, the second
meets no line that is too long or has no proper form, no label beyond the last address
and no unknown symbol; it can fail only at a command that has no instruction, for one of
three reasons. And the value that the first pass gave to a label, before there was any
word, is the number of words that the second pass emits before it reaches the label.
-/

import HackAssembler.Proofs.Assembly

namespace HackAssembler

/-- Why a command has no instruction although its symbol is known: its constant or the
value of its symbol does not fit an address, or its text is not that of a computation. -/
inductive Command.Refused (table : SymbolTable) : Command → EncodingError → Prop
  | constant {operand trailer : Bytes} (digits : operand.all Byte.isDigit = true)
      (large : maxAddress < Decimal.value operand) :
      Refused table (.address operand trailer) (.constantOutOfRange operand)
  | symbol {name trailer : Bytes} {value : Word} (symbolic : Line.isSymbolic name = true)
      (bound : table.get? name = some value) (large : maxAddress < value.toNat) :
      Refused table (.address name trailer) (.symbolOutOfRange name value)
  | compute {text trailer : Bytes} {error : EncodingError}
      (noText : Line.isTail trailer = true → ∀ comp dest jump,
        (dest ≠ Dest.nowhere ∨ jump ≠ .never) → text ≠ Instruction.computeText comp dest jump)
      (reported : Instruction.ofCompute text trailer = .error error) :
      Refused table (.compute text trailer) error

/-- The three reasons are all there are. -/
theorem Command.refused_of_instruction? {table : SymbolTable} {line : Bytes}
    {error : EncodingError} (known : ∀ unknown, error ≠ .unknownSymbol unknown)
    (h : (ofLine line).instruction? table = some (.error error)) :
    Refused table (ofLine line) error := by
  cases command : ofLine line with
  | skip | label name trailer | malformed reason =>
      rw [command] at h
      cases h
  | compute text trailer =>
      rw [command] at h
      have failed : Instruction.ofCompute text trailer = .error error := Option.some.inj h
      refine .compute ?_ failed
      intro proper comp dest jump storesOrJumps isText
      have accepted := Instruction.ofCompute_eq_ok_iff.2
        ⟨proper, comp, dest, jump, storesOrJumps, isText, rfl⟩
      rw [failed] at accepted
      cases accepted
  | address operand trailer =>
      rw [command] at h
      have failed : Instruction.ofOperand table operand = .error error := Option.some.inj h
      cases symbolic : Line.isSymbolic operand with
      | true =>
          rw [Instruction.ofOperand_of_symbolic table symbolic] at failed
          cases bound : table.get? operand with
          | none =>
              rw [bound] at failed
              cases failed
              exact absurd rfl (known _)
          | some value =>
              simp only [bound] at failed
              split at failed
              · cases failed
              · next large =>
                  cases failed
                  exact .symbol symbolic bound (Nat.lt_of_not_le large)
      | false =>
          have digits := isDigits_of_not_symbolic command symbolic
          rw [Instruction.ofOperand_of_digits table symbolic digits] at failed
          split at failed
          · cases failed
          · next large =>
              cases failed
              exact .constant digits.2 (Nat.lt_of_not_le large)

/-- A line whose symbol is known is refused for one of the three reasons, and the failure
names the line and the reason. -/
theorem exists_refused_of_encodingFault? {table : SymbolTable} {before : List Bytes}
    {line : Bytes} {failure : Failure}
    (known : ∀ name, (Command.ofLine line).reference? = some name → table.get? name ≠ none)
    (fault : encodingFault? table before line = some failure) :
    ∃ error, (Command.ofLine line).Refused table error ∧
      failure = .syntaxError ⟨before.length + 1, Line.strip line, error.message⟩ := by
  rw [encodingFault?] at fault
  split at fault
  · next error encoded =>
      cases fault
      refine ⟨error, Command.refused_of_instruction? ?_ encoded, rfl⟩
      rintro unknown rfl
      obtain ⟨referred, unbound⟩ := get?_eq_none_of_unknownSymbol encoded
      exact known unknown.name referred unbound
  · cases fault
  · cases fault

/-! ## Words before a place in the text -/

/-- In a listing, the entries of the lines before a place in the text come first, and
there are as many of them as instructions before that place. -/
theorem line_le_length_iff {table : SymbolTable} {before rest processed unread : List Bytes}
    {index : Nat} {entry : ListingEntry} (same : before ++ rest = processed ++ unread)
    (sound : collect (encodingFault? table) [] processed = [])
    (h : (collect (listed? table) [] processed)[index]? = some entry) :
    entry.line ≤ before.length ↔ index < (Program.ofLines before).emitted := by
  rcases List.append_eq_append_iff.1 same with ⟨more, rfl, -⟩ | ⟨missing, rfl, -⟩
  · -- the place has been passed: the entry stands on the one side of it or on the other
    rw [collect_append] at sound h
    obtain ⟨soundBefore, -⟩ := List.append_eq_nil_iff.1 sound
    have first := length_collect_listed? soundBefore
    rw [List.getElem?_append, first] at h
    split at h
    · next early =>
        have bounds := (line_of_mem_collect (List.mem_of_getElem? h)).2
        exact iff_of_true bounds early
    · next late =>
        have bounds := (line_of_mem_collect (List.mem_of_getElem? h)).1
        exact iff_of_false (Int.not_le.2 bounds) late
  · -- the place has not been reached: all entries stand before it
    have bounds := (line_of_mem_collect (List.mem_of_getElem? h)).2
    have place := (List.getElem?_eq_some_iff.1 h).1
    rw [length_collect_listed? sound] at place
    apply iff_of_true
    · simp only [List.nil_append, List.length_append] at bounds ⊢
      omega
    · rw [Program.ofLines, List.map_append, Program.emitted_append]
      exact Nat.lt_add_right _ place

namespace Session

/-- What a pass has emitted, in two parts: `first` for the lines up to a number, and `later` for
the lines behind them. Its listing is made of the two, and so is what it has written, if it came
to the end. -/
structure Parted (lines : Nat) (sink : Sink) (first later : List ListingEntry)
    (pass : SessionM Sink) (session : Session) : Prop where
  listing : (after pass session).listing.toList = first ++ later
  upTo : ∀ entry ∈ first, entry.line ≤ lines
  behind : ∀ entry ∈ later, (lines : Int) < entry.line
  output : ∀ written final, pass session = .ok written final →
    written.received.toList = sink.received.toList ++ outputOf first ++ outputOf later

theorem Parted.of_eq {lines : Nat} {sink : Sink} {first later : List ListingEntry}
    {pass other : SessionM Sink} {session start : Session} (same : other start = pass session)
    (parted : Parted lines sink first later pass session) :
    Parted lines sink first later other start where
  listing := by
    rw [after, same]
    exact parted.listing
  upTo := parted.upTo
  behind := parted.behind
  output := by
    rw [same]
    exact parted.output

section SecondPass

variable {source : Source} {session : Session} {sink : Sink}

/-- The second pass lists the lines up to where it stops, and stops before the end of the text
only at a line that it rejects. -/
theorem exists_listing_secondPass (readable : source.readFault = none)
    (ready : session.Ready source.lines) (unlimited : sink.limit = none) :
    ∃ processed unread, source.lines = processed ++ unread ∧
      collect (encodingFault? session.table) [] processed = [] ∧
      (after (secondPass source sink false) session.rewound).listing.toList =
        collect (listed? session.table) [] processed ∧
      (unread = [] ∨ ∃ error : SyntaxError, error.line = processed.length + 1 ∧
        failure? (secondPass source sink false) session.rewound = some (.syntaxError error)) := by
  rcases secondPass_cases readable ready unlimited with
    ⟨sound, written, done, -⟩ |
    ⟨failure, _, soundLines, line, rest, -, lines, sound, fault, stopped⟩
  · refine ⟨source.lines, [], (List.append_nil source.lines).symm, sound, ?_, .inl rfl⟩
    rw [after_of_ok done]
    exact toList_listing_recorded session.rewound [] source.lines
  · have member : line ∈ source.lines := by
      rw [lines]
      exact List.mem_append_right soundLines List.mem_cons_self
    obtain ⟨error, -, rfl⟩ := exists_refused_of_encodingFault? (ready.known line member) fault
    refine ⟨soundLines, line :: rest, lines, sound, ?_, .inr ⟨_, rfl, failure?_of_error stopped⟩⟩
    rw [after_of_error stopped]
    exact toList_listing_recorded session.rewound [] soundLines

/-- What the second pass has emitted when it is past some lines falls in two parts: as many
words as these lines have instructions, and the words of later lines. -/
theorem exists_parted_secondPass {before rest : List Bytes} (readable : source.readFault = none)
    (ready : session.Ready source.lines) (unlimited : sink.limit = none)
    (lines : source.lines = before ++ rest)
    (past : ∀ error, failure? (secondPass source sink false) session.rewound =
      some (.syntaxError error) → (before.length : Int) < error.line) :
    ∃ first later, first.length = (Program.ofLines before).emitted ∧
      Parted before.length sink first later (secondPass source sink false) session.rewound := by
  obtain ⟨processed, unread, cut, sound, listing, stop⟩ :=
    exists_listing_secondPass readable ready unlimited
  -- the pass stops behind these lines, so they are among those that it has read
  have reached : ∃ more, processed = before ++ more := by
    obtain rfl | ⟨error, line, failed⟩ := stop
    · rw [List.append_nil] at cut
      exact ⟨rest, cut.symm.trans lines⟩
    · have behind := past error failed
      have inOrder : before <+: processed :=
        List.prefix_of_prefix_length_le ⟨rest, lines.symm⟩ ⟨unread, cut.symm⟩ (by omega)
      obtain ⟨more, whole⟩ := inOrder
      exact ⟨more, whole.symm⟩
  obtain ⟨more, rfl⟩ := reached
  have parts : collect (listed? session.table) [] (before ++ more) =
      collect (listed? session.table) [] before ++
        collect (listed? session.table) ([] ++ before) more := collect_append before more
  rw [collect_append] at sound
  obtain ⟨soundBefore, -⟩ := List.append_eq_nil_iff.1 sound
  refine ⟨_, _, length_collect_listed? soundBefore, listing.trans parts, ?_, ?_, ?_⟩
  · intro entry member
    exact (line_of_mem_collect member).2
  · intro entry member
    exact (line_of_mem_collect member).1
  · intro written final done
    have whole : before ++ more = source.lines := by
      obtain rfl | ⟨error, -, failed⟩ := stop
      · rw [cut, List.append_nil]
      · rw [failure?_of_ok done] at failed
        cases failed
    rw [(secondPass_eq_ok done).2, ← whole, parts, outputOf, List.flatMap_append,
      List.append_assoc]
    rfl

/-- The second pass fails only at a command that is refused. -/
theorem exists_refused_of_failure?_secondPass {failure : Failure}
    (readable : source.readFault = none) (ready : session.Ready source.lines)
    (unlimited : sink.limit = none)
    (failed : failure? (secondPass source sink false) session.rewound = some failure) :
    ∃ before line rest error, source.lines = before ++ line :: rest ∧
      (Command.ofLine line).Refused session.table error ∧
      failure = .syntaxError ⟨before.length + 1, Line.strip line, error.message⟩ := by
  rcases secondPass_cases readable ready unlimited with
    ⟨-, written, done, -⟩ | ⟨reported, _, before, line, rest, -, lines, -, fault, stopped⟩
  · rw [failure?_of_ok done] at failed
    cases failed
  · rw [failure?_of_error stopped] at failed
    cases failed
    have member : line ∈ source.lines := by
      rw [lines]
      exact List.mem_append_right before List.mem_cons_self
    obtain ⟨error, refused, reason⟩ :=
      exists_refused_of_encodingFault? (ready.known line member) fault
    exact ⟨before, line, rest, error, lines, refused, reason⟩

end SecondPass

/-- A label that was not bound before is linked to the number of instructions before the
first line that declares it. -/
theorem exists_get?_linked_label {session : Session} {before rest : List Bytes}
    {line name : Bytes}
    (clean : collect (scanFault? session.config) [] (before ++ line :: rest) = [])
    (unbound : session.table.get? name = none)
    (new : ∀ earlier ∈ before, (Command.ofLine earlier).declares name = false)
    (declares : (Command.ofLine line).declares name = true) :
    ∃ address, (session.linked (before ++ line :: rest)).table.get? name = some address ∧
      address.toNat = (Program.ofLines before).emitted := by
  have declared : (Program.ofLines (before ++ line :: rest)).labelAddress? name =
      some (Program.ofLines before).emitted := by
    rw [Program.ofLines, List.map_append, List.map_cons]
    apply Program.labelAddress?_of_first _ declares
    intro command member
    obtain ⟨earlier, inBefore, rfl⟩ := List.mem_map.1 member
    exact new earlier inBefore
  have small := labelAddress?_le_maxAddress clean declared
  rw [maxAddress] at small
  refine ⟨BitVec.ofNat 16 (Program.ofLines before).emitted, ?_, ?_⟩
  · have notVariable : name ∉ (Program.ofLines (before ++ line :: rest)).variableNames
        session.table := by
      simp [mem_variableNames_iff, declared]
    rw [get?_linked, if_neg notVariable, unbound, declared]
    rfl
  · rw [BitVec.toNat_ofNat]
    omega

/-- Behind a first pass that succeeded, the second pass over the same source fails only
at a command that is refused for one of the three reasons. Each label that the first pass
bound has as its value the number of words that the second pass emits before it gets there,
unless it stops earlier, so that the first entry which is listed behind the label has that
address. -/
theorem secondPass_agrees_with_firstPass {source : Source} {canceled : Bool}
    {session middle : Session} {sink : Sink}
    (passed : firstPass source canceled session = .ok () middle)
    (intact : source.rewindFault = none) (unlimited : sink.limit = none) :
    (∀ failure,
      failure? (rewind source >>= fun _ => secondPass source sink false) middle = some failure →
        ∃ before line rest error, source.lines = before ++ line :: rest ∧
          (Command.ofLine line).Refused middle.table error ∧
          failure = .syntaxError ⟨before.length + 1, Line.strip line, error.message⟩) ∧
      ∀ name before line rest, source.lines = before ++ line :: rest →
        session.table.get? name = none →
        (∀ earlier ∈ before, (Command.ofLine earlier).declares name = false) →
        (Command.ofLine line).declares name = true →
        ∃ address, middle.table.get? name = some address ∧
          ((∀ error, failure? (rewind source >>= fun _ => secondPass source sink false) middle =
              some (.syntaxError error) → (before.length : Int) < error.line) →
            ∃ first later, first.length = address.toNat ∧
              Parted before.length sink first later
                (rewind source >>= fun _ => secondPass source sink false) middle) ∧
          ∀ (index : Nat) (entry : ListingEntry),
            (after (rewind source >>= fun _ => secondPass source sink false)
              middle).listing[index]? = some entry →
            entry.address = index ∧ (entry.line ≤ before.length ↔ index < address.toNat) := by
  obtain ⟨-, readable, clean, fits, rfl⟩ := firstPass_eq_ok_iff.1 passed
  have rewinds := rewind_of_intact intact (session.linked source.lines)
  have ready := ready_linked clean fits
  constructor
  · intro failure failed
    rw [failure?, bind_of_ok rewinds] at failed
    exact exists_refused_of_failure?_secondPass readable ready unlimited failed
  · intro name before line rest lines unbound new declares
    rw [lines] at clean
    obtain ⟨address, bound, value⟩ := exists_get?_linked_label clean unbound new declares
    rw [← lines] at bound
    refine ⟨address, bound, ?_, ?_⟩
    · intro past
      simp only [failure?, bind_of_ok rewinds] at past
      obtain ⟨first, later, count, parted⟩ :=
        exists_parted_secondPass readable ready unlimited lines past
      exact ⟨first, later, count.trans value.symm, parted.of_eq (bind_of_ok rewinds)⟩
    · intro index entry listed
      obtain ⟨processed, unread, sameLines, sound, listing, -⟩ :=
        exists_listing_secondPass readable ready unlimited
      rw [after, bind_of_ok rewinds, ← after, ← Array.getElem?_toList, listing] at listed
      rw [value]
      constructor
      · exact (address_of_getElem?_collect sound listed).trans (Int.zero_add index)
      · exact line_le_length_iff (lines.symm.trans sameLines) sound listed

/-- A label between instructions: one word is emitted before it, both where the last constant
is too large, so that the pass stops behind the label, and where the pass comes to its end. -/
theorem secondPass_agrees_with_firstPass_at_label :
    ∃ source whole middle linked written final,
      source = { content := ascii "@x\n(END)\n@END\n0;JMP\n@40000\n" } ∧
      whole = { content := ascii "@x\n(END)\n@END\n0;JMP\n" } ∧
      firstPass source false (new .default) = .ok () middle ∧
      firstPass whole false (new .default) = .ok () linked ∧
      (rewind whole >>= fun _ => secondPass whole {} false) linked = .ok written final ∧
      (middle.table.get? (ascii "END") = some 1 ∧
        (∃ first later, first.length = 1 ∧ Parted 1 {} first later
          (rewind source >>= fun _ => secondPass source {} false) middle) ∧
        ∀ (index : Nat) (entry : ListingEntry),
          (after (rewind source >>= fun _ => secondPass source {} false)
            middle).listing[index]? = some entry →
          entry.address = index ∧ (entry.line ≤ 1 ↔ index < 1)) ∧
      ∃ first later, linked.table.get? (ascii "END") = some 1 ∧ first.length = 1 ∧
        final.listing.toList = first ++ later ∧
        written.received.toList = outputOf first ++ outputOf later := by
  let source : Source := { content := ascii "@x\n(END)\n@END\n0;JMP\n@40000\n" }
  let whole : Source := { content := ascii "@x\n(END)\n@END\n0;JMP\n" }
  have unlimited : ({} : Sink).limit = none := rfl
  have passes : failure? (firstPass source false) (new .default) = none := by decide +kernel
  have passes' : failure? (firstPass whole false) (new .default) = none := by decide +kernel
  have one : (after (firstPass source false) (new .default)).table.get? (ascii "END") = some 1 := by
    decide +kernel
  have one' : (after (firstPass whole false) (new .default)).table.get? (ascii "END") = some 1 := by
    decide +kernel
  have stops : failure? (firstPass source false >>= fun _ => rewind source >>= fun _ =>
      secondPass source {} false) (new .default) =
      some (.syntaxError ⟨5, ascii "@40000",
        EncodingError.message (.constantOutOfRange (ascii "40000"))⟩) := by
    decide +kernel
  have ends : failure? (firstPass whole false >>= fun _ => rewind whole >>= fun _ =>
      secondPass whole {} false) (new .default) = none := by
    decide +kernel
  obtain ⟨⟨⟩, passed⟩ := exists_ok_of_failure?_eq_none passes
  obtain ⟨⟨⟩, passed'⟩ := exists_ok_of_failure?_eq_none passes'
  rw [failure?, bind_of_ok passed, ← failure?] at stops
  rw [failure?, bind_of_ok passed', ← failure?] at ends
  obtain ⟨written, done⟩ := exists_ok_of_failure?_eq_none ends
  -- the pass fails behind the label, so the words before it are counted all the same
  obtain ⟨address, bound, words, entries⟩ :=
    (secondPass_agrees_with_firstPass passed rfl unlimited).2 (ascii "END") [ascii "@x\n"]
      (ascii "(END)\n") [ascii "@END\n", ascii "0;JMP\n", ascii "@40000\n"]
      (by decide +kernel) (by decide +kernel) (by decide +kernel) (by decide +kernel)
  cases bound.symm.trans one
  have counted := words (by
    intro error failed
    rw [stops] at failed
    cases failed
    decide)
  obtain ⟨address', bound', words', -⟩ :=
    (secondPass_agrees_with_firstPass passed' rfl unlimited).2 (ascii "END") [ascii "@x\n"]
      (ascii "(END)\n") [ascii "@END\n", ascii "0;JMP\n"]
      (by decide +kernel) (by decide +kernel) (by decide +kernel) (by decide +kernel)
  cases bound'.symm.trans one'
  obtain ⟨first, later, count, parted⟩ := words' (by
    intro error failed
    rw [ends] at failed
    cases failed)
  have listing := parted.listing
  rw [after_of_ok done] at listing
  exact ⟨source, whole, _, _, written, _, rfl, rfl, passed, passed', done,
    ⟨bound, counted, entries⟩, first, later, bound', count, listing, parted.output _ _ done⟩

end Session

end HackAssembler
