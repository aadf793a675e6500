/-
# A whole assembly

The two passes put together. The first pass succeeds exactly if the source can be read
to its end, no line is refused and there are addresses for the variables; then every
symbol of the source is bound, and the second pass can fail only at a line whose command
has no instruction. The outcome of an assembly is read off the source from this: a line
that the first pass refuses comes before a lack of addresses, and that before a command
without an instruction, wherever in the source they stand.
-/

import HackAssembler.Proofs.FirstPass
import HackAssembler.Proofs.SecondPass

namespace HackAssembler

/-- The complaint about the first variable that finds no address left, when variables
start at `base`. -/
def memoryFault? (table : SymbolTable) (base : Nat) (program : Program) : Option Failure :=
  (program.variableNames table)[maxAddress + 1 - base]?.map .outOfVariableMemory

namespace Session

/-- The session at the start of its second pass. -/
def rewound (session : Session) : Session :=
  { session with line := 0, instructions := 0, listing := #[] }

theorem isAt_rewound (session : Session) : session.rewound.IsAt [] := ⟨rfl, rfl⟩

theorem rewind_of_intact {source : Source} (intact : source.rewindFault = none)
    (session : Session) : rewind source session = .ok () session.rewound := by
  rw [rewind, intact]
  rfl

/-- The session can go through a text: no line is refused, and what the text refers to is
bound. -/
structure Ready (session : Session) (lines : List Bytes) : Prop where
  clean : collect (scanFault? session.config) [] lines = []
  known : ∀ line ∈ lines, ∀ name, (Command.ofLine line).reference? = some name →
    session.table.get? name ≠ none

/-! ## After the first pass -/

theorem config_linked (session : Session) (lines : List Bytes) :
    (session.linked lines).config = session.config := by
  rw [linked, allot_eq Session.config fun _ _ => rfl]
  exact scanned_eq Session.config (fun _ => rfl) (fun _ _ => rfl) session lines

/-- A linked session can go through the text. -/
theorem ready_linked {session : Session} {lines : List Bytes}
    (clean : collect (scanFault? session.config) [] lines = [])
    (fits : ((Program.ofLines lines).variableNames session.table).length ≤ session.room) :
    (session.linked lines).Ready lines := by
  constructor
  · rw [config_linked]
    exact clean
  · intro line member name referred
    obtain ⟨value, bound, -⟩ :=
      exists_get?_linked clean fits (Program.mem_references_of_mem member referred)
    rw [bound]
    nofun

/-- The first pass succeeds exactly if nothing stands in its way. -/
theorem firstPass_eq_ok_iff {source : Source} {canceled : Bool} {session middle : Session} :
    firstPass source canceled session = .ok () middle ↔
      canceled = false ∧ source.readFault = none ∧
        collect (scanFault? session.config) [] source.lines = [] ∧
        ((Program.ofLines source.lines).variableNames session.table).length ≤ session.room ∧
        middle = session.linked source.lines := by
  cases canceled with
  | true =>
      constructor
      · intro done
        cases done
      · rintro ⟨⟨⟩, -⟩
  | false =>
      cases faults : collect (scanFault? session.config) [] source.lines with
      | cons found more =>
          obtain ⟨clean, line, rest, lines, nothing, fault⟩ :=
            exists_first_of_collect_eq_cons faults
          simp [firstPass_of_fault lines nothing fault]
      | nil =>
          cases broken : source.readFault with
          | some fault => simp [firstPass_of_readFault broken faults]
          | none =>
              rw [firstPass_of_clean broken faults]
              cases excess : ((Program.ofLines source.lines).variableNames
                  session.table)[session.room]? with
              | none =>
                  have fits := List.getElem?_eq_none_iff.1 excess
                  simp [fits, eq_comm]
              | some name =>
                  have full := (List.getElem?_eq_some_iff.1 excess).1
                  simp [Nat.not_le_of_lt full]

/-! ## How the second pass ends -/

section SecondPass

variable {source : Source} {session : Session} {sink : Sink}

/-- Either every command has an instruction and the text is listed and written to its
end, or this is so up to a first command that has none. -/
theorem Ready.foldlM_emitLine {lines : List Bytes} (ready : session.Ready lines)
    (unlimited : sink.limit = none) :
    (collect (encodingFault? session.table) [] lines = [] ∧
      ∃ writer, lines.foldlM emitLine { sink } session.rewound =
          .ok writer (session.rewound.recorded [] lines) ∧
        writer.sink.limit = none ∧
        writer.contents = sink.received.toList ++
          outputOf (collect (listed? session.table) [] lines)) ∨
    ∃ failure more soundLines line rest,
      collect (encodingFault? session.table) [] lines = failure :: more ∧
      lines = soundLines ++ line :: rest ∧
      collect (encodingFault? session.table) [] soundLines = [] ∧
      encodingFault? session.table soundLines line = some failure ∧
      lines.foldlM emitLine { sink } session.rewound =
        .error failure
          ((session.rewound.recorded [] soundLines).count (Command.ofLine line)) := by
  have start : ({ sink } : BlockWriter).sink.limit = none := unlimited
  cases faults : collect (encodingFault? session.table) [] lines with
  | nil =>
      obtain ⟨writer, emitted, stillUnlimited, contents⟩ :=
        exists_foldlM_emitLine session.isAt_rewound ready.clean faults start
      refine .inl ⟨rfl, writer, emitted, stillUnlimited, ?_⟩
      rw [contents]
      simp [BlockWriter.contents, rewound]
  | cons failure more =>
      obtain ⟨soundLines, line, rest, rfl, sound, fault⟩ :=
        exists_first_of_collect_eq_cons faults
      have known := ready.known line (List.mem_append_right soundLines List.mem_cons_self)
      have stopped := foldlM_emitLine_of_fault session.isAt_rewound ready.clean known sound
        fault start
      exact .inr ⟨failure, more, soundLines, line, rest, rfl, rfl, sound, fault, stopped⟩

theorem secondPass_of_not_canceled (source : Source) (sink : Sink) (session : Session) :
    secondPass source sink false session =
      (source.lines.foldlM emitLine { sink } >>= fun writer => expectEnd source >>= fun _ =>
        finish writer) session := rfl

/-- A source that can be read to its end is emitted line by line, and then the rest is handed
over. -/
theorem secondPass_of_readable (readable : source.readFault = none) (sink : Sink)
    (session : Session) :
    secondPass source sink false session =
      (source.lines.foldlM emitLine { sink } >>= finish) session := by
  rw [secondPass_of_not_canceled]
  cases emitted : source.lines.foldlM emitLine { sink } session with
  | error failure reached => rw [bind_of_error emitted, bind_of_error emitted]
  | ok writer reached =>
      have ended : expectEnd source reached = .ok () reached := by
        simp only [expectEnd, readable]
      rw [bind_of_ok emitted, bind_of_ok emitted, bind_of_ok ended]

/-- A pass goes through only if it is not canceled, reads its source to the end, and has
nothing refused. -/
theorem exists_writer_of_secondPass {canceled : Bool} {written : Sink} {reached : Session}
    (done : secondPass source sink canceled session = .ok written reached) :
    canceled = false ∧ source.readFault = none ∧
      ∃ writer, source.lines.foldlM emitLine { sink } session = .ok writer reached ∧
        writer.finish = .ok written := by
  cases canceled with
  | true => cases done
  | false =>
      rw [secondPass_of_not_canceled] at done
      obtain ⟨writer, past, emitted, following⟩ := bind_eq_ok_iff.1 done
      obtain ⟨⟨⟩, ended, ends, last⟩ := bind_eq_ok_iff.1 following
      rw [expectEnd] at ends
      split at ends
      · next readable =>
          cases ends
          rw [finish] at last
          split at last
          · cases last
          · next finished =>
              cases last
              exact ⟨rfl, readable, writer, emitted, finished⟩
      · cases ends

/-- A pass that goes through has listed and written the whole text, whichever sink it is
for. -/
theorem secondPass_eq_ok {canceled : Bool} {written : Sink} {reached : Session}
    (done : secondPass source sink canceled session.rewound = .ok written reached) :
    reached = session.rewound.recorded [] source.lines ∧
      written.received.toList = sink.received.toList ++
        outputOf (collect (listed? session.table) [] source.lines) := by
  obtain ⟨-, -, writer, emitted, finished⟩ := exists_writer_of_secondPass done
  obtain ⟨rfl, contents⟩ := foldlM_emitLine_eq_ok session.isAt_rewound emitted
  refine ⟨rfl, ?_⟩
  rw [BlockWriter.finish_eq_ok finished, contents]
  simp [BlockWriter.contents, rewound]

/-- The same of the pass as a whole. -/
theorem secondPass_cases (readable : source.readFault = none)
    (ready : session.Ready source.lines) (unlimited : sink.limit = none) :
    (collect (encodingFault? session.table) [] source.lines = [] ∧
      ∃ written, secondPass source sink false session.rewound =
          .ok written (session.rewound.recorded [] source.lines) ∧
        written.received.toList = sink.received.toList ++
          outputOf (collect (listed? session.table) [] source.lines)) ∨
    ∃ failure more soundLines line rest,
      collect (encodingFault? session.table) [] source.lines = failure :: more ∧
      source.lines = soundLines ++ line :: rest ∧
      collect (encodingFault? session.table) [] soundLines = [] ∧
      encodingFault? session.table soundLines line = some failure ∧
      secondPass source sink false session.rewound =
        .error failure
          ((session.rewound.recorded [] soundLines).count (Command.ofLine line)) := by
  rw [secondPass_of_readable readable]
  rcases ready.foldlM_emitLine unlimited with
    ⟨sound, writer, emitted, stillUnlimited, contents⟩ |
    ⟨failure, more, soundLines, line, rest, faults, lines, sound, fault, stopped⟩
  · obtain ⟨written, finished, received⟩ := BlockWriter.exists_finish stillUnlimited
    refine .inl ⟨sound, written, ?_, received.trans contents⟩
    rw [bind_of_ok emitted]
    simp only [finish, finished]
  · exact .inr ⟨failure, more, soundLines, line, rest, faults, lines, sound, fault,
      bind_of_error stopped⟩

/-- The second pass fails at the first command that has no instruction, and nowhere
else. -/
theorem failure?_secondPass (readable : source.readFault = none)
    (ready : session.Ready source.lines) (unlimited : sink.limit = none) :
    failure? (secondPass source sink false) session.rewound =
      (collect (encodingFault? session.table) [] source.lines).head? := by
  rcases secondPass_cases readable ready unlimited with
    ⟨sound, written, done, -⟩ | ⟨failure, more, _, _, _, faults, _, _, _, stopped⟩
  · rw [failure?_of_ok done, sound]
    rfl
  · rw [failure?_of_error stopped, faults]
    rfl

end SecondPass

/-! ## How an assembly ends -/

section Outcome

variable {source : Source} {session middle reached : Session} {sink : Sink}

/-- The first pass over a readable source fails at a line that it refuses, or else for
lack of an address. -/
theorem failure?_firstPass (readable : source.readFault = none) :
    failure? (firstPass source false) session =
      (collect (scanFault? session.config) [] source.lines).head?.or
        (memoryFault? session.table session.nextVariable.toNat
          (Program.ofLines source.lines)) := by
  cases faults : collect (scanFault? session.config) [] source.lines with
  | cons found more =>
      obtain ⟨clean, line, rest, lines, nothing, fault⟩ :=
        exists_first_of_collect_eq_cons faults
      rw [failure?_of_error (firstPass_of_fault lines nothing fault)]
      rfl
  | nil =>
      have passed := firstPass_of_clean readable faults
      rw [memoryFault?, ← room]
      cases excess : ((Program.ofLines source.lines).variableNames
          session.table)[session.room]? with
      | some name =>
          rw [excess] at passed
          rw [failure?_of_error passed]
          rfl
      | none =>
          rw [excess] at passed
          rw [failure?_of_ok passed]
          rfl

theorem assemble_of_valid (valid : session.config.validate = .ok ()) (canceled : Bool) :
    assemble source sink canceled session =
      (firstPass source canceled >>= fun _ => rewind source >>= fun _ =>
        secondPass source sink canceled) session := by
  have checked : checkConfig session = .ok () session := by
    simp only [checkConfig, valid]
  rw [assemble, bind_of_ok checked]

/-- With its first pass done, an assembly goes on with the second. -/
theorem assemble_of_firstPass {canceled : Bool} (valid : session.config.validate = .ok ())
    (intact : source.rewindFault = none)
    (passed : firstPass source canceled session = .ok () middle) :
    assemble source sink canceled session = secondPass source sink canceled middle.rewound := by
  rw [assemble_of_valid valid, bind_of_ok passed, bind_of_ok (rewind_of_intact intact middle)]

/-- An assembly ends before its second pass, in a way that does not depend on the sink and with
the listing untouched, or it ends as its second pass does. -/
theorem assemble_cases (source : Source) (canceled : Bool) (session : Session) :
    (∃ failure reached, reached.listing = session.listing ∧
      ∀ sink, assemble source sink canceled session = .error failure reached) ∨
    ∃ middle, firstPass source canceled session = .ok () middle ∧
      ∀ sink, assemble source sink canceled session =
        secondPass source sink canceled middle.rewound := by
  cases valid : session.config.validate with
  | error error =>
      have refused : checkConfig session = .error (.config error) session := by
        simp only [checkConfig, valid]
      exact .inl ⟨_, session, rfl, fun sink => bind_of_error refused⟩
  | ok value =>
      have kept := listing_firstPass source canceled session
      cases passed : firstPass source canceled session with
      | error failure reached =>
          rw [after_of_error passed] at kept
          refine .inl ⟨failure, reached, kept, fun sink => ?_⟩
          rw [assemble_of_valid valid, bind_of_error passed]
      | ok value middle =>
          rw [after_of_ok passed] at kept
          cases intact : source.rewindFault with
          | none =>
              exact .inr ⟨middle, rfl, fun sink => assemble_of_firstPass valid intact passed⟩
          | some fault =>
              have stuck : rewind source middle = .error (.rewindFailed fault) middle := by
                rw [rewind, intact]
              refine .inl ⟨.rewindFailed fault, middle, kept, fun sink => ?_⟩
              rw [assemble_of_valid valid, bind_of_ok passed, bind_of_error stuck]

/-- An assembly succeeds only by way of both passes. -/
theorem exists_passes_of_assemble {canceled : Bool} {written : Sink}
    (done : assemble source sink canceled session = .ok written reached) :
    ∃ middle, firstPass source canceled session = .ok () middle ∧
      secondPass source sink canceled middle.rewound = .ok written reached := by
  obtain ⟨failure, stopped, -, fails⟩ | ⟨middle, passed, continues⟩ :=
    assemble_cases source canceled session
  · cases (fails sink).symm.trans done
  · exact ⟨middle, passed, (continues sink).symm.trans done⟩

/-- What an assembly fails with, if it fails: the first line that is too long, has no
proper form or declares a label beyond the last address; else the first variable for
which there is no address; else the first command that has no instruction under the table
that the first pass leaves. -/
theorem failure?_assemble_eq (valid : session.config.validate = .ok ())
    (text : Bytes) (unlimited : sink.limit = none) :
    failure? (assemble { content := text } sink false) session =
      (collect (scanFault? session.config) [] (Line.split text)).head?.or
        ((memoryFault? session.table session.nextVariable.toNat
            (Program.ofLines (Line.split text))).or
          (collect (encodingFault?
              (after (firstPass { content := text } false) session).table) []
            (Line.split text)).head?) := by
  have readable : ({ content := text } : Source).readFault = none := rfl
  have first : failure? (firstPass { content := text } false) session =
      (collect (scanFault? session.config) [] (Line.split text)).head?.or
        (memoryFault? session.table session.nextVariable.toNat
          (Program.ofLines (Line.split text))) :=
    failure?_firstPass readable
  rw [← Option.or_assoc, ← first]
  cases result : firstPass { content := text } false session with
  | error failure reached =>
      rw [failure?_of_error result,
        failure?_of_error ((assemble_of_valid valid false).trans (bind_of_error result))]
      rfl
  | ok value middle =>
      obtain ⟨-, -, clean, fits, rfl⟩ := firstPass_eq_ok_iff.1 result
      rw [failure?_of_ok result, after_of_ok result, Option.none_or, failure?,
        assemble_of_firstPass valid rfl result]
      exact failure?_secondPass readable (ready_linked clean fits) unlimited

/-- The computation `D=X` has no instruction, and is complained about only where the
first pass finds nothing to complain about. -/
theorem failure?_assemble_precedence :
    failure? (assemble { content := ascii "D=X\n@9x\n" } {} false) (new .default) =
        some (.syntaxError ⟨2, ascii "@9x", ascii "wrong decimal value format"⟩) ∧
      failure? (assemble { content := ascii "@x\nD=X\n@y\n" } {} false) (new ⟨0, 0x7fff⟩) =
        some (.outOfVariableMemory (ascii "y")) ∧
      failure? (assemble { content := ascii "@x\nD=X\n@y\n" } {} false) (new .default) =
        some (.syntaxError
          ⟨2, ascii "D=X", ascii "wrong c command of comp code format near D=X"⟩) :=
  ⟨(failure?_assemble_eq rfl _ rfl).trans (by decide +kernel),
    (failure?_assemble_eq rfl _ rfl).trans (by decide +kernel),
    (failure?_assemble_eq rfl _ rfl).trans (by decide +kernel)⟩

end Outcome

end Session

end HackAssembler
