/-
# Sinks that fill up

What a run makes of a sink that takes only so many bytes. Output goes through a buffer, so a
refusal comes later than the word that is too much, and possibly only at the end. It comes all
the same: a run is set beside the same run without a limit, and as long as what the latter has
handed over fits, the two differ in nothing but the limit. The bytes that are handed over only
ever grow, so what fits at the end has fitted all along, and what does not fit at the end was
refused at some point.

Nothing is assumed about the size of a block, or about the session that a pass starts in.
-/

import HackAssembler.Proofs.Assembly

namespace HackAssembler

/-! ## Writing -/

namespace Sink

/-- The same sink, which refuses to hold more than this many bytes. -/
def limited (sink : Sink) (limit : Nat) (fault : Bytes) : Sink :=
  { sink with limit := some limit, fault }

variable {sink next : Sink} {chunk : Array UInt8}

/-- What a sink has taken a limited one takes if there is place for it. -/
theorem accept_limited (taken : sink.accept chunk = .ok next) (limit : Nat) (fault : Bytes) :
    (sink.limited limit fault).accept chunk =
      if next.received.size ≤ limit then .ok (next.limited limit fault) else .error fault := by
  obtain rfl := BlockWriter.accept_eq_ok taken
  by_cases fits : sink.received.size + chunk.size ≤ limit
  · simp [accept, admits, limited, fits]
  · simp [accept, admits, limited, fits]

theorem size_le_of_accept (taken : sink.accept chunk = .ok next) :
    sink.received.size ≤ next.received.size := by
  obtain rfl := BlockWriter.accept_eq_ok taken
  simp only [Array.size_append]
  omega

end Sink

namespace BlockWriter

/-- The number of bytes that were handed over. -/
def handed (writer : BlockWriter) : Nat := writer.sink.received.size

/-- The same writer before a sink that refuses to hold more than this many bytes. -/
def limited (writer : BlockWriter) (limit : Nat) (fault : Bytes) : BlockWriter :=
  { writer with sink := writer.sink.limited limit fault }

variable {writer next : BlockWriter} {sink : Sink} {text : Bytes} {limit : Nat}

/-- A write keeps all it has to write, or it hands over the blocks that are full. -/
theorem write_cases (written : writer.write text = .ok next) :
    (due (writer.pending ++ text).size = 0 ∧ next = ⟨writer.sink, writer.pending ++ text⟩) ∨
    ∃ full rest after, writer.sink.accept full = .ok after ∧ next = ⟨after, rest⟩ ∧
      ∀ sink, (⟨sink, writer.pending⟩ : BlockWriter).write text =
        (sink.accept full).map (⟨·, rest⟩) := by
  obtain ⟨sink, pending⟩ := writer
  by_cases nothing : due (pending ++ text).size = 0
  · simp only [write, nothing, if_true] at written
    cases written
    exact .inl ⟨nothing, rfl⟩
  · simp only [write, nothing, if_false] at written
    cases taken : sink.accept ((pending ++ text).extract 0 (due (pending ++ text).size)) with
    | error fault =>
        rw [taken] at written
        cases written
    | ok after =>
        rw [taken] at written
        cases written
        refine .inr ⟨_, _, after, taken, rfl, ?_⟩
        intro sink
        simp only [write, nothing, if_false]

theorem handed_le_of_write (written : writer.write text = .ok next) :
    writer.handed ≤ next.handed := by
  obtain ⟨-, rfl⟩ | ⟨full, rest, after, taken, rfl, -⟩ := write_cases written
  · exact Nat.le_refl _
  · exact Sink.size_le_of_accept taken

/-- A write before a limited sink goes through exactly if what is handed over by then fits. -/
theorem write_limited (written : writer.write text = .ok next) (fault : Bytes)
    (within : writer.handed ≤ limit) :
    (writer.limited limit fault).write text =
      if next.handed ≤ limit then .ok (next.limited limit fault) else .error fault := by
  obtain ⟨nothing, rfl⟩ | ⟨full, rest, after, taken, rfl, writes⟩ := write_cases written
  · have fits : (⟨writer.sink, writer.pending ++ text⟩ : BlockWriter).handed ≤ limit := within
    rw [if_pos fits]
    exact if_pos nothing
  · rw [limited, writes, Sink.accept_limited taken]
    show Except.map _ (if after.received.size ≤ limit then _ else _) =
      if after.received.size ≤ limit then _ else _
    split
    · rfl
    · rfl

theorem handed_le_of_finish (finished : writer.finish = .ok sink) :
    writer.handed ≤ sink.received.size := by
  rw [finish] at finished
  split at finished
  · cases finished
    exact Nat.le_refl _
  · exact Sink.size_le_of_accept finished

/-- The same of what is left at the end. Nothing has to be left, and then nothing is refused. -/
theorem finish_limited (finished : writer.finish = .ok sink) (fault : Bytes)
    (within : writer.handed ≤ limit) :
    (writer.limited limit fault).finish =
      if sink.received.size ≤ limit then .ok (sink.limited limit fault) else .error fault := by
  rw [finish] at finished
  split at finished
  · next nothing =>
      cases finished
      rw [if_pos (show writer.sink.received.size ≤ limit from within)]
      exact if_pos nothing
  · next something =>
      rw [← Sink.accept_limited finished]
      exact if_neg something

end BlockWriter

namespace Session

variable {source : Source} {session reached final : Session} {writer next : BlockWriter}
  {limit : Nat} {fault : Bytes}

/-! ## Passes before a limited sink -/

/-- One session knows the same symbols as another, and has listed at most what that one has. -/
structure Trails (behind ahead : Session) : Prop where
  table : behind.table = ahead.table
  nextVariable : behind.nextVariable = ahead.nextVariable
  listing : behind.listing.toList <+: ahead.listing.toList

theorem Trails.refl (session : Session) : session.Trails session := ⟨rfl, rfl, List.prefix_rfl⟩

theorem Trails.trans {first second third : Session} (one : first.Trails second)
    (other : second.Trails third) : first.Trails third :=
  ⟨one.table.trans other.table, one.nextVariable.trans other.nextVariable,
    one.listing.trans other.listing⟩

/-- A step that has led from `writer` to `next` does the same before a limited sink as long as
what is handed over by then fits. Otherwise it fails, and what is left behind trails what the
step has led to. -/
structure WritesAlike (step : BlockWriter → SessionM BlockWriter) (writer next : BlockWriter)
    (session reached : Session) : Prop where
  grows : writer.handed ≤ next.handed
  trails : session.Trails reached
  fits : ∀ (limit : Nat) (fault : Bytes), next.handed ≤ limit →
    step (writer.limited limit fault) session = .ok (next.limited limit fault) reached
  refused : ∀ (limit : Nat) (fault : Bytes), writer.handed ≤ limit → limit < next.handed →
    ∃ stopped, step (writer.limited limit fault) session = .error (.writeFailed fault) stopped ∧
      stopped.Trails reached

namespace WritesAlike

/-- A step may do other things first, as long as they do not depend on the writer. -/
theorem of_eq {step body : BlockWriter → SessionM BlockWriter} {middle : Session}
    (same : ∀ writer, step writer session = body writer middle)
    (trails : session.Trails middle) (rest : WritesAlike body writer next middle reached) :
    WritesAlike step writer next session reached where
  grows := rest.grows
  trails := trails.trans rest.trails
  fits := by
    intro limit fault fits
    rw [same]
    exact rest.fits limit fault fits
  refused := by
    intro limit fault within beyond
    rw [same]
    exact rest.refused limit fault within beyond

/-- Of two steps one after the other, the first or the second is refused. -/
theorem bind {step body : BlockWriter → SessionM BlockWriter} {middle : BlockWriter}
    (first : WritesAlike step writer middle session reached)
    (rest : WritesAlike body middle next reached final) :
    WritesAlike (fun writer => step writer >>= body) writer next session final where
  grows := first.grows.trans rest.grows
  trails := first.trails.trans rest.trails
  fits := by
    intro limit fault fits
    rw [bind_of_ok (first.fits limit fault (rest.grows.trans fits))]
    exact rest.fits limit fault fits
  refused := by
    intro limit fault within beyond
    by_cases fits : middle.handed ≤ limit
    · rw [bind_of_ok (first.fits limit fault fits)]
      exact rest.refused limit fault fits beyond
    · obtain ⟨stopped, fails, behind⟩ :=
        first.refused limit fault within (Nat.lt_of_not_le fits)
      exact ⟨stopped, bind_of_error fails, behind.trans rest.trails⟩

/-- Where nothing is written, nothing is refused. -/
theorem pure (writer : BlockWriter) (session : Session) :
    WritesAlike Pure.pure writer writer session session where
  grows := Nat.le_refl _
  trails := .refl session
  fits _ _ _ := rfl
  refused _ _ within beyond := absurd within (Nat.not_le_of_lt beyond)

end WritesAlike

theorem writesAlike_emit {statement : Statement} {instruction : Instruction}
    (done : emit writer statement instruction session = .ok next reached) :
    WritesAlike (emit · statement instruction) writer next session reached := by
  rw [emit] at done
  split at done
  · cases done
  · next written =>
      cases done
      have grows := BlockWriter.handed_le_of_write written
      refine ⟨grows, ⟨rfl, rfl, by simp⟩, ?_, ?_⟩
      · intro limit fault fits
        have writes := BlockWriter.write_limited written fault (grows.trans fits)
        rw [if_pos fits] at writes
        simp only [emit, writes]
      · intro limit fault within beyond
        have refuses := BlockWriter.write_limited written fault within
        rw [if_neg (Nat.not_le_of_lt beyond)] at refuses
        refine ⟨session, ?_, rfl, rfl, by simp⟩
        simp only [emit, refuses]

theorem writesAlike_emitLine {line : Bytes}
    (done : emitLine writer line session = .ok next reached) :
    WritesAlike (emitLine · line) writer next session reached := by
  obtain ⟨short, wellFormed⟩ := fits_of_emitLine done
  rw [emitLine_of_fits writer short wellFormed] at done
  refine .of_eq (fun writer => emitLine_of_fits writer short wellFormed)
    ⟨rfl, rfl, List.prefix_rfl⟩ ?_
  cases encoded : (Command.ofLine line).instruction? session.table with
  | none =>
      rw [encoded] at done
      cases done
      exact .pure _ _
  | some result =>
      rw [encoded] at done
      cases result with
      | error error => cases error <;> cases done
      | ok instruction => exact writesAlike_emit done

/-- What is true of each line is true of a text. -/
theorem writesAlike_foldlM_emitLine {lines : List Bytes}
    (done : lines.foldlM emitLine writer session = .ok next reached) :
    WritesAlike (lines.foldlM emitLine ·) writer next session reached := by
  induction lines generalizing writer session with
  | nil =>
      cases done
      exact .pure _ _
  | cons line lines ih =>
      simp only [List.foldlM_cons] at done ⊢
      obtain ⟨middle, past, first, rest⟩ := bind_eq_ok_iff.1 done
      exact (writesAlike_emitLine first).bind (ih rest)

/-! ## Whole runs -/

/-- How a run ends before a sink that holds at most `limit` bytes and reports `fault`, if
without a limit it writes `output` and leads to `final`. It succeeds exactly if the output fits,
and has then delivered all of it. Otherwise it reports the fault, and leaves the symbols of the
run without a limit and a beginning of its listing. -/
structure EndsWithin (limit : Nat) (fault output : Bytes) (final : Session)
    (result : EStateM.Result Failure Session Sink) : Prop where
  succeeds_iff : (∃ sink reached, result = .ok sink reached) ↔ output.length ≤ limit
  delivers : ∀ sink reached, result = .ok sink reached →
    sink.received.toList = output ∧ reached = final
  refused : limit < output.length → ∃ failure reached, result = .error failure reached ∧
    failure = .writeFailed fault ∧ failure.message = ascii "write output: " ++ fault ∧
    reached.table = final.table ∧ reached.nextVariable = final.nextVariable ∧
    reached.listing.toList <+: final.listing.toList

theorem endsWithin_of_delivered {sink : Sink} (fits : sink.received.size ≤ limit) :
    EndsWithin limit fault sink.received.toList final (.ok (sink.limited limit fault) final) where
  succeeds_iff := by simpa using fits
  delivers := by
    intro _ _ same
    cases same
    exact ⟨rfl, rfl⟩
  refused beyond := by
    rw [Array.length_toList] at beyond
    exact absurd fits (Nat.not_le_of_lt beyond)

theorem endsWithin_of_refused {output : Bytes} (beyond : limit < output.length)
    (trails : reached.Trails final) :
    EndsWithin limit fault output final (.error (.writeFailed fault) reached) where
  succeeds_iff := by simp [Nat.not_le_of_lt beyond]
  delivers := nofun
  refused _ :=
    ⟨_, reached, rfl, rfl, rfl, trails.table, trails.nextVariable, trails.listing⟩

/-- A second pass ends within a limit, wherever it starts. -/
theorem endsWithin_secondPass {canceled : Bool} {written : Sink}
    (done : secondPass source {} canceled session = .ok written final) (limit : Nat)
    (fault : Bytes) :
    EndsWithin limit fault written.received.toList final
      (secondPass source { limit := some limit, fault } canceled session) := by
  obtain ⟨rfl, readable, writer, emitted, finished⟩ := exists_writer_of_secondPass done
  rw [secondPass_of_readable readable]
  -- The writer of the limited run is the one of the unlimited run with the limit put on it.
  have start : ({ sink := { limit := some limit, fault } } : BlockWriter) =
      ({ sink := {} } : BlockWriter).limited limit fault := rfl
  have empty : ({ sink := {} } : BlockWriter).handed ≤ limit := Nat.zero_le limit
  have alike := writesAlike_foldlM_emitLine emitted
  have grows := BlockWriter.handed_le_of_finish finished
  rw [start]
  by_cases past : writer.handed ≤ limit
  · rw [bind_of_ok (alike.fits limit fault past), finish,
      BlockWriter.finish_limited finished fault past]
    by_cases fits : written.received.size ≤ limit
    · rw [if_pos fits]
      exact endsWithin_of_delivered fits
    · rw [if_neg fits]
      exact endsWithin_of_refused (by simpa using fits) (.refl final)
  · obtain ⟨stopped, fails, trails⟩ :=
      alike.refused limit fault empty (Nat.lt_of_not_le past)
    rw [bind_of_error fails]
    refine endsWithin_of_refused ?_ trails
    rw [Array.length_toList]
    omega

/-- Success is never reported for an output that was cut short. A pass, or a whole assembly,
that writes its output to a sink without a limit also writes it to any sink that has the place
for all of it. Before a smaller sink it fails with the fault of the sink, however the output
falls into blocks, and leaves what it knows about symbols as the whole run does, and a beginning
of the listing. -/
theorem endsWithin_of_unlimited (session : Session) (source : Source) (canceled : Bool)
    (limit : Nat) (fault : Bytes) :
    (∀ written final, secondPass source {} canceled session = .ok written final →
      EndsWithin limit fault written.received.toList final
        (secondPass source { limit := some limit, fault } canceled session)) ∧
    ∀ written final, assemble source {} canceled session = .ok written final →
      EndsWithin limit fault written.received.toList final
        (assemble source { limit := some limit, fault } canceled session) := by
  constructor
  · intro written final done
    exact endsWithin_secondPass done limit fault
  · intro written final done
    obtain ⟨failure, stopped, -, fails⟩ | ⟨middle, -, continues⟩ :=
      assemble_cases source canceled session
    · cases (fails {}).symm.trans done
    · rw [continues] at done ⊢
      exact endsWithin_secondPass done limit fault

/-- Four words take 68 bytes. A sink for 67 bytes lacks the place for the last line feed, and
one for 68 bytes has it. -/
theorem endsWithin_of_unlimited_lastByte :
    ∃ (session : Session) (source : Source) (fault : Bytes) (written emitted : Sink)
      (final reached : Session),
      session = new .default ∧ source = { content := ascii "@7\nM=1\n(L)\n@8\n0;JMP\n" } ∧
      assemble source {} false session = .ok written final ∧
      secondPass source {} false session = .ok emitted reached ∧
      written.received.toList.length = 68 ∧
      (∃ sink, assemble source { limit := some 68, fault } false session = .ok sink final ∧
        sink.received.toList = written.received.toList) ∧
      failure? (assemble source { limit := some 67, fault } false) session =
        some (.writeFailed fault) ∧
      EndsWithin 67 fault emitted.received.toList reached
        (secondPass source { limit := some 67, fault } false session) := by
  have assembles : ∃ written final, assemble { content := ascii "@7\nM=1\n(L)\n@8\n0;JMP\n" } {}
      false (new .default) = .ok written final ∧ written.received.toList.length = 68 := by
    have succeeds : failure? (assemble { content := ascii "@7\nM=1\n(L)\n@8\n0;JMP\n" } {} false)
        (new .default) = none := by
      decide +kernel
    have size : ((assemble { content := ascii "@7\nM=1\n(L)\n@8\n0;JMP\n" } {} false).run'
        (new .default)).map (·.received.toList.length) = some 68 := by
      decide +kernel
    obtain ⟨written, assembled⟩ := exists_ok_of_failure?_eq_none succeeds
    delta EStateM.run' EStateM.run at size
    rw [assembled] at size
    exact ⟨written, _, assembled, Option.some.inj size⟩
  have passes : failure? (secondPass { content := ascii "@7\nM=1\n(L)\n@8\n0;JMP\n" } {} false)
      (new .default) = none := by
    decide +kernel
  generalize new .default = session,
    ({ content := ascii "@7\nM=1\n(L)\n@8\n0;JMP\n" } : Source) = source at assembles passes ⊢
  obtain ⟨written, final, assembled, length⟩ := assembles
  obtain ⟨emitted, passed⟩ := exists_ok_of_failure?_eq_none passes
  obtain ⟨-, enough⟩ := endsWithin_of_unlimited session source false 68 (ascii "full")
  obtain ⟨pass, small⟩ := endsWithin_of_unlimited session source false 67 (ascii "full")
  obtain ⟨sink, reached, done⟩ := (enough _ _ assembled).succeeds_iff.2 (Nat.le_of_eq length)
  obtain ⟨same, rfl⟩ := (enough _ _ assembled).delivers sink reached done
  obtain ⟨_, _, refused, rfl, -⟩ := (small _ _ assembled).refused (by omega)
  exact ⟨session, source, ascii "full", written, emitted, _, _, rfl, rfl, assembled, passed,
    length, ⟨sink, done, same⟩, failure?_of_error refused, pass _ _ passed⟩

end Session

end HackAssembler
