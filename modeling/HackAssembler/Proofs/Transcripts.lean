/-
# Transcripts and sinks

A transcript is made without a limit on the output, and stands for the run before every limit.
Where a run ends by itself, it has handed over all blocks of its output that are full, which are
the blocks of the transcript. So a sink that has no place for them has refused one of them
before the run came to its end, and a sink that has place for them has let the run come to the
same end. A temporary file on a full device is such a sink.
-/

import HackAssembler.Proofs.Calls
import HackAssembler.Proofs.Capacity

namespace HackAssembler

/-! ## Blocks -/

namespace BlockWriter

variable {writer next : BlockWriter} {text : Bytes}

theorem length_contents (writer : BlockWriter) :
    writer.contents.length = writer.handed + writer.pending.size := by
  simp [contents, handed]

theorem due_le (total : Nat) : due total ≤ total := by
  rw [due]
  exact (Nat.div_mul_le_self _ _).trans (Nat.sub_le _ _)

/-- Whole blocks that are out of the way do not change what is due of the rest, as long as there
is a rest. -/
theorem due_add {earlier rest total : Nat} (settled : earlier = due (earlier + rest))
    (more : rest ≤ total) : earlier + due total = due (earlier + total) := by
  simp only [due, blockSize] at settled ⊢
  omega

/-- What is due has been handed over, and nothing else. -/
def IsSettled (writer : BlockWriter) : Prop := writer.handed = due writer.contents.length

/-- A write settles what is due by then. -/
theorem IsSettled.write (settled : writer.IsSettled) (written : writer.write text = .ok next) :
    next.IsSettled := by
  obtain ⟨sink, pending⟩ := writer
  have size : (pending ++ text).size = pending.size + text.length := by
    rw [← Array.length_toList, Array.toList_appendList, List.length_append, Array.length_toList]
  have sum : sink.received.size + due (pending ++ text).size =
      due (sink.received.size + (pending ++ text).size) := by
    rw [IsSettled, length_contents] at settled
    exact due_add settled (by rw [size]; exact Nat.le_add_right _ _)
  rw [IsSettled, length_contents]
  simp only [BlockWriter.write] at written
  split at written
  · next nothing =>
      cases written
      rw [nothing] at sum
      exact sum
  · cases taken : sink.accept ((pending ++ text).extract 0 (due (pending ++ text).size)) with
    | error fault =>
        rw [taken] at written
        cases written
    | ok after =>
        rw [taken] at written
        cases written
        obtain rfl := accept_eq_ok taken
        have part := due_le (pending ++ text).size
        simp only [handed, Array.size_append, Array.size_extract, Nat.min_self, Nat.sub_zero,
          Nat.min_eq_left part]
        rw [Nat.add_assoc, Nat.add_sub_cancel' part]
        exact sum

end BlockWriter

namespace Session

variable {source : Source} {session reached : Session} {writer next : BlockWriter}

theorem isSettled_emitLine {line : Bytes} (settled : writer.IsSettled)
    (done : emitLine writer line session = .ok next reached) : next.IsSettled := by
  obtain ⟨short, wellFormed⟩ := fits_of_emitLine done
  rw [emitLine_of_fits writer short wellFormed] at done
  cases encoded : (Command.ofLine line).instruction? session.table with
  | none =>
      rw [encoded] at done
      cases done
      exact settled
  | some result =>
      rw [encoded] at done
      cases result with
      | error error => cases error <;> cases done
      | ok instruction =>
          simp only [emit] at done
          split at done
          · cases done
          · next written =>
              cases done
              exact settled.write written

/-- Whatever lines a pass has gone past, the blocks that are due are handed over. -/
theorem isSettled_foldlM_emitLine {lines : List Bytes} (settled : writer.IsSettled)
    (done : lines.foldlM emitLine writer session = .ok next reached) : next.IsSettled := by
  induction lines generalizing writer session with
  | nil =>
      cases done
      exact settled
  | cons line lines ih =>
      rw [List.foldlM_cons] at done
      obtain ⟨middle, past, first, rest⟩ := bind_eq_ok_iff.1 done
      exact ih (isSettled_emitLine settled first) rest

/-! ## Runs before a limited sink -/

/-- A pass that meets a command without an instruction ends there if there is place for the
blocks that are due by then. Otherwise one of them was refused before. -/
theorem failure?_secondPass_of_fault {soundLines rest : List Bytes} {line : Bytes}
    {failure : Failure} (readable : source.readFault = none) (ready : session.Ready source.lines)
    (lines : source.lines = soundLines ++ line :: rest)
    (sound : collect (encodingFault? session.table) [] soundLines = [])
    (unencoded : encodingFault? session.table soundLines line = some failure) (limit : Nat)
    (fault : Bytes) :
    failure? (secondPass source { limit := some limit, fault } false) session.rewound =
      some (if BlockWriter.due (outputOf (collect (listed? session.table) [] soundLines)).length ≤
        limit then failure else .writeFailed fault) := by
  have clean := ready.clean
  rw [lines] at clean
  have cleanLine := look_eq_none_of_collect_eq_nil clean
  have known := ready.known line (by simp [lines])
  rw [collect_append] at clean
  have unlimited : ({ sink := {} } : BlockWriter).sink.limit = none := rfl
  have untouched : ({ sink := {} } : BlockWriter).IsSettled := rfl
  obtain ⟨writer, emitted, -, contents⟩ := exists_foldlM_emitLine session.isAt_rewound
    (List.append_eq_nil_iff.1 clean).1 sound unlimited
  have settled : writer.handed = BlockWriter.due writer.contents.length :=
    isSettled_foldlM_emitLine untouched emitted
  have output : writer.contents = outputOf (collect (listed? session.table) [] soundLines) :=
    contents
  rw [output] at settled
  rw [← settled]
  -- the limited pass has the same writer with the limit put on it, as long as nothing is refused
  have start : ({ sink := { limit := some limit, fault } } : BlockWriter) =
      ({ sink := {} } : BlockWriter).limited limit fault := rfl
  have empty : ({ sink := {} } : BlockWriter).handed ≤ limit := Nat.zero_le limit
  have alike := writesAlike_foldlM_emitLine emitted
  rw [failure?, secondPass_of_readable readable, lines, start, ← failure?]
  by_cases fits : writer.handed ≤ limit
  · have stops : (line :: rest).foldlM emitLine (writer.limited limit fault)
        (session.rewound.recorded [] soundLines) = .error failure _ :=
      bind_of_error (emitLine_recorded_of_fault _ session.isAt_rewound cleanLine known unencoded)
    rw [if_pos fits]
    apply failure?_of_error
    apply bind_of_error
    rw [foldlM_append_of_ok (alike.fits limit fault fits)]
    exact stops
  · obtain ⟨stopped, refused, -⟩ := alike.refused limit fault empty (Nat.lt_of_not_le fits)
    rw [if_neg fits]
    apply failure?_of_error
    apply bind_of_error
    rw [List.foldlM_append]
    exact bind_of_error refused

/-- Of an assembly that fails, the transcript has the blocks that are due. -/
theorem transcript_of_error {config : Config} {failure : Failure} {output : Bytes}
    (failed : assemble source {} false (new config) = .error failure reached)
    (emitted : outputOf reached.listing.toList = output) :
    transcript source config = ⟨output.take (BlockWriter.due output.length), .error failure⟩ := by
  rw [transcript, failed, ← emitted]

/-- How a run ends, without what it has written. -/
def outcomeOf : EStateM.Result Failure Session Sink → Except Failure Session
  | .ok _ final => .ok final
  | .error failure _ => .error failure

theorem outcomeOf_eq_error {step : SessionM Sink} {failure : Failure}
    (failed : failure? step session = some failure) : outcomeOf (step session) = .error failure := by
  cases result : step session with
  | ok value reached =>
      rw [failure?_of_ok result] at failed
      cases failed
  | error other reached =>
      rw [failure?_of_error result] at failed
      cases failed
      rfl

/-- Before a limited sink, an assembly ends as its transcript says if there is place for what it
hands over, and otherwise with the fault of the sink. -/
theorem outcomeOf_assemble (source : Source) (config : Config) (limit : Nat) (fault : Bytes) :
    outcomeOf (assemble source { limit := some limit, fault } false (new config)) =
      if (transcript source config).handed.length ≤ limit then (transcript source config).outcome
      else .error (.writeFailed fault) := by
  obtain ⟨failure, reached, listing, fails⟩ | ⟨middle, passed, continues⟩ :=
    assemble_cases source false (new config)
  · -- nothing is emitted before the second pass
    have nothing : outputOf reached.listing.toList = [] := by
      rw [listing]
      rfl
    rw [transcript_of_error (fails {}) nothing, fails]
    rfl
  · obtain ⟨-, readable, clean, fits, linked⟩ := firstPass_eq_ok_iff.1 passed
    have ready : middle.Ready source.lines := by
      rw [linked]
      exact ready_linked clean fits
    rw [continues]
    have unlimited : ({} : Sink).limit = none := rfl
    obtain ⟨-, written, done, -⟩ | ⟨failure, -, soundLines, line, rest, -, lines, sound, unencoded,
        stopped⟩ := secondPass_cases readable ready unlimited
    · have ends := endsWithin_secondPass done limit fault
      rw [transcript, continues, done]
      by_cases fits : written.received.toList.length ≤ limit
      · obtain ⟨sink, reached, ended⟩ := ends.succeeds_iff.2 fits
        obtain ⟨-, rfl⟩ := ends.delivers sink reached ended
        rw [ended, if_pos fits]
        rfl
      · obtain ⟨_, reached, ended, rfl, -⟩ := ends.refused (Nat.lt_of_not_le fits)
        rw [ended, if_neg fits]
        rfl
    · have ends := failure?_secondPass_of_fault readable ready lines sound unencoded limit fault
      have listing : (middle.rewound.recorded [] soundLines).listing.toList =
          collect (listed? middle.table) [] soundLines :=
        toList_listing_recorded middle.rewound [] soundLines
      rw [transcript_of_error ((continues {}).trans stopped) (congrArg outputOf listing),
        outcomeOf_eq_error ends]
      simp only [List.length_take]
      rw [Nat.min_eq_left (BlockWriter.due_le _)]
      split
      · rfl
      · rfl

end Session

/-! ## Files as sinks -/

section Files

variable {world : World} {path : Bytes} {place : Place} {limit : Nat}

/-- An empty file takes a text for which the device has the place. -/
theorem World.write_of_empty (found : world.locate path = .ok place)
    (file : world.tree.node? place = some (.file []))
    (capacity : world.device.capacity = some limit) (text : Bytes) :
    (world.write path text).1 = if text.length ≤ limit then .ok () else .error Device.full := by
  have whole : min limit text.length = text.length ↔ text.length ≤ limit := by omega
  simp only [write, found, file, Device.taken, capacity, List.length_nil, Nat.sub_zero,
    List.length_take, whole]

/-- A file that was filled gives what the transcript says, unless it has refused to take it. -/
theorem fst_run_fill (path : Bytes) (transcript : Transcript) (world : World) :
    ((fill (m := WorldM) path transcript).run world).1 =
      if transcript.handed.isEmpty then transcript.outcome.mapError .assemble
      else match (world.write path transcript.handed).1 with
        | .error fault => .error (.write path fault)
        | .ok () => transcript.outcome.mapError .assemble := by
  obtain ⟨handed, outcome⟩ := transcript
  rw [fill, handOver, ExceptT.run_bind]
  by_cases nothing : handed.isEmpty = true
  · rw [if_pos nothing, if_pos nothing]
    cases outcome with
    | error failure => rfl
    | ok session => rfl
  · rw [if_neg nothing, if_neg nothing]
    cases wrote : world.write path handed with
    | mk result reached =>
        have tried : (attempt (.write path) (FileSystem.write (m := WorldM) path handed)).run world =
            (result.mapError (.write path), reached) := by
          refine bind_eq_iff.2 ⟨result, reached, wrote, ?_⟩
          cases result with
          | error fault => rfl
          | ok value => rfl
        rw [bind_eq_iff.2 ⟨_, _, tried, rfl⟩]
        cases result with
        | error fault => rfl
        | ok value =>
            cases outcome with
            | error failure => rfl
            | ok session => rfl

/-- A temporary file on a device that is full after so many bytes is filled as a sink with this
limit is written to: the file layer, which sees no more than a transcript, reports what the
assembly would report that writes to the file. -/
theorem fill_transcript (found : world.locate path = .ok place)
    (file : world.tree.node? place = some (.file []))
    (capacity : world.device.capacity = some limit) (source : Source) (config : Config) :
    ((fill (m := WorldM) path (Session.transcript source config)).run world).1 =
      (Session.outcomeOf (Session.assemble source
        { limit := some limit
          fault := ascii "write " ++ path ++ ascii ": " ++ Device.full.message } false
        (Session.new config))).mapError .assemble := by
  have writes := World.write_of_empty found file capacity (Session.transcript source config).handed
  rw [Session.outcomeOf_assemble, fst_run_fill, writes]
  generalize Session.transcript source config = transcript
  by_cases nothing : transcript.handed.isEmpty = true
  · rw [if_pos nothing, List.isEmpty_iff.1 nothing]
    rfl
  · rw [if_neg nothing]
    by_cases fits : transcript.handed.length ≤ limit
    · rw [if_pos fits, if_pos fits]
    · rw [if_neg fits, if_neg fits]
      rfl

end Files

end HackAssembler
