/-
# What an earlier run left behind

A session that was used before still holds the counters, the noted names and the listing of
its last run, which may have stopped anywhere. A new run sees nothing of them. Its first pass
starts the counters and the names anew and never looks at the listing, so two sessions that
know the same go through it side by side, with nothing but their listings to tell them apart.
The rewind clears the listing as well, and from there on the two sessions are one.
-/

import HackAssembler.Proofs.Assembly
import HackAssembler.Proofs.Comparison

namespace HackAssembler

namespace Session

variable {session session' : Session}

/-- At most the listing tells the sessions apart. -/
def SameButListing (session session' : Session) : Prop :=
  session' = { session with listing := session'.listing }

/-! ## First passes side by side -/

theorem inStep_sameButListing : InStep SameButListing where
  config _ _ same := by rw [same]
  line _ _ same := by rw [same]
  count _ _ _ same := by
    rw [SameButListing, same]
    rfl
  countRefused _ _ same := by
    rw [SameButListing, same]
    rfl

theorem respects_noteOperand (operand : Bytes) :
    Respects SameButListing (noteOperand operand) := by
  intro session session' same
  rw [same]
  simp only [noteOperand]
  split
  · exact .ok rfl
  · exact .ok rfl

theorem respects_bindLabel (statement : Statement) (name : Bytes) :
    Respects SameButListing (bindLabel statement name) := by
  intro session session' same
  rw [same]
  simp only [bindLabel]
  split
  · exact .ok rfl
  · exact .error ⟨rfl, rfl⟩

theorem respects_scanLine (line : Bytes) : Respects SameButListing (scanLine line) := by
  apply Respects.bind (inStep_sameButListing.advance line)
  intro statement
  cases statement.command with
  | skip | compute text trailer => exact Respects.pure ()
  | address operand trailer => exact respects_noteOperand operand
  | label name trailer => exact respects_bindLabel statement name
  | malformed reason => exact inStep_sameButListing.reject statement reason.message

theorem respects_allocate (name : Bytes) : Respects SameButListing (allocate name) := by
  intro session session' same
  rw [same]
  simp only [allocate]
  split
  · exact .ok rfl
  · split
    · exact .ok rfl
    · exact .error ⟨rfl, rfl⟩

theorem respects_allocateVariables : Respects SameButListing allocateVariables := by
  apply Respects.look
  · intro s t same
    rw [same]
  · intro session
    exact Respects.forM respects_allocate session.references.toList

/-- A first pass starts anew, so it needs no more than the settings and the symbols to end in
the same way. -/
theorem matches_firstPass_of_used (source : Source) (sameConfig : session'.config = session.config)
    (sameTable : session'.table = session.table)
    (sameCursor : session'.nextVariable = session.nextVariable) :
    Matches SameButListing
      (fun failure failure' reached reached' =>
        failure = failure' ∧ SameButListing reached reached')
      (firstPass source false session) (firstPass source false session') := by
  have start : SameButListing session.startFirstPass session'.startFirstPass := by
    simp only [SameButListing, startFirstPass, sameConfig, sameTable, sameCursor]
  have following : Respects SameButListing (source.lines.forM scanLine >>= fun _ =>
      expectEnd source >>= fun _ => allocateVariables) := by
    apply Respects.bind (Respects.forM respects_scanLine source.lines)
    intro _
    apply Respects.bind (inStep_sameButListing.expectEnd source)
    intro _
    exact respects_allocateVariables
  rw [firstPass_of_not_canceled, firstPass_of_not_canceled]
  exact following _ _ start

/-! ## Whole runs -/

/-- A run whose source is read as `again` the second time. What is delivered then may be
different, and so may be where it fails. -/
def assembleRereading (source again : Source) (sink : Sink) : SessionM Sink := do
  checkConfig
  firstPass source false
  rewind source
  secondPass again sink false

/-- A run goes back to the start of its source, with its first pass behind it. -/
def Rewinds (source : Source) (session : Session) : Prop :=
  ∃ middle back, firstPass source false session = .ok () middle ∧
    rewind source middle = .ok () back

/-- A run over the source ends in the same way in both sessions, and leaves the same behind.
The listings are compared only if the run has cleared them. -/
structure EndsAlike (source : Source) (run : SessionM Sink) (session session' : Session) :
    Prop where
  outcome : outcome run session' = outcome run session
  line : (after run session').line = (after run session).line
  instructions : (after run session').instructions = (after run session).instructions
  references : (after run session').references = (after run session).references
  table : (after run session').table = (after run session).table
  nextVariable : (after run session').nextVariable = (after run session).nextVariable
  listing : Rewinds source session → (after run session').listing = (after run session).listing

section EndsAlike

variable {source : Source} {run : SessionM Sink}

theorem endsAlike_of_eq (same : run session' = run session) :
    EndsAlike source run session session' := by
  constructor <;> simp only [after, Session.outcome, same, implies_true]

/-- A run that fails before it has cleared the listing leaves the rest in agreement. -/
theorem endsAlike_of_error {failure : Failure} {reached reached' : Session}
    (failed : run session = .error failure reached)
    (failed' : run session' = .error failure reached')
    (same : SameButListing reached reached') (early : ¬ Rewinds source session) :
    EndsAlike source run session session' := by
  have left := after_of_error failed
  have left' := after_of_error failed'
  rw [same] at left'
  refine ⟨?_, ?_, ?_, ?_, ?_, ?_, fun rewinds => absurd rewinds early⟩
  · rw [outcome_of_error failed, outcome_of_error failed']
  all_goals rw [left, left']

theorem assembleRereading_of_valid (valid : session.config.validate = .ok ())
    (source again : Source) (sink : Sink) :
    assembleRereading source again sink session =
      (firstPass source false >>= fun _ => rewind source >>= fun _ =>
        secondPass again sink false) session := by
  have checked : checkConfig session = .ok () session := by
    simp only [checkConfig, valid]
  rw [assembleRereading, bind_of_ok checked]

theorem endsAlike_assembleRereading (again : Source) (sink : Sink)
    (sameConfig : session'.config = session.config) (sameTable : session'.table = session.table)
    (sameCursor : session'.nextVariable = session.nextVariable)
    (valid : session.config.validate = .ok ()) :
    EndsAlike source (assembleRereading source again sink) session session' := by
  have run := assembleRereading_of_valid valid source again sink
  have valid' : session'.config.validate = .ok () := by rw [sameConfig, valid]
  have run' := assembleRereading_of_valid valid' source again sink
  have passes := matches_firstPass_of_used source sameConfig sameTable sameCursor
  generalize first : firstPass source false session = result,
    first' : firstPass source false session' = result' at passes
  cases passes with
  | error related =>
      obtain ⟨rfl, same⟩ := related
      rw [bind_of_error first] at run
      rw [bind_of_error first'] at run'
      refine endsAlike_of_error run run' same ?_
      rintro ⟨middle, back, passed, -⟩
      rw [first] at passed
      cases passed
  | @ok value middle middle' same =>
      rw [bind_of_ok first] at run
      rw [bind_of_ok first'] at run'
      cases intact : source.rewindFault with
      | some fault =>
          have stops (s : Session) : rewind source s = .error (.rewindFailed fault) s := by
            rw [rewind, intact]
          rw [bind_of_error (stops middle)] at run
          rw [bind_of_error (stops middle')] at run'
          refine endsAlike_of_error run run' same ?_
          rintro ⟨passedTo, back, -, back_at_start⟩
          rw [stops] at back_at_start
          cases back_at_start
      | none =>
          -- with the listing cleared there is nothing left to tell the sessions apart
          have one : middle'.rewound = middle.rewound := by
            rw [same]
            rfl
          rw [bind_of_ok (rewind_of_intact intact middle)] at run
          rw [bind_of_ok (rewind_of_intact intact middle'), one] at run'
          exact endsAlike_of_eq (run'.trans run.symm)

end EndsAlike

/-- What an earlier run left behind has no influence on a run. In two sessions with the same
settings, the same table and the same variable cursor, whatever else is in them, a run ends
in the same output or in the same failure, and leaves the counters, the noted names and the
symbols in agreement, and the listing too if it came as far as its rewind. This is so for all
faults of the source and of the sink, also if the source fails in another way when it is read
a second time. -/
theorem endsAlike_assemble (source : Source) (sink : Sink)
    (sameConfig : session'.config = session.config) (sameTable : session'.table = session.table)
    (sameCursor : session'.nextVariable = session.nextVariable)
    (valid : session.config.validate = .ok ()) :
    EndsAlike source (assemble source sink false) session session' ∧
      ∀ again, EndsAlike source (assembleRereading source again sink) session session' := by
  have rereading (again : Source) :
      EndsAlike source (assembleRereading source again sink) session session' :=
    endsAlike_assembleRereading again sink sameConfig sameTable sameCursor valid
  exact ⟨rereading source, rereading⟩

/-- A new session beside one in which a run failed behind its first word. The next run gets
through its first pass in both, and is refused by its sink. -/
theorem endsAlike_assemble_refused :
    ∃ (used : Session) (source : Source) (sink : Sink),
      used = after (assemble { content := ascii "@1\nD=X\n" } {} false) (new .default) ∧
      (used.line = 2 ∧ used.instructions = 2 ∧ used.listing.size = 1) ∧
      source = { content := ascii "@i\nM=1\n(END)\n@END\n0;JMP" } ∧
      sink = { limit := some 40, fault := ascii "no space left" } ∧
      Rewinds source (new .default) ∧
      failure? (assemble source sink false) used =
        some (.writeFailed (ascii "no space left")) ∧
      EndsAlike source (assemble source sink false) (new .default) used ∧
      ∀ again, EndsAlike source (assembleRereading source again sink) (new .default) used := by
  let used := after (assemble { content := ascii "@1\nD=X\n" } {} false) (new .default)
  let source : Source := { content := ascii "@i\nM=1\n(END)\n@END\n0;JMP" }
  let sink : Sink := { limit := some 40, fault := ascii "no space left" }
  have passes : failure? (firstPass source false) (new .default) = none := by decide +kernel
  have refused : failure? (assemble source sink false) used =
      some (.writeFailed (ascii "no space left")) := by
    decide +kernel
  obtain ⟨⟨⟩, passed⟩ := exists_ok_of_failure?_eq_none passes
  exact ⟨used, source, sink, rfl, by decide +kernel, rfl, rfl, ⟨_, _, passed, rfl⟩, refused,
    endsAlike_assemble source sink rfl rfl rfl rfl⟩

end Session

end HackAssembler
