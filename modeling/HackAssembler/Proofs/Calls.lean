/-
# Calls that fail

A call leaves its surroundings alone until the whole output is at hand, but for one
temporary file. Whatever fails, before this file is made or afterwards, the file is gone
when the call ends, and nothing else was touched: not the output of an earlier call, and
not the standard output. The steps between the making of the file and its removal are
described by what they lead to, with a failure and without one.
-/

import HackAssembler.CommandLine.Run
import HackAssembler.Proofs.Surroundings

namespace HackAssembler

variable {σ : Type}

/-- A sequence ends by way of the end of its first step. -/
theorem bind_eq_iff {α β : Type} {step : StateM σ α} {next : α → StateM σ β} {state : σ}
    {final : β × σ} :
    (step >>= next) state = final ↔
      ∃ value reached, step state = (value, reached) ∧ next value reached = final := by
  constructor
  · intro ended
    exact ⟨(step state).1, (step state).2, rfl, ended⟩
  · rintro ⟨value, reached, first, rest⟩
    show next (step state).1 (step state).2 = final
    rw [first]
    exact rest

/-! ## Attempts -/

/-- How an attempt ends that starts in a state with `P`: with a value and a state as `Q` says, or
with a failure in a state as `E` says. -/
structure Leads {ε α : Type} (P : σ → Prop) (step : ExceptT ε (StateM σ) α) (Q : α → σ → Prop)
    (E : σ → Prop) : Prop where
  passes : ∀ {state value reached}, P state → step.run state = (.ok value, reached) →
    Q value reached
  fails : ∀ {state failure reached}, P state → step.run state = (.error failure, reached) →
    E reached

namespace Leads

variable {ε α β : Type} {P E : σ → Prop}

theorem pure {value : α} {Q : α → σ → Prop} (enough : ∀ {state}, P state → Q value state) :
    Leads P (Pure.pure value : ExceptT ε (StateM σ) α) Q E where
  passes here done := by
    cases done
    exact enough here
  fails _ failed := by cases failed

theorem throw {failure : ε} {Q : α → σ → Prop} (enough : ∀ {state}, P state → E state) :
    Leads P (MonadExcept.throw failure : ExceptT ε (StateM σ) α) Q E where
  passes _ done := by cases done
  fails here failed := by
    cases failed
    exact enough here

/-- Of two attempts one after the other, the first or the second fails. -/
theorem bind {step : ExceptT ε (StateM σ) α} {next : α → ExceptT ε (StateM σ) β}
    {Q : α → σ → Prop} {R : β → σ → Prop} (first : Leads P step Q E)
    (rest : ∀ value, Leads (Q value) (next value) R E) : Leads P (step >>= next) R E where
  passes here done := by
    rw [ExceptT.run_bind] at done
    obtain ⟨result, middle, tried, done⟩ := bind_eq_iff.1 done
    cases result with
    | error failure => cases done
    | ok value => exact (rest value).passes (first.passes here tried) done
  fails here failed := by
    rw [ExceptT.run_bind] at failed
    obtain ⟨result, middle, tried, failed⟩ := bind_eq_iff.1 failed
    cases result with
    | error failure =>
        cases failed
        exact first.fails here tried
    | ok value => exact (rest value).fails (first.passes here tried) failed

/-- What does not depend on the state is still so afterwards. -/
theorem and_left {step : ExceptT ε (StateM σ) α} {Q : α → σ → Prop} {fact : Prop}
    (leads : Leads P step Q E) :
    Leads (fun state => fact ∧ P state) step (fun value state => fact ∧ Q value state) E where
  passes here done := ⟨here.1, leads.passes here.2 done⟩
  fails here failed := leads.fails here.2 failed

/-- An attempt is known by what its operation does. -/
theorem attempt {failure : FileFault → OutputFailure}
    {operation : StateM σ (Except FileFault Unit)} {Q : σ → Prop}
    (passes : ∀ {state reached}, P state → operation state = (.ok (), reached) → Q reached)
    (fails : ∀ {state fault reached}, P state → operation state = (.error fault, reached) →
      E reached) :
    Leads P (HackAssembler.attempt failure operation) (fun _ => Q) E where
  passes here done := by
    obtain ⟨result, reached, tried, done⟩ := bind_eq_iff.1 done
    cases result with
    | error fault => cases done
    | ok value =>
        cases done
        exact passes here tried
  fails here failed := by
    obtain ⟨result, reached, tried, failed⟩ := bind_eq_iff.1 failed
    cases result with
    | ok value => cases failed
    | error fault =>
        cases failed
        exact fails here tried

section Output

variable [FileSystem (StateM σ)] {Q R : σ → Prop} {output path : Bytes} {transcript : Transcript}

/-- A file is filled by one write, if there is anything to write, and then the transcript says
how it ends. -/
theorem fill
    (writes : Leads P (HackAssembler.attempt (.write path)
      (FileSystem.write (m := StateM σ) path transcript.handed)) (fun _ => Q) E)
    (nothing : transcript.handed = [] → ∀ {state}, P state → Q state)
    (stops : ∀ {state}, Q state → E state) :
    Leads P (HackAssembler.fill path transcript)
      (fun session state => transcript.outcome = .ok session ∧ Q state) E := by
  apply Leads.bind (Q := fun _ => Q)
  · rw [handOver]
    split
    · next empty => exact .pure (nothing (List.isEmpty_iff.1 empty))
    · exact writes
  · intro _
    cases transcript.outcome with
    | error failure => exact .throw stops
    | ok session => exact .pure fun filled => ⟨rfl, filled⟩

/-- An output is delivered by setting the mode of its file, filling, closing and moving it. -/
theorem deliver
    (sets : Leads P (HackAssembler.attempt (.mode path)
      (FileSystem.setMode (m := StateM σ) path outputMode)) (fun _ => P) E)
    (fills : Leads P (HackAssembler.fill path transcript)
      (fun session state => transcript.outcome = .ok session ∧ Q state) E)
    (closes : Leads Q (HackAssembler.attempt (.close path)
      (FileSystem.close (m := StateM σ) path)) (fun _ => Q) E)
    (moves : Leads Q (HackAssembler.attempt (.save output path)
      (FileSystem.rename (m := StateM σ) path output)) (fun _ => R) E) :
    Leads P (HackAssembler.deliver output path transcript)
      (fun session state => transcript.outcome = .ok session ∧ R state) E :=
  .bind sets fun _ => .bind fills fun _ => .bind closes.and_left fun _ =>
    .bind moves.and_left fun _ => .pure id

end Output

end Leads

/-! ## Failures -/

/-- The failure of a call, if it fails. -/
def callFailure? (call : StateM σ (Except CallFailure Unit)) (state : σ) : Option CallFailure :=
  match (call state).1 with
  | .ok () => none
  | .error failure => some failure

theorem exists_eq_error_of_callFailure? {call : StateM σ (Except CallFailure Unit)} {state : σ}
    {failure : CallFailure} (failed : callFailure? call state = some failure) :
    ∃ reached, call state = (.error failure, reached) := by
  rw [callFailure?] at failed
  generalize call state = ended at failed
  obtain ⟨result, reached⟩ := ended
  cases result with
  | ok _ => cases failed
  | error other =>
      cases failed
      exact ⟨reached, rfl⟩

theorem exists_eq_ok_of_callFailure? {call : StateM σ (Except CallFailure Unit)} {state : σ}
    (passed : callFailure? call state = none) : ∃ reached, call state = (.ok (), reached) := by
  rw [callFailure?] at passed
  generalize call state = ended at passed
  obtain ⟨result, reached⟩ := ended
  cases result with
  | ok _ => exact ⟨reached, rfl⟩
  | error failure => cases passed

/-- The state is ahead of `first` by one file, which stands at a place that was free and is
named by the path. -/
structure View.Ahead (view : View σ) (first state : σ) (path : Bytes) (place : Place) : Prop where
  free : (view.tree first).node? place = none
  tree : ∃ content, view.tree state = (view.tree first).insert place (.file content)
  printed : view.printed state = view.printed first
  names : view.Names state path place

/-- Where the same is seen and the path still names the place, there is still one file more. -/
theorem View.Ahead.of_same {view : View σ} {first state reached : σ} {path : Bytes}
    {place : Place} (ahead : view.Ahead first state path place)
    (kept : view.Same state reached ∧ view.Names reached path place) :
    view.Ahead first reached path place := by
  obtain ⟨same, names⟩ := kept
  obtain ⟨content, tree⟩ := ahead.tree
  exact ⟨ahead.free, ⟨content, same.tree.trans tree⟩, same.printed.trans ahead.printed, names⟩

section Failures

variable [FileSystem (StateM σ)] {view : View σ} {first state reached : σ} {path : Bytes}
  {place : Place}

namespace View.Lawful

theorem ahead_of_created {stem : Bytes} (lawful : view.Lawful)
    (made : FileSystem.createTemporary (m := StateM σ) stem state = (.ok path, reached)) :
    ∃ place, view.Ahead state reached path place := by
  obtain ⟨place, free, tree, printed, names⟩ := lawful.created made
  exact ⟨place, free, ⟨[], tree⟩, printed, names⟩

theorem ahead_of_written {text : Bytes} {result : Except FileFault Unit} (lawful : view.Lawful)
    (ahead : view.Ahead first state path place)
    (wrote : FileSystem.write (m := StateM σ) path text state = (result, reached)) :
    view.Ahead first reached path place := by
  obtain ⟨⟨content, tree⟩, printed, names⟩ := lawful.written ahead.names wrote
  obtain ⟨earlier, treeBefore⟩ := ahead.tree
  refine ⟨ahead.free, ⟨content, ?_⟩, printed.trans ahead.printed, names⟩
  rw [tree, treeBefore, FileTree.insert_insert]

/-- Removing the file takes back all that was done. -/
theorem same_of_removed (lawful : view.Lawful) (ahead : view.Ahead first state path place)
    (gone : FileSystem.remove (m := StateM σ) path state = ((), reached)) :
    view.Same first reached := by
  obtain ⟨erased, printed⟩ := lawful.removed ahead.names gone
  obtain ⟨content, tree⟩ := ahead.tree
  refine ⟨?_, printed.trans ahead.printed⟩
  rw [erased, tree, FileTree.erase_insert _ _ _ ahead.free]

/-- However far the delivery of an output gets, as long as the file is not moved there is this
one file more. -/
theorem ahead_of_deliver_eq_error (lawful : view.Lawful) {output : Bytes}
    {transcript : Transcript} {failure : OutputFailure}
    (ahead : view.Ahead first state path place)
    (failed : (deliver (m := StateM σ) output path transcript).run state =
      (.error failure, reached)) :
    view.Ahead first reached path place := by
  -- each step keeps to this, whether or not it fails; only a move that is made does not
  have delivers : Leads (view.Ahead first · path place) (deliver output path transcript)
      (fun session _ => transcript.outcome = .ok session ∧ True)
      (view.Ahead first · path place) := by
    refine .deliver (Q := (view.Ahead first · path place)) ?_ (.fill ?_ (fun _ => id) id) ?_ ?_
    · exact .attempt (fun ahead set => ahead.of_same (lawful.modeSet ahead.names set))
        (fun ahead set => ahead.of_same (lawful.modeSet ahead.names set))
    · exact .attempt (fun ahead wrote => lawful.ahead_of_written ahead wrote)
        (fun ahead wrote => lawful.ahead_of_written ahead wrote)
    · exact .attempt (fun ahead closing => ahead.of_same (lawful.closed ahead.names closing))
        (fun ahead closing => ahead.of_same (lawful.closed ahead.names closing))
    · exact .attempt (fun _ _ => trivial)
        (fun ahead unmoved => ahead.of_same (lawful.notRenamed ahead.names unmoved))
  exact delivers.fails ahead failed

end View.Lawful

/-- Where no output is written, nothing is changed. -/
theorem same_of_writeOutput_eq_error (lawful : view.Lawful) {output : Bytes}
    {transcript : Transcript} {failure : OutputFailure}
    (failed : writeOutput (m := StateM σ) output transcript state = (.error failure, reached)) :
    view.Same state reached := by
  simp only [writeOutput] at failed
  split at failed
  · cases failed
    exact .refl state
  · obtain ⟨temporary, made, creation, failed⟩ := bind_eq_iff.1 failed
    cases temporary with
    | error fault =>
        cases failed
        exact lawful.notCreated creation
    | ok temporary =>
        -- from here on the file has to be removed before the call ends in a failure
        obtain ⟨place, ahead⟩ := lawful.ahead_of_created creation
        obtain ⟨delivered, tried, delivery, failed⟩ := bind_eq_iff.1 failed
        cases delivered with
        | ok session => cases failed
        | error failure =>
            have ahead := lawful.ahead_of_deliver_eq_error ahead delivery
            obtain ⟨_, closed, closing, failed⟩ := bind_eq_iff.1 failed
            have ahead := ahead.of_same (lawful.closed ahead.names closing)
            obtain ⟨⟨⟩, cleared, gone, failed⟩ := bind_eq_iff.1 failed
            cases failed
            exact lawful.same_of_removed ahead gone

/-- A call that fails changes nothing: the tree of files is the same as before, and nothing
was printed. -/
theorem unchanged_of_run_eq_error (lawful : view.Lawful) {input : Bytes} {options : Options}
    {failure : CallFailure}
    (failed : run (m := StateM σ) input options state = (.error failure, reached)) :
    view.tree reached = view.tree state ∧ view.printed reached = view.printed state := by
  cases valid : options.config.validate with
  | error error =>
      simp only [run, valid] at failed
      cases failed
      exact ⟨rfl, rfl⟩
  | ok value =>
      simp only [run, valid] at failed
      obtain ⟨source, opened, opening, failed⟩ := bind_eq_iff.1 failed
      have before := lawful.openSource opening
      cases source with
      | error fault =>
          cases failed
          exact ⟨before.tree, before.printed⟩
      | ok source =>
          obtain ⟨wrote, ended, writing, failed⟩ := bind_eq_iff.1 failed
          cases wrote with
          | ok _ =>
              obtain ⟨⟨⟩, printed, printing, failed⟩ := bind_eq_iff.1 failed
              cases failed
          | error failure =>
              cases failed
              have same := before.trans (same_of_writeOutput_eq_error lawful writing)
              exact ⟨same.tree, same.printed⟩

end Failures

/-- Five failures behind the making of a temporary file: a program that cannot be encoded, with
the output of an earlier call in place, an output path at which there is a directory, a mode that
cannot be set, a device that is full after ten bytes, and a file that cannot be closed. -/
theorem unchanged_of_run_eq_error_late :
    ∃ world : World,
      world = ((((World.fresh [ascii "home"]).putFile (ascii "a.asm") (ascii "@i\nD=X\n")).putFile
        (ascii "a.hack") (ascii "0000000000000001\n")).putFile (ascii "b.asm")
          (ascii "@2\n")).makeDirectory (ascii "out") ∧
      (∃ reached, run (m := WorldM) (ascii "a.asm") { verbose := true } world =
        (.error (.output (ascii "a.asm") (.assemble (.syntaxError
          ⟨2, ascii "D=X", ascii "wrong c command of comp code format near D=X"⟩))), reached) ∧
        reached.tree = world.tree ∧ reached.printed = world.printed) ∧
      (∃ reached, run (m := WorldM) (ascii "b.asm") { output := ascii "out" } world =
        (.error (.output (ascii "b.asm") (.save (ascii "out") (ascii "./.out.1000000000")
          .alreadyExists)), reached) ∧
        reached.tree = world.tree ∧ reached.printed = world.printed) ∧
      (∃ reached, run (m := WorldM) (ascii "b.asm") { verbose := true }
          { world with device := { modeFault := some (.other (ascii "read-only")) } } =
        (.error (.output (ascii "b.asm") (.mode (ascii "./.b.hack.1000000000")
          (.other (ascii "read-only")))), reached) ∧
        reached.tree = world.tree ∧ reached.printed = world.printed) ∧
      (∃ reached, run (m := WorldM) (ascii "b.asm") { verbose := true }
          { world with device := { capacity := some 10 } } =
        (.error (.output (ascii "b.asm") (.write (ascii "./.b.hack.1000000000") Device.full)),
          reached) ∧
        reached.tree = world.tree ∧ reached.printed = world.printed) ∧
      ∃ reached, run (m := WorldM) (ascii "b.asm") { verbose := true }
          { world with device := { closeFault := some Device.full } } =
        (.error (.output (ascii "b.asm") (.close (ascii "./.b.hack.1000000000") Device.full)),
          reached) ∧
        reached.tree = world.tree ∧ reached.printed = world.printed := by
  let world := ((((World.fresh [ascii "home"]).putFile (ascii "a.asm")
    (ascii "@i\nD=X\n")).putFile (ascii "a.hack") (ascii "0000000000000001\n")).putFile
      (ascii "b.asm") (ascii "@2\n")).makeDirectory (ascii "out")
  have refused : callFailure? (run (m := WorldM) (ascii "a.asm") { verbose := true }) world =
      some (.output (ascii "a.asm") (.assemble (.syntaxError
        ⟨2, ascii "D=X", ascii "wrong c command of comp code format near D=X"⟩))) := by
    decide +kernel
  have unmoved : callFailure? (run (m := WorldM) (ascii "b.asm") { output := ascii "out" }) world =
      some (.output (ascii "b.asm") (.save (ascii "out") (ascii "./.out.1000000000")
        .alreadyExists)) := by
    decide +kernel
  have unset : callFailure? (run (m := WorldM) (ascii "b.asm") { verbose := true })
      { world with device := { modeFault := some (.other (ascii "read-only")) } } =
      some (.output (ascii "b.asm") (.mode (ascii "./.b.hack.1000000000")
        (.other (ascii "read-only")))) := by
    decide +kernel
  have cut : callFailure? (run (m := WorldM) (ascii "b.asm") { verbose := true })
      { world with device := { capacity := some 10 } } =
      some (.output (ascii "b.asm") (.write (ascii "./.b.hack.1000000000") Device.full)) := by
    decide +kernel
  have unclosed : callFailure? (run (m := WorldM) (ascii "b.asm") { verbose := true })
      { world with device := { closeFault := some Device.full } } =
      some (.output (ascii "b.asm") (.close (ascii "./.b.hack.1000000000") Device.full)) := by
    decide +kernel
  obtain ⟨first, refused⟩ := exists_eq_error_of_callFailure? refused
  obtain ⟨second, unmoved⟩ := exists_eq_error_of_callFailure? unmoved
  obtain ⟨third, unset⟩ := exists_eq_error_of_callFailure? unset
  obtain ⟨fourth, cut⟩ := exists_eq_error_of_callFailure? cut
  obtain ⟨fifth, unclosed⟩ := exists_eq_error_of_callFailure? unclosed
  exact ⟨world, rfl, ⟨first, refused, unchanged_of_run_eq_error World.lawful_view refused⟩,
    ⟨second, unmoved, unchanged_of_run_eq_error World.lawful_view unmoved⟩,
    ⟨third, unset, unchanged_of_run_eq_error World.lawful_view unset⟩,
    ⟨fourth, cut, unchanged_of_run_eq_error World.lawful_view cut⟩,
    fifth, unclosed, unchanged_of_run_eq_error World.lawful_view unclosed⟩

end HackAssembler
