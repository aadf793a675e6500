/-
# A first pass that is cut short

A first pass that stops at a line has read the lines before it, and nothing is taken back. What
it leaves in the session are the labels of those lines, and nothing else: variables get their
addresses only once the source has ended. This matters to the next run, which starts from the
table that is left.

A source that cannot be read any further is a case of this, and the place where it breaks off
is given in bytes. A line counts as read once its line feed has come, so a break within a line,
at its end and at the end of the source are told apart by the line feeds before it alone.
-/

import HackAssembler.Proofs.FirstPass
import HackAssembler.Proofs.Lines

namespace HackAssembler

/-! ## Complete lines -/

namespace Line

/-- These are the lines of a text that have their line feed, in their order; what is left of
the text behind them has none. -/
structure CompleteLines (text : Bytes) (lines : List Bytes) : Prop where
  whole : ∃ cut, text = lines.flatten ++ cut ∧ Byte.lineFeed ∉ cut
  each : ∀ line ∈ lines, ∃ content, line = content ++ [Byte.lineFeed] ∧ Byte.lineFeed ∉ content

theorem completeLines_split (text : Bytes) :
    CompleteLines text ((split text).filter isComplete) := by
  induction text using text_induction with
  | last content noFeed =>
      have nothing : (split content).filter isComplete = [] := by
        by_cases empty : content = []
        · rw [empty]
          rfl
        · have cut : isComplete content = false := by
            rw [isComplete, beq_eq_false_iff_ne]
            exact fun ends => noFeed (List.mem_of_getLast? ends)
          rw [split_of_open noFeed empty, List.filter_cons_of_neg (by simp [cut]), List.filter_nil]
      rw [nothing]
      exact ⟨⟨content, rfl, noFeed⟩, nofun⟩
  | line content rest noFeed ih =>
      obtain ⟨⟨cut, whole, noFeedBehind⟩, each⟩ := ih
      have first : isComplete (content ++ [Byte.lineFeed]) = true := by simp [isComplete]
      rw [split_cons noFeed, List.filter_cons_of_pos first]
      constructor
      · refine ⟨cut, ?_, noFeedBehind⟩
        rw [List.flatten_cons, List.append_assoc, List.append_assoc, ← whole]
        rfl
      · rw [List.forall_mem_cons]
        exact ⟨⟨content, rfl, noFeed⟩, each⟩

end Line

namespace Source

/-- Of a source that breaks off, the complete lines before the break are processed. -/
theorem completeLines_failingAfter {source : Source} {limit : Nat} (fault : Bytes)
    (within : limit ≤ source.content.length) :
    Line.CompleteLines (source.content.take limit) (source.failingAfter limit fault).lines := by
  rw [failingAfter, if_pos within]
  exact Line.completeLines_split _

theorem readFault_failingAfter {source : Source} {limit : Nat} (fault : Bytes)
    (within : limit ≤ source.content.length) :
    (source.failingAfter limit fault).readFault = some fault := by
  rw [failingAfter, if_pos within]

end Source

/-! ## Where a pass stops -/

/-- The failure of a pass that stops at a line, before the source has ended: the line is too
long, or it is refused for its form or for the address of its label, or it cannot be read. -/
inductive Failure.StopsAt : Failure → Nat → Prop
  | tooLong (line : Nat) : StopsAt (.lineTooLong line) line
  | refused (line : Nat) (content message : Bytes) :
      StopsAt (.syntaxError ⟨line, content, message⟩) line
  | unreadable (line : Nat) (fault : Bytes) : StopsAt (.readFailed line fault) line

/-- A faulty line is complained about with its number. -/
theorem Failure.stopsAt_of_scanFault? {config : Config} {before : List Bytes} {line : Bytes}
    {failure : Failure} (fault : scanFault? config before line = some failure) :
    failure.StopsAt (before.length + 1) := by
  rw [scanFault?] at fault
  by_cases long : config.maxLineLength < ((Line.dropTerminator line).length : Int)
  · rw [if_pos long] at fault
    cases fault
    exact .tooLong _
  · rw [if_neg long] at fault
    cases command : Command.ofLine line with
    | malformed reason =>
        rw [command] at fault
        cases fault
        exact .refused _ _ _
    | label name trailer =>
        rw [command] at fault
        by_cases fits : (Program.ofLines before).emitted ≤ maxAddress
        · simp [fits] at fault
        · simp only [fits, if_false] at fault
          cases fault
          exact .refused _ _ _
    | _ => simp [command] at fault

namespace Session

/-- A pass that has got through these lines and no further has left nothing behind but their
labels. A name that was bound before keeps its value. Any other name is bound exactly if one of
the lines declares it, and then to the number of instructions before its first declaration; so
no variable is bound. -/
structure OnlyLabels (session : Session) (lines : List Bytes) (reached : Session) : Prop where
  nextVariable : reached.nextVariable = session.nextVariable
  listing : reached.listing = session.listing
  kept : ∀ name value, session.table.get? name = some value →
    reached.table.get? name = some value
  labels : ∀ name, session.table.get? name = none →
    (reached.table.get? name).map BitVec.toNat = (Program.ofLines lines).labelAddress? name

theorem onlyLabels_scanned {session : Session} {lines : List Bytes}
    (clean : collect (scanFault? session.config) [] lines = []) :
    session.OnlyLabels lines (session.scanned lines) where
  nextVariable := session.scanned_nextVariable lines
  listing := scanned_eq Session.listing (fun _ => rfl) (fun _ _ => rfl) session lines
  kept := by
    intro name value bound
    rw [get?_scanned, bound, Option.some_or]
  labels := by
    intro name unbound
    rw [get?_scanned, unbound, Option.none_or]
    cases declared : (Program.ofLines lines).labelAddress? name with
    | none => rfl
    | some address =>
        -- The address is in range, so that it is not cut to the width of a word.
        have small := labelAddress?_le_maxAddress clean declared
        rw [maxAddress] at small
        simp only [Option.map_some, BitVec.toNat_ofNat]
        rw [Nat.mod_eq_of_lt (by omega)]

/-- That a line is counted before it is refused does not show in the labels. -/
theorem OnlyLabels.countRefused {session reached : Session} {lines : List Bytes}
    (only : session.OnlyLabels lines reached) :
    session.OnlyLabels lines reached.countRefused :=
  ⟨only.nextVariable, only.listing, only.kept, only.labels⟩

/-- A pass that fails has run out of variable memory behind the last line, or it has stopped at
a line and left the labels of the lines before it. -/
theorem exists_stopsAt_of_firstPass {session : Session} {source : Source} {failure : Failure}
    (fails : failure? (firstPass source false) session = some failure) :
    (∃ name, failure = .outOfVariableMemory name) ∨
      ∃ number, failure.StopsAt number ∧
        session.OnlyLabels (source.lines.take (number - 1))
          (after (firstPass source false) session) := by
  cases faults : collect (scanFault? session.config) [] source.lines with
  | cons found more =>
      obtain ⟨clean, line, rest, lines, nothing, fault⟩ := exists_first_of_collect_eq_cons faults
      have stopped := firstPass_of_fault lines nothing fault
      rw [failure?_of_error stopped] at fails
      cases fails
      refine .inr ⟨clean.length + 1, Failure.stopsAt_of_scanFault? fault, ?_⟩
      rw [after_of_error stopped, lines, Nat.add_sub_cancel, List.take_left]
      exact (onlyLabels_scanned nothing).countRefused
  | nil =>
      cases readable : source.readFault with
      | some fault =>
          have stopped := firstPass_of_readFault readable faults
          rw [failure?_of_error stopped] at fails
          cases fails
          refine .inr ⟨source.lines.length + 1, .unreadable _ _, ?_⟩
          rw [after_of_error stopped, Nat.add_sub_cancel, List.take_length]
          exact onlyLabels_scanned faults
      | none =>
          have ended := firstPass_of_clean readable faults
          left
          cases short :
              ((Program.ofLines source.lines).variableNames session.table)[session.room]? with
          | none =>
              rw [short] at ended
              rw [failure?_of_ok ended] at fails
              cases fails
          | some name =>
              rw [short] at ended
              rw [failure?_of_error ended] at fails
              cases fails
              exact ⟨name, rfl⟩

/-- A source that breaks off fails the pass: at the first faulty line that was read, else at the
line behind those. -/
theorem failure?_firstPass_of_readFault {source : Source} {fault : Bytes}
    (broken : source.readFault = some fault) (session : Session) :
    failure? (firstPass source false) session =
      some ((collect (scanFault? session.config) [] source.lines).headD
        (.readFailed (source.lines.length + 1) fault)) := by
  cases faults : collect (scanFault? session.config) [] source.lines with
  | cons found more =>
      obtain ⟨clean, line, rest, lines, nothing, fault⟩ := exists_first_of_collect_eq_cons faults
      exact failure?_of_error (firstPass_of_fault lines nothing fault)
  | nil => exact failure?_of_error (firstPass_of_readFault broken faults)

/-- What a first pass leaves that is cut short. If it does not come to the end of the source, it
has stopped at a line; the labels of the lines before that one are bound, and nothing else has
changed. A source that breaks off after some of its bytes never passes. What is read of it are
the complete lines among those bytes. If none of them is faulty, the line behind them is the one
that cannot be read, and they are what has been counted. -/
theorem onlyLabels_of_interrupted (session : Session) (source : Source) :
    (∀ failure, failure? (firstPass source false) session = some failure →
      (∃ name, failure = .outOfVariableMemory name) ∨
        ∃ number, failure.StopsAt number ∧
          session.OnlyLabels (source.lines.take (number - 1))
            (after (firstPass source false) session)) ∧
    ∀ limit fault, limit ≤ source.content.length →
      let broken := source.failingAfter limit fault
      let faults := collect (scanFault? session.config) [] broken.lines
      Line.CompleteLines (source.content.take limit) broken.lines ∧
      failure? (firstPass broken false) session =
        some (faults.headD (.readFailed (broken.lines.length + 1) fault)) ∧
      (faults = [] → (after (firstPass broken false) session).line = broken.lines.length) := by
  refine ⟨fun failure fails => exists_stopsAt_of_firstPass fails, ?_⟩
  intro limit fault within broken faults
  have breaks : broken.readFault = some fault := Source.readFault_failingAfter fault within
  refine ⟨Source.completeLines_failingAfter fault within,
    failure?_firstPass_of_readFault breaks session, ?_⟩
  intro clean
  rw [after_of_error (firstPass_of_readFault breaks clean)]
  exact (session.isAt_startFirstPass.foldl_scan broken.lines).line

/-- A text stops the pass at its fifth line, with the labels before that line bound. Cut off
just before the line feed of its third line, it stops the pass there. -/
theorem onlyLabels_of_interrupted_twice :
    ∃ (session : Session) (source : Source) (fault : Bytes),
      session = new .default ∧
      source = { content := ascii "@x\n(L)\nD=1\n(M)\n?\n(N)\n" } ∧
      failure? (firstPass source false) session =
        some (.syntaxError ⟨5, ascii "?", ascii "unexpected character '?'"⟩) ∧
      session.OnlyLabels (source.lines.take 4) (after (firstPass source false) session) ∧
      10 ≤ source.content.length ∧
      failure? (firstPass (source.failingAfter 10 fault) false) session =
        some (.readFailed 3 fault) ∧
      (after (firstPass (source.failingAfter 10 fault) false) session).line = 2 := by
  let session := new .default
  let source : Source := { content := ascii "@x\n(L)\nD=1\n(M)\n?\n(N)\n" }
  let fault := ascii "gone"
  have fails : failure? (firstPass source false) session =
      some (.syntaxError ⟨5, ascii "?", ascii "unexpected character '?'"⟩) := by
    decide +kernel
  have within : 10 ≤ source.content.length := by decide +kernel
  have lines : (source.failingAfter 10 fault).lines = [ascii "@x\n", ascii "(L)\n"] := by
    decide +kernel
  have clean : collect (scanFault? session.config) [] [ascii "@x\n", ascii "(L)\n"] = [] := by
    decide +kernel
  obtain ⟨stopped, broken⟩ := onlyLabels_of_interrupted session source
  obtain ⟨name, memory⟩ | ⟨number, stops, only⟩ := stopped _ fails
  · cases memory
  · cases stops
    obtain ⟨-, cut, counted⟩ := broken 10 fault within
    rw [lines, clean] at cut
    rw [lines] at counted
    exact ⟨session, source, fault, rfl, rfl, fails, only, within, cut, counted clean⟩

end Session

end HackAssembler
