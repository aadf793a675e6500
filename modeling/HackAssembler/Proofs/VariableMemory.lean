/-
# The memory for variables

Variables live behind the cursor of a session, up to the last cell that an instruction can
address. This module says how far they reach. A source whose variables fit has all of them
bound to consecutive cells; otherwise the cells are used up to the last one, and the first
variable that is left without one is complained about. What room there is depends on the
cursor alone, which may stand anywhere, also beyond all cells.
-/

import HackAssembler.Proofs.Reassembly

namespace HackAssembler

namespace Session

/-- In `reached` these names are bound to the cells from the cursor of `session` on, one cell
for each. Any other name has the value it had in `session`, or else the one that a label of
the program gives to it. The cursor stands behind the cells that are taken. -/
structure Fills (session : Session) (program : Program) (names : List Bytes)
    (reached : Session) : Prop where
  bound : ∀ (i : Nat) (name : Bytes), names[i]? = some name →
    ∃ value, reached.table.get? name = some value ∧
      value.toNat = session.nextVariable.toNat + i
  others : ∀ name, name ∉ names → reached.table.get? name =
    (session.table.get? name).or ((program.labelAddress? name).map (BitVec.ofNat 16))
  cursor : reached.nextVariable.toNat = session.nextVariable.toNat + names.length

/-- The cursor never moves backwards, and with a name it moves by one cell at most. -/
theorem nextVariable_after_allocate (name : Bytes) (session : Session) :
    (after (allocate name) session).nextVariable = session.nextVariable ∨
      (after (allocate name) session).nextVariable.toNat = session.nextVariable.toNat + 1 := by
  cases free : session.table.contains name with
  | true =>
      left
      simp [after, allocate, free]
  | false =>
      by_cases fits : session.nextVariable.toNat ≤ maxAddress
      · right
        rw [after_of_ok (allocate_of_fits free fits)]
        exact toNat_nextVariable_allotOne fits
      · left
        rw [after_of_error (allocate_of_full free fits)]

section Settled

variable (session : Session) (lines : List Bytes)

/-- The variables that get a cell. -/
def placed : List Bytes :=
  ((Program.ofLines lines).variableNames session.table).take session.room

theorem nodup_placed : (session.placed lines).Nodup :=
  (session.nodup_variableNames lines).sublist (List.take_sublist session.room _)

theorem get?_settled (name : Bytes) :
    (session.settled lines).table.get? name =
      if name ∈ session.placed lines then
        some (session.nextVariable + BitVec.ofNat 16 ((session.placed lines).idxOf name))
      else (session.table.get? name).or
        (((Program.ofLines lines).labelAddress? name).map (BitVec.ofNat 16)) := by
  have unbound : ∀ name ∈ session.placed lines,
      (session.scanned lines).table.contains name = false := by
    intro name member
    exact session.unbound_variableNames lines name (List.mem_of_mem_take member)
  rw [settled, ← placed, get?_allot (session.nodup_placed lines) unbound, scanned_nextVariable,
    get?_scanned]

theorem fills_settled :
    session.Fills (Program.ofLines lines) (session.placed lines) (session.settled lines) := by
  have fits : (session.placed lines).length ≤ session.room := List.length_take_le _ _
  constructor
  · intro i name place
    obtain ⟨inside, rfl⟩ := List.getElem?_eq_some_iff.1 place
    refine ⟨_, by rw [get?_settled, if_pos (List.getElem_mem inside)], ?_⟩
    rw [(session.nodup_placed lines).idxOf_getElem i inside, BitVec.toNat_add, BitVec.toNat_ofNat]
    rw [room, maxAddress] at fits
    omega
  · intro name other
    rw [get?_settled, if_neg other]
  · rw [← scanned_nextVariable session lines, settled, ← placed]
    apply toNat_nextVariable_allot
    rw [room_scanned]
    exact fits

/-- The variables beyond the last cell stay unbound. -/
theorem get?_settled_of_mem_drop {name : Bytes}
    (beyond : name ∈ ((Program.ofLines lines).variableNames session.table).drop session.room) :
    (session.settled lines).table.get? name = none := by
  rw [← variableNames_settled, mem_variableNames_iff] at beyond
  exact beyond.2.1

end Settled

/-- Variable memory is used to its last cell. Let the loop of the first pass come to the end
of the source, and let the variables be the names that the source refers to, that were unbound
before and that no label of the source declares. The pass succeeds exactly if there are no
more of them than cells, and each gets the cell of its place then. Otherwise the first
variable without a cell is complained about, all those before it have theirs, and it is
unbound like those behind it. The cursor never wraps around. -/
theorem fills_of_firstPass {session : Session} {source : Source}
    (ends : failure? (scanSource source) session.startFirstPass = none) :
    let program := Program.ofLines source.lines
    let names := program.variableNames session.table
    let room := 32768 - session.nextVariable.toNat
    let reached := after (firstPass source false) session
    (failure? (firstPass source false) session = none ↔ names.length ≤ room) ∧
    (names.length ≤ room → session.Fills program names reached) ∧
    (room < names.length →
      (∃ name, names[room]? = some name ∧
        failure? (firstPass source false) session = some (.outOfVariableMemory name)) ∧
      session.Fills program (names.take room) reached ∧
      ∀ name ∈ names.drop room, reached.table.get? name = none) ∧
    ∀ name during, (after (allocate name) during).nextVariable = during.nextVariable ∨
      (after (allocate name) during).nextVariable.toNat = during.nextVariable.toNat + 1 := by
  intro program names room reached
  obtain ⟨readable, clean⟩ := failure?_scanSource_eq_none_iff.1 ends
  have passed := firstPass_settled readable clean
  have settles : reached = session.settled source.lines := after_firstPass_of_clean readable clean
  have fills : session.Fills program (names.take session.room) reached := by
    rw [settles]
    exact session.fills_settled source.lines
  have sameRoom : session.room = room := by simp only [Session.room, maxAddress, room]
  rw [sameRoom] at passed fills
  refine ⟨?_, ?_, ?_, nextVariable_after_allocate⟩
  · rw [failure?, passed, ← List.getElem?_eq_none_iff]
    cases names[room]? <;> simp
  · intro fits
    rwa [List.take_of_length_le fits] at fills
  · intro full
    refine ⟨⟨names[room], List.getElem?_eq_getElem full, ?_⟩, fills, ?_⟩
    · rw [failure?, passed, List.getElem?_eq_getElem full]
    · intro name beyond
      rw [← sameRoom] at beyond
      rw [settles]
      exact session.get?_settled_of_mem_drop source.lines beyond

/-- One cell is left for three variables, with a label among the names that are referred to. -/
theorem fills_of_firstPass_last :
    ∃ (session : Session) (source : Source),
      session = new ⟨1024, 32767⟩ ∧
      source = { content := ascii "@y\n(L)\n@x\n@L\n@y\n@z\n" } ∧
      failure? (scanSource source) session.startFirstPass = none ∧
      failure? (firstPass source false) session = some (.outOfVariableMemory (ascii "x")) ∧
      session.Fills (Program.ofLines source.lines) [ascii "y"]
        (after (firstPass source false) session) ∧
      ∀ name ∈ [ascii "x", ascii "z"],
        (after (firstPass source false) session).table.get? name = none := by
  let session := new ⟨1024, 32767⟩
  let source : Source := { content := ascii "@y\n(L)\n@x\n@L\n@y\n@z\n" }
  have ends : failure? (scanSource source) session.startFirstPass = none := by decide +kernel
  have names : (Program.ofLines source.lines).variableNames session.table =
      [ascii "y", ascii "x", ascii "z"] := by
    decide +kernel
  have cursor : session.nextVariable.toNat = 32767 := by decide +kernel
  obtain ⟨-, -, overfull, -⟩ := fills_of_firstPass ends
  rw [names, cursor] at overfull
  obtain ⟨⟨name, first, failed⟩, fills, unbound⟩ := overfull (by decide)
  cases first
  exact ⟨session, source, rfl, rfl, ends, failed, fills, unbound⟩

end Session

end HackAssembler
