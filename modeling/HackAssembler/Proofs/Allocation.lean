/-
# Giving addresses to variables

Distinct names that are unbound take the addresses that are left, one after the other.
The addresses end where an instruction can no longer carry them, and the first name that
finds none left is the one that is complained about; those before it stay bound. A name
that is bound already is passed over.
-/

import HackAssembler.Proofs.Run

namespace HackAssembler

namespace Session

/-- The number of addresses that are left for variables. -/
def room (session : Session) : Nat := maxAddress + 1 - session.nextVariable.toNat

/-- Bind a name to the next variable address. -/
def allotOne (session : Session) (name : Bytes) : Session :=
  { session with
    table := session.table.bind name session.nextVariable
    nextVariable := session.nextVariable + 1 }

/-- Bind names to consecutive variable addresses. -/
def allot (session : Session) (names : List Bytes) : Session := names.foldl allotOne session

@[simp]
theorem allot_nil (session : Session) : session.allot [] = session := rfl

@[simp]
theorem allot_cons (session : Session) (name : Bytes) (names : List Bytes) :
    session.allot (name :: names) = (session.allotOne name).allot names := rfl

/-- An unbound name takes the next address, if it can be addressed. -/
theorem allocate_of_fits {session : Session} {name : Bytes}
    (free : session.table.contains name = false)
    (fits : session.nextVariable.toNat ≤ maxAddress) :
    allocate name session = .ok () (session.allotOne name) := by
  simp [allocate, free, fits, allotOne]

/-- Otherwise it is complained about. -/
theorem allocate_of_full {session : Session} {name : Bytes}
    (free : session.table.contains name = false)
    (full : ¬ session.nextVariable.toNat ≤ maxAddress) :
    allocate name session = .error (.outOfVariableMemory name) session := by
  simp [allocate, free, full]

/-- With an address left the cursor does not wrap around. -/
theorem toNat_nextVariable_allotOne {session : Session} {name : Bytes}
    (fits : session.nextVariable.toNat ≤ maxAddress) :
    (session.allotOne name).nextVariable.toNat = session.nextVariable.toNat + 1 := by
  rw [maxAddress] at fits
  have one : (1 : Word).toNat = 1 := rfl
  show (session.nextVariable + 1).toNat = _
  rw [BitVec.toNat_add, one]
  omega

theorem room_allotOne {session : Session} (name : Bytes)
    (fits : session.nextVariable.toNat ≤ maxAddress) :
    session.room = (session.allotOne name).room + 1 := by
  rw [room, room, toNat_nextVariable_allotOne fits]
  omega

/-- A name stays unbound while other names are bound. -/
theorem contains_allotOne_of_ne {session : Session} {name other : Bytes} (h : name ≠ other) :
    (session.allotOne name).table.contains other = session.table.contains other := by
  rw [SymbolTable.contains_eq_isSome_get?, SymbolTable.contains_eq_isSome_get?]
  show ((session.table.bind name session.nextVariable).get? other).isSome = _
  simp [SymbolTable.get?_bind, h]

theorem unbound_allotOne {session : Session} {name : Bytes} {names : List Bytes}
    (new : name ∉ names)
    (unbound : ∀ other ∈ name :: names, session.table.contains other = false) :
    ∀ other ∈ names, (session.allotOne name).table.contains other = false := by
  intro other member
  have differs : name ≠ other := fun same => new (same ▸ member)
  rw [contains_allotOne_of_ne differs]
  exact unbound other (List.mem_cons_of_mem name member)

/-- Distinct unbound names take what addresses are left. -/
theorem forM_allocate_of_unbound {session : Session} {names : List Bytes}
    (distinct : names.Nodup)
    (unbound : ∀ name ∈ names, session.table.contains name = false) :
    names.forM allocate session =
      match names[session.room]? with
      | none => .ok () (session.allot names)
      | some name =>
        .error (.outOfVariableMemory name) (session.allot (names.take session.room)) := by
  induction names generalizing session with
  | nil => rfl
  | cons name names ih =>
      obtain ⟨new, distinct⟩ := List.nodup_cons.1 distinct
      have free := unbound name List.mem_cons_self
      by_cases fits : session.nextVariable.toNat ≤ maxAddress
      · show (allocate name >>= fun _ => names.forM allocate) session = _
        rw [bind_of_ok (allocate_of_fits free fits), ih distinct (unbound_allotOne new unbound),
          room_allotOne name fits]
        rfl
      · have full : session.room = 0 := by
          rw [room]
          omega
        show (allocate name >>= fun _ => names.forM allocate) session = _
        rw [bind_of_error (allocate_of_full free fits), full]
        rfl

/-- Bound names are passed over. -/
theorem forM_allocate_filter {session : Session} {names : List Bytes} (distinct : names.Nodup) :
    names.forM allocate session =
      (names.filter fun name => !session.table.contains name).forM allocate session := by
  induction names generalizing session with
  | nil => rfl
  | cons name names ih =>
      obtain ⟨new, distinct⟩ := List.nodup_cons.1 distinct
      show (allocate name >>= fun _ => names.forM allocate) session = _
      cases bound : session.table.contains name with
      | true =>
          have passed : allocate name session = .ok () session := by simp [allocate, bound]
          rw [bind_of_ok passed, ih distinct, List.filter_cons_of_neg (by simp [bound])]
      | false =>
          rw [List.filter_cons_of_pos (by simp [bound])]
          show _ = (allocate name >>= fun _ =>
            (names.filter fun name => !session.table.contains name).forM allocate) session
          by_cases fits : session.nextVariable.toNat ≤ maxAddress
          · have first := allocate_of_fits bound fits
            have sameFilter : (names.filter fun other =>
                !(session.allotOne name).table.contains other) =
                names.filter fun other => !session.table.contains other := by
              apply List.filter_congr
              intro other member
              have differs : name ≠ other := fun same => new (same ▸ member)
              rw [contains_allotOne_of_ne differs]
            rw [bind_of_ok first, bind_of_ok first, ih distinct, sameFilter]
          · have first := allocate_of_full bound fits
            rw [bind_of_error first, bind_of_error first]

/-! ## What is bound in the end -/

/-- What giving an address does not change is not changed by giving many. -/
theorem allot_eq {α : Type} (view : Session → α)
    (kept : ∀ session name, view (session.allotOne name) = view session)
    (names : List Bytes) (session : Session) : view (session.allot names) = view session := by
  induction names generalizing session with
  | nil => rfl
  | cons name names ih => rw [allot_cons, ih, kept]

theorem nextVariable_allot (session : Session) (names : List Bytes) :
    (session.allot names).nextVariable =
      session.nextVariable + BitVec.ofNat 16 names.length := by
  induction names generalizing session with
  | nil => simp
  | cons name names ih =>
      rw [allot_cons, ih, List.length_cons]
      show session.nextVariable + 1 + BitVec.ofNat 16 names.length = _
      rw [BitVec.add_assoc, BitVec.ofNat_add, BitVec.add_comm 1]
      rfl

/-- Where there is room the cursor moves by the number of names. -/
theorem toNat_nextVariable_allot {session : Session} {names : List Bytes}
    (fits : names.length ≤ session.room) :
    (session.allot names).nextVariable.toNat = session.nextVariable.toNat + names.length := by
  have small := session.nextVariable.isLt
  rw [room, maxAddress] at fits
  rw [nextVariable_allot, BitVec.toNat_add, BitVec.toNat_ofNat]
  omega

/-- Each name gets the address of its place, and all other names keep what they had. -/
theorem get?_allot {session : Session} {names : List Bytes} (distinct : names.Nodup)
    (unbound : ∀ name ∈ names, session.table.contains name = false) (name : Bytes) :
    (session.allot names).table.get? name =
      if name ∈ names then some (session.nextVariable + BitVec.ofNat 16 (names.idxOf name))
      else session.table.get? name := by
  induction names generalizing session with
  | nil => simp
  | cons first names ih =>
      obtain ⟨new, distinct⟩ := List.nodup_cons.1 distinct
      have free : session.table.get? first = none := by
        have := unbound first List.mem_cons_self
        rwa [SymbolTable.contains_eq_isSome_get?, Option.isSome_eq_false_iff,
          Option.isNone_iff_eq_none] at this
      have one : (session.allotOne first).table.get? name =
          if first = name then some session.nextVariable else session.table.get? name := by
        show (session.table.bind first session.nextVariable).get? name = _
        simp [SymbolTable.get?_bind, free]
      rw [allot_cons, ih distinct (unbound_allotOne new unbound), one]
      by_cases same : first = name
      · subst same
        simp [new]
      · have differs : name ≠ first := fun equal => same equal.symm
        rw [List.idxOf_cons, beq_false_of_ne same, cond_false]
        by_cases member : name ∈ names
        · simp only [member, if_true, List.mem_cons, or_true]
          show some (session.nextVariable + 1 + _) = _
          rw [BitVec.add_assoc, BitVec.ofNat_add, BitVec.add_comm 1]
          rfl
        · simp [member, same, differs]

end Session

end HackAssembler
