/-
# Running the steps of a session

A step of a session ends in a value or in a failure, and in both cases it leaves a
session behind. This module supplies the two observations that the theory is stated
with, the session left behind and the failure, and the rules by which they pass through
sequences and repetitions of steps. It says nothing about any particular step.
-/

import HackAssembler.Session

namespace HackAssembler

namespace Session

variable {α β : Type} {session reached final : Session} {failure : Failure}

/-- The session that a step leaves behind, whether or not it fails. -/
def after (step : SessionM α) (session : Session) : Session :=
  match step session with
  | .ok _ reached => reached
  | .error _ reached => reached

/-- The failure of a step, if it fails. -/
def failure? (step : SessionM α) (session : Session) : Option Failure :=
  match step session with
  | .ok _ _ => none
  | .error failure _ => some failure

theorem after_of_ok {step : SessionM α} {value : α} (h : step session = .ok value reached) :
    after step session = reached := by
  rw [after, h]

theorem after_of_error {step : SessionM α} (h : step session = .error failure reached) :
    after step session = reached := by
  rw [after, h]

theorem failure?_of_ok {step : SessionM α} {value : α} (h : step session = .ok value reached) :
    failure? step session = none := by
  rw [failure?, h]

theorem failure?_of_error {step : SessionM α} (h : step session = .error failure reached) :
    failure? step session = some failure := by
  rw [failure?, h]

/-- A step without a failure ends in a value. -/
theorem exists_ok_of_failure?_eq_none {step : SessionM α} (h : failure? step session = none) :
    ∃ value, step session = .ok value (after step session) := by
  cases result : step session with
  | ok value reached => exact ⟨value, by rw [after_of_ok result]⟩
  | error failure reached =>
      rw [failure?_of_error result] at h
      cases h

/-! ## Sequences of steps -/

theorem bind_of_ok {step : SessionM α} {next : α → SessionM β} {value : α}
    (h : step session = .ok value reached) :
    (step >>= next) session = next value reached := by
  show EStateM.bind step next session = next value reached
  rw [EStateM.bind, h]

theorem bind_of_error {step : SessionM α} {next : α → SessionM β}
    (h : step session = .error failure reached) :
    (step >>= next) session = .error failure reached := by
  show EStateM.bind step next session = .error failure reached
  rw [EStateM.bind, h]

/-- A sequence ends in a value only by way of a value of its first step. -/
theorem bind_eq_ok_iff {step : SessionM α} {next : α → SessionM β} {result : β} :
    (step >>= next) session = .ok result final ↔
      ∃ value reached, step session = .ok value reached ∧
        next value reached = .ok result final := by
  constructor
  · intro h
    cases first : step session with
    | ok value reached => exact ⟨value, reached, rfl, (bind_of_ok first).symm.trans h⟩
    | error failure reached =>
        rw [bind_of_error first] at h
        cases h
  · rintro ⟨value, reached, first, rest⟩
    rw [bind_of_ok first, rest]

/-- Sequences end alike if their first steps do, and the rest does from there on. -/
theorem bind_congr {step step' : SessionM α} {next next' : α → SessionM β}
    (first : step' session = step session)
    (rest : ∀ value reached, step session = .ok value reached →
      next' value reached = next value reached) :
    (step' >>= next') session = (step >>= next) session := by
  cases result : step session with
  | ok value reached =>
      rw [bind_of_ok result, bind_of_ok (first.trans result), rest value reached result]
  | error failure reached => rw [bind_of_error result, bind_of_error (first.trans result)]

/-- A loop over two lists is a loop over the one and then over the other. -/
theorem forM_append_of_ok {first second : List α} {body : α → SessionM PUnit}
    (h : first.forM body session = .ok () reached) :
    (first ++ second).forM body session = second.forM body reached := by
  rw [List.forM_eq_forM, List.forM_append]
  exact bind_of_ok h

/-- The same of a loop that carries a value along. -/
theorem foldlM_append_of_ok {first second : List α} {body : β → α → SessionM β}
    {start carried : β} (h : first.foldlM body start session = .ok carried reached) :
    (first ++ second).foldlM body start session = second.foldlM body carried reached := by
  rw [List.foldlM_append]
  exact bind_of_ok h

/-! ## What steps ensure -/

/-- A step has ended with a property of sessions, and if it has failed, with such a failure. -/
def Ends (P : Session → Prop) (Q : Failure → Prop) : EStateM.Result Failure Session α → Prop
  | .ok _ reached => P reached
  | .error failure reached => P reached ∧ Q failure

/-- A property of sessions survives a step, and the step fails in no other way than this. -/
def Ensures (P : Session → Prop) (Q : Failure → Prop) (step : SessionM α) : Prop :=
  ∀ session, P session → Ends P Q (step session)

namespace Ensures

variable {P : Session → Prop} {Q : Failure → Prop}

/-- What each step of a sequence ensures is ensured by the sequence: a failure of the first
step ends it with what that step left behind. -/
theorem bind {step : SessionM α} {next : α → SessionM β} (first : Ensures P Q step)
    (rest : ∀ value, Ensures P Q (next value)) : Ensures P Q (step >>= next) := by
  intro session holds
  have reachedHolds := first session holds
  cases result : step session with
  | ok value reached =>
      rw [result] at reachedHolds
      rw [bind_of_ok result]
      exact rest value reached reachedHolds
  | error failure reached =>
      rw [result] at reachedHolds
      rw [bind_of_error result]
      exact reachedHolds

/-- Giving a value leaves the session alone. -/
theorem pure (value : α) : Ensures P Q (Pure.pure value) := fun _ holds => holds

/-- What each round of a loop ensures is ensured by the loop. -/
theorem forM {items : List α} {body : α → SessionM PUnit}
    (each : ∀ item ∈ items, Ensures P Q (body item)) : Ensures P Q (items.forM body) := by
  induction items with
  | nil => exact Ensures.pure _
  | cons item items ih =>
      exact Ensures.bind (each item List.mem_cons_self) fun _ =>
        ih fun later member => each later (List.mem_cons_of_mem item member)

/-- The same of a loop that carries a value along. -/
theorem foldlM {items : List α} {body : β → α → SessionM β}
    (each : ∀ carried, ∀ item ∈ items, Ensures P Q (body carried item)) (start : β) :
    Ensures P Q (items.foldlM body start) := by
  induction items generalizing start with
  | nil => exact Ensures.pure _
  | cons item items ih =>
      exact Ensures.bind (each start item List.mem_cons_self) fun carried =>
        ih (fun carried later member => each carried later (List.mem_cons_of_mem item member))
          carried

/-- What is ensured holds of the session that is left behind. -/
theorem after {step : SessionM α} (ensures : Ensures P Q step) (holds : P session) :
    P (after step session) := by
  have ended := ensures session holds
  cases result : step session with
  | ok value reached =>
      rw [result] at ended
      rw [after_of_ok result]
      exact ended
  | error failure reached =>
      rw [result] at ended
      rw [after_of_error result]
      exact ended.1

theorem failure? {step : SessionM α} (ensures : Ensures P Q step) (holds : P session)
    (failed : failure? step session = some failure) : Q failure := by
  have ended := ensures session holds
  cases result : step session with
  | ok value reached =>
      rw [failure?_of_ok result] at failed
      cases failed
  | error other reached =>
      rw [failure?_of_error result] at failed
      cases failed
      rw [result] at ended
      exact ended.2

end Ensures

/-! ## What steps preserve -/

/-- A property of sessions survives a step, whether or not the step fails. -/
def Preserves (P : Session → Prop) (step : SessionM α) : Prop :=
  ∀ session, P session → P (after step session)

namespace Preserves

variable {P : Session → Prop}

/-- A step preserves what it ensures without a word on its failures. -/
theorem iff_ensures {step : SessionM α} :
    Preserves P step ↔ Ensures P (fun _ => True) step := by
  constructor
  · intro preserves session holds
    have reachedHolds := preserves session holds
    cases result : step session with
    | ok value reached =>
        rw [after_of_ok result] at reachedHolds
        exact reachedHolds
    | error failure reached =>
        rw [after_of_error result] at reachedHolds
        exact ⟨reachedHolds, trivial⟩
  · intro ensures session holds
    exact ensures.after holds

theorem bind {step : SessionM α} {next : α → SessionM β} (first : Preserves P step)
    (rest : ∀ value, Preserves P (next value)) : Preserves P (step >>= next) :=
  iff_ensures.2 (.bind (iff_ensures.1 first) fun value => iff_ensures.1 (rest value))

theorem pure (value : α) : Preserves P (Pure.pure value) := iff_ensures.2 (.pure value)

theorem forM {items : List α} {body : α → SessionM PUnit}
    (each : ∀ item ∈ items, Preserves P (body item)) : Preserves P (items.forM body) :=
  iff_ensures.2 (.forM fun item member => iff_ensures.1 (each item member))

theorem foldlM {items : List α} {body : β → α → SessionM β}
    (each : ∀ carried, ∀ item ∈ items, Preserves P (body carried item)) (start : β) :
    Preserves P (items.foldlM body start) :=
  iff_ensures.2 (.foldlM (fun carried item member => iff_ensures.1 (each carried item member))
    start)

end Preserves

end Session

end HackAssembler
