/-
# Comparing two runs

Two steps that are taken side by side, each in a session of its own. Their outcomes match
if both give the same value or both fail, and what they leave behind is related as asked.
This module supplies the rules by which a comparison passes through sequences and
repetitions, so that two runs are compared one step at a time. Which sessions are related,
and what two failures have to do with each other, is left to the use. A step that is taken
on both sides respects a relation if it fails on both sides alike; the steps that the two
passes share do, wherever related sessions stand at the same line.
-/

import Mathlib.Data.List.Forall2
import HackAssembler.Proofs.Run
import HackAssembler.Proofs.Scanning

namespace HackAssembler

namespace Session

variable {α β ι κ : Type}

/-- The value or the failure that a step ends in. -/
def outcome (step : SessionM α) (session : Session) : Except Failure α :=
  match step session with
  | .ok value _ => .ok value
  | .error failure _ => .error failure

theorem outcome_of_ok {step : SessionM α} {session reached : Session} {value : α}
    (h : step session = .ok value reached) : outcome step session = .ok value := by
  rw [outcome, h]

theorem outcome_of_error {step : SessionM α} {session reached : Session} {failure : Failure}
    (h : step session = .error failure reached) : outcome step session = .error failure := by
  rw [outcome, h]

/-- A step is determined by its outcome and by what it leaves behind. -/
theorem eq_of_outcome_eq_ok {step : SessionM α} {session : Session} {value : α}
    (h : outcome step session = .ok value) : step session = .ok value (after step session) := by
  cases result : step session with
  | ok other reached =>
      rw [outcome_of_ok result] at h
      cases h
      rw [after_of_ok result]
  | error failure reached =>
      rw [outcome_of_error result] at h
      cases h

theorem eq_of_outcome_eq_error {step : SessionM α} {session : Session} {failure : Failure}
    (h : outcome step session = .error failure) :
    step session = .error failure (after step session) := by
  cases result : step session with
  | ok value reached =>
      rw [outcome_of_ok result] at h
      cases h
  | error other reached =>
      rw [outcome_of_error result] at h
      cases h
      rw [after_of_error result]

/-- A loop is a loop that carries nothing along. -/
theorem forM_eq_foldlM (body : ι → SessionM PUnit) (items : List ι) :
    items.forM body = items.foldlM (fun _ item => body item) () := by
  induction items with
  | nil => rfl
  | cons item items ih =>
      show (body item >>= fun _ => items.forM body) = _
      rw [ih]
      rfl

/-- Two ends of steps match: they give the same value and leave sessions behind that are
related by `P`, or they are failures that are related, along with what they leave behind,
by `E`. -/
inductive Matches (P : Session → Session → Prop)
    (E : Failure → Failure → Session → Session → Prop) :
    EStateM.Result Failure Session α → EStateM.Result Failure Session α → Prop
  | ok {value : α} {reached reached' : Session} (related : P reached reached') :
      Matches P E (.ok value reached) (.ok value reached')
  | error {failure failure' : Failure} {reached reached' : Session}
      (related : E failure failure' reached reached') :
      Matches P E (.error failure reached) (.error failure' reached')

namespace Matches

variable {P Q : Session → Session → Prop} {E F : Failure → Failure → Session → Session → Prop}
  {session session' : Session}

theorem mono {first second : EStateM.Result Failure Session α} (h : Matches P E first second)
    (sessions : ∀ s t, P s t → Q s t) (failures : ∀ f g s t, E f g s t → F f g s t) :
    Matches Q F first second := by
  cases h with
  | ok related => exact .ok (sessions _ _ related)
  | error related => exact .error (failures _ _ _ _ related)

/-- Sequences match if their first steps do, and what follows does wherever the first
steps can lead. -/
theorem bind {step step' : SessionM α} {next next' : α → SessionM β}
    (first : Matches P E (step session) (step' session'))
    (rest : ∀ value s t, P s t → Matches Q E (next value s) (next' value t)) :
    Matches Q E ((step >>= next) session) ((step' >>= next') session') := by
  generalize one : step session = result, other : step' session' = result' at first
  cases first with
  | ok related =>
      rw [bind_of_ok one, bind_of_ok other]
      exact rest _ _ _ related
  | error related =>
      rw [bind_of_error one, bind_of_error other]
      exact .error related

/-- Loops that carry a value along match if their rounds do. -/
theorem foldlM {R : ι → κ → Prop} {body : β → ι → SessionM β} {body' : β → κ → SessionM β}
    (each : ∀ carried item item', R item item' → ∀ s t, P s t →
      Matches P E (body carried item s) (body' carried item' t))
    {items : List ι} {items' : List κ} (paired : List.Forall₂ R items items') (start : β)
    (related : P session session') :
    Matches P E (items.foldlM body start session) (items'.foldlM body' start session') := by
  induction paired generalizing start session session' with
  | nil => exact .ok related
  | cons head tail ih =>
      rw [List.foldlM_cons, List.foldlM_cons]
      exact (each start _ _ head _ _ related).bind fun value s t => ih value

/-- Loops match if their rounds do. -/
theorem forM {R : ι → κ → Prop} {body : ι → SessionM PUnit} {body' : κ → SessionM PUnit}
    (each : ∀ item item', R item item' → ∀ s t, P s t →
      Matches P E (body item s) (body' item' t))
    {items : List ι} {items' : List κ} (paired : List.Forall₂ R items items')
    (related : P session session') :
    Matches P E (items.forM body session) (items'.forM body' session') := by
  induction paired generalizing session session' with
  | nil => exact .ok related
  | cons head tail ih => exact (each _ _ head _ _ related).bind fun _ s t => ih

end Matches

/-! ## The same step on both sides -/

/-- The step ends in the same way in related sessions, and leaves related ones behind. -/
def Respects (P : Session → Session → Prop) (step : SessionM α) : Prop :=
  ∀ session session', P session session' →
    Matches P (fun failure failure' reached reached' => failure = failure' ∧ P reached reached')
      (step session) (step session')

namespace Respects

variable {P : Session → Session → Prop}

theorem bind {step : SessionM α} {next : α → SessionM β} (first : Respects P step)
    (rest : ∀ value, Respects P (next value)) : Respects P (step >>= next) := by
  intro session session' related
  exact (first session session' related).bind fun value s t => rest value s t

theorem pure (value : α) : Respects P (Pure.pure value) := fun _ _ related => .ok related

/-- A step may look at what related sessions have in common. -/
theorem look {next : Session → SessionM α} (shared : ∀ s t, P s t → next s = next t)
    (each : ∀ session, Respects P (next session)) : Respects P (get >>= next) := by
  intro session session' related
  show Matches _ _ (next session session) (next session' session')
  rw [← shared session session' related]
  exact each session session session' related

theorem forM {body : ι → SessionM PUnit} (each : ∀ item, Respects P (body item))
    (items : List ι) : Respects P (items.forM body) := by
  intro session session' related
  refine Matches.forM (R := Eq) ?_ (List.forall₂_refl items) related
  rintro item _ rfl
  exact each item

theorem foldlM {body : β → ι → SessionM β} (each : ∀ carried item, Respects P (body carried item))
    (items : List ι) (start : β) : Respects P (items.foldlM body start) := by
  intro session session' related
  refine Matches.foldlM (R := Eq) ?_ (List.forall₂_refl items) start related
  rintro carried item _ rfl
  exact each carried item

theorem checkCanceled (canceled : Bool) : Respects P (checkCanceled canceled) := by
  intro session session' related
  cases canceled with
  | true => exact .error ⟨rfl, related⟩
  | false => exact .ok related

end Respects

/-- Related sessions stand at the same line under the same settings, and stay related while
both of them count lines. -/
structure InStep (P : Session → Session → Prop) : Prop where
  config : ∀ s t, P s t → t.config = s.config
  line : ∀ s t, P s t → t.line = s.line
  count : ∀ s t command, P s t → P (s.count command) (t.count command)
  countRefused : ∀ s t, P s t → P s.countRefused t.countRefused

namespace InStep

variable {P : Session → Session → Prop} (inStep : InStep P)

include inStep

theorem advance (line : Bytes) : Respects P (advance line) := by
  intro session session' related
  rw [advance_eq, advance_eq, inStep.config _ _ related, inStep.line _ _ related]
  split
  · exact .error ⟨rfl, inStep.countRefused _ _ related⟩
  · exact .ok (inStep.count _ _ _ related)

theorem reject (statement : Statement) (message : Bytes) :
    Respects P (reject statement message : SessionM α) := by
  intro session session' related
  rw [Session.reject, Session.reject, inStep.line _ _ related]
  exact .error ⟨rfl, related⟩

theorem expectEnd (source : Source) : Respects P (expectEnd source) := by
  intro session session' related
  rw [Session.expectEnd, Session.expectEnd, inStep.line _ _ related]
  cases source.readFault with
  | none => exact .ok related
  | some fault => exact .error ⟨rfl, related⟩

end InStep

end Session

end HackAssembler
