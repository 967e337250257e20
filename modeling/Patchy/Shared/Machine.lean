import Mathlib.Logic.Relation

set_option autoImplicit false

/-! Deterministic machines driven by operations that an environment may or may not admit. -/

structure Machine (σ α : Type) where
  initial : σ → Prop
  admits : σ → α → Prop
  next : σ → α → σ

namespace Machine

variable {σ α τ : Type}

inductive Reachable (machine : Machine σ α) : σ → Prop
  | start {state : σ} (initial : machine.initial state) : machine.Reachable state
  | step {state : σ} {operation : α} (before : machine.Reachable state)
      (admitted : machine.admits state operation) : machine.Reachable (machine.next state operation)

def Step (machine : Machine σ α) (before after : σ) : Prop :=
  ∃ operation, machine.admits before operation ∧ after = machine.next before operation

def Leads (machine : Machine σ α) : σ → σ → Prop := Relation.ReflTransGen machine.Step

theorem Reachable.leads {machine : Machine σ α} {before after : σ} (reachable : machine.Reachable before)
    (leads : machine.Leads before after) : machine.Reachable after := by
  induction leads with
  | refl => exact reachable
  | tail _ step ih =>
    obtain ⟨operation, admitted, rfl⟩ := step
    exact ih.step admitted

theorem Reachable.invariant {machine : Machine σ α} (holds : σ → Prop)
    (starts : ∀ state, machine.initial state → holds state)
    (keeps : ∀ state operation, holds state → machine.admits state operation →
      holds (machine.next state operation)) {state : σ} (reachable : machine.Reachable state) :
    holds state := by
  induction reachable with
  | start initial => exact starts _ initial
  | step _ admitted ih => exact keeps _ _ ih admitted

theorem Reachable.invariant_along {machine : Machine σ α} (holds : σ → Prop)
    (starts : ∀ state, machine.initial state → holds state)
    (keeps : ∀ state operation, machine.Reachable state → holds state → machine.admits state operation →
      holds (machine.next state operation)) {state : σ} (reachable : machine.Reachable state) : holds state := by
  induction reachable with
  | start initial => exact starts _ initial
  | step before admitted ih => exact keeps _ _ before ih admitted

theorem refines_run {machine : Machine σ α} (holds : σ → Prop) (abstract : σ → τ) (step : τ → τ → Prop)
    (keeps : ∀ state operation, holds state → machine.admits state operation →
      holds (machine.next state operation))
    (refines : ∀ state operation, holds state → machine.admits state operation →
      step (abstract state) (abstract (machine.next state operation)))
    {before after : σ} (good : holds before) (leads : machine.Leads before after) :
    Relation.ReflTransGen step (abstract before) (abstract after) := by
  have stays : holds after ∧ Relation.ReflTransGen step (abstract before) (abstract after) := by
    induction leads with
    | refl => exact ⟨good, .refl⟩
    | tail _ move ih =>
      obtain ⟨operation, admitted, rfl⟩ := move
      exact ⟨keeps _ _ ih.1 admitted, ih.2.tail (refines _ _ ih.1 admitted)⟩
  exact stays.2

end Machine
