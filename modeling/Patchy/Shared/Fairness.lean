import Mathlib.Order.WellFounded
import Patchy.Shared.Machine

set_option autoImplicit false

/-! Runs that never end, and what happens in them sooner or later. -/

namespace Machine

variable {σ α τ : Type}

structure Run (machine : Machine σ α) where
  state : Nat → σ
  operation : Nat → α
  initial : machine.initial (state 0)
  admitted : ∀ time, machine.admits (state time) (operation time)
  next : ∀ time, state (time + 1) = machine.next (state time) (operation time)

namespace Run

variable {machine : Machine σ α} (run : machine.Run)

def Eventually (time : Nat) (holds : σ → Prop) : Prop := ∃ later, time ≤ later ∧ holds (run.state later)

def Fair (enabled : σ → Prop) (occurs : σ → α → Prop) : Prop :=
  (∀ time, run.Eventually time enabled) →
    ∀ time, ∃ later, time ≤ later ∧ occurs (run.state later) (run.operation later)

theorem reachable (time : Nat) : machine.Reachable (run.state time) := by
  induction time with
  | zero => exact .start run.initial
  | succ time ih =>
    rw [run.next]
    exact ih.step (run.admitted time)

variable {run}

theorem lasts {holds goal : σ → Prop} {time : Nat} (here : holds (run.state time))
    (step : ∀ time, holds (run.state time) → goal (run.state (time + 1)) ∨ holds (run.state (time + 1)))
    (never : ∀ later, time ≤ later → ¬ goal (run.state later)) (count : Nat) : holds (run.state (time + count)) := by
  induction count with
  | zero => exact here
  | succ count ih =>
    rcases step (time + count) ih with reached | still
    · exact absurd reached (never _ (by omega))
    · exact still

theorem sinks {rel : τ → τ → Prop} (wellFounded : WellFounded rel) {rank : σ → τ} {occurs : σ → α → Prop} {start : Nat}
    (step : ∀ time, start ≤ time → rel (rank (run.state (time + 1))) (rank (run.state time)) ∨
      ¬ occurs (run.state time) (run.operation time) ∧ rank (run.state (time + 1)) = rank (run.state time))
    (again : ∀ time, ∃ later, time ≤ later ∧ occurs (run.state later) (run.operation later)) : False := by
  have bounded (value : τ) : ∀ time, start ≤ time → rank (run.state time) = value → False := by
    induction value using wellFounded.induction with
    | _ value ih =>
      -- Until the next occurrence the rank stays, or it has sunk before.
      have untilNext (distance : Nat) : ∀ time, start ≤ time → rank (run.state time) = value →
          occurs (run.state (time + distance)) (run.operation (time + distance)) → False := by
        induction distance with
        | zero =>
          intro time late same now
          rcases step time late with lower | ⟨idle, -⟩
          · exact ih _ (same ▸ lower) (time + 1) (by omega) rfl
          · exact idle now
        | succ distance closer =>
          intro time late same later
          rcases step time late with lower | ⟨-, stays⟩
          · exact ih _ (same ▸ lower) (time + 1) (by omega) rfl
          · exact closer (time + 1) (by omega) (stays.trans same) (by rwa [Nat.add_right_comm, Nat.add_assoc])
      intro time late same
      obtain ⟨later, after, now⟩ := again time
      exact untilNext (later - time) time late same (by rwa [Nat.add_sub_cancel' after])
  exact bounded _ start le_rfl rfl

/-- What lasts until it has reached its goal, and is again and again able to take a step towards it, reaches it. -/
theorem eventually_of_rank {rel : τ → τ → Prop} (wellFounded : WellFounded rel) {rank : σ → τ}
    {holds goal enabled : σ → Prop} {occurs : σ → α → Prop} (fair : run.Fair enabled occurs)
    (step : ∀ time, holds (run.state time) → goal (run.state (time + 1)) ∨ holds (run.state (time + 1)) ∧
      (rel (rank (run.state (time + 1))) (rank (run.state time)) ∨
        ¬ occurs (run.state time) (run.operation time) ∧ rank (run.state (time + 1)) = rank (run.state time)))
    (enables : ∀ time, holds (run.state time) → run.Eventually time fun state => enabled state ∨ ¬ holds state)
    {time : Nat} (here : holds (run.state time)) : run.Eventually time goal := by
  by_contra never
  simp only [Eventually, not_exists, not_and] at never
  have always (later : Nat) (after : time ≤ later) : holds (run.state later) := by
    have still := lasts here (fun time now => (step time now).imp_right And.left) never (later - time)
    rwa [Nat.add_sub_cancel' after] at still
  refine @sinks _ _ _ _ run _ wellFounded rank occurs time (fun later after => ?_) (fair fun start => ?_)
  · rcases step later (always later after) with reached | ⟨-, sinking⟩
    · exact absurd reached (never _ (by omega))
    · exact sinking
  · obtain ⟨later, after, able | lost⟩ := enables (max start time) (always _ (by omega))
    · exact ⟨later, by omega, able⟩
    · exact absurd (always later (by omega)) lost

end Run

end Machine
