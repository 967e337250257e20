import Mathlib.Logic.Relation

set_option autoImplicit false

/-! What every run of a nondeterministic machine comes to. -/

variable {σ τ : Type}

/-- Every run from a state meets `goal`, however its steps turn out, and none gets stuck before it does. -/
inductive Surely (step : σ → σ → Prop) (goal : σ → Prop) : σ → Prop
  | done {state : σ} (here : goal state) : Surely step goal state
  | step {state : σ} (moves : ∃ next, step state next) (follows : ∀ next, step state next → Surely step goal next) :
      Surely step goal state

namespace Surely

variable {step : σ → σ → Prop} {goal middle : σ → Prop} {state : σ}

theorem bind (first : Surely step middle state) (second : ∀ between, middle between → Surely step goal between) :
    Surely step goal state := by
  induction first with
  | done here => exact second _ here
  | step moves _ ih => exact .step moves ih

theorem mono (surely : Surely step middle state) (weaker : ∀ final, middle final → goal final) :
    Surely step goal state :=
  surely.bind fun final here => .done (weaker final here)

theorem head {next : σ} (only : ∀ other, step state other ↔ other = next) (rest : Surely step goal next) :
    Surely step goal state := by
  refine .step ⟨next, (only next).mpr rfl⟩ fun other moved => ?_
  rw [(only other).mp moved]
  exact rest

end Surely

/-- Each step of the abstract machine is a single move of the concrete one, whichever that makes, or it is no
    move at all, and there are only so many of these in a row. -/
structure Lockstep (step : σ → σ → Prop) (move : τ → τ → Prop) (related : σ → τ → Prop) (rank : σ → Nat) : Prop where
  matched {abstract : σ} {concrete : τ} (follows : related abstract concrete) (moves : ∃ next, step abstract next) :
    (∃ next, step abstract next ∧ related next concrete ∧ rank next < rank abstract) ∨
      (∃ moved, move concrete moved) ∧
        ∀ moved, move concrete moved → ∃ next, step abstract next ∧ related next moved

namespace Lockstep

variable {step : σ → σ → Prop} {move : τ → τ → Prop} {related : σ → τ → Prop} {rank : σ → Nat}
  {abstract : σ} {concrete : τ}

theorem surely (lockstep : Lockstep step move related rank) {goal : σ → Prop} {target : τ → Prop}
    (meets : ∀ abstract concrete, related abstract concrete → goal abstract → target concrete)
    (comes : Surely step goal abstract) (follows : related abstract concrete) : Surely move target concrete := by
  induction comes generalizing concrete with
  | done here => exact .done (meets _ _ follows here)
  | step moves _ ih =>
    rcases lockstep.matched follows moves with ⟨next, stepped, still, -⟩ | ⟨some, every⟩
    · exact ih next stepped still
    · refine .step some fun moved here => ?_
      obtain ⟨next, stepped, still⟩ := every moved here
      exact ih next stepped still

theorem move_matched (lockstep : Lockstep step move related rank)
    (unstuck : ∀ reached, Relation.ReflTransGen step abstract reached → ∃ next, step reached next)
    (follows : related abstract concrete) {moved : τ} (here : move concrete moved) :
    ∃ reached, Relation.ReflTransGen step abstract reached ∧ related reached moved := by
  induction count : rank abstract using Nat.strongRecOn generalizing abstract with
  | ind count ih =>
    subst count
    rcases lockstep.matched follows (unstuck _ .refl) with ⟨next, stepped, still, less⟩ | ⟨-, every⟩
    · obtain ⟨reached, run, related⟩ := ih _ less (fun reached run => unstuck reached (.head stepped run)) still rfl
      exact ⟨reached, .head stepped run, related⟩
    · obtain ⟨next, stepped, still⟩ := every moved here
      exact ⟨next, .single stepped, still⟩

theorem run (lockstep : Lockstep step move related rank)
    (unstuck : ∀ reached, Relation.ReflTransGen step abstract reached → ∃ next, step reached next)
    (follows : related abstract concrete) {final : τ} (moves : Relation.ReflTransGen move concrete final) :
    ∃ reached, Relation.ReflTransGen step abstract reached ∧ related reached final := by
  induction moves with
  | refl => exact ⟨abstract, .refl, follows⟩
  | tail _ here ih =>
    obtain ⟨reached, path, still⟩ := ih
    obtain ⟨after, more, follows⟩ :=
      lockstep.move_matched (fun next further => unstuck next (path.trans further)) still here
    exact ⟨after, path.trans more, follows⟩

end Lockstep
