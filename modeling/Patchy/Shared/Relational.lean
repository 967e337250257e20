import Patchy.Shared.Procedure

set_option autoImplicit false

/-! Two fallible computations run side by side. -/

namespace Procedure

variable {ε σ τ α β γ δ : Type}

inductive Answers (values : α → β → Prop) : Except ε α → Except ε β → Prop
  | error (failure : ε) : Answers values (.error failure) (.error failure)
  | ok {first : α} {second : β} (related : values first second) : Answers values (.ok first) (.ok second)

/-- Started in related states, both sides end in related states with related answers. -/
def Related (states : σ → τ → Prop) (values : α → β → Prop) (left : Procedure ε σ α) (right : Procedure ε τ β) :
    Prop :=
  ∀ ⦃first : σ⦄ ⦃second : τ⦄, states first second →
    Answers values (left.exec first).1 (right.exec second).1 ∧ states (left.exec first).2 (right.exec second).2

theorem Answers.refl (answer : Except ε α) : Answers Eq answer answer := by
  cases answer with
  | error failure => exact .error failure
  | ok value => exact .ok rfl

theorem Answers.eq {first second : Except ε α} (answers : Answers Eq first second) : first = second := by
  cases answers with
  | error failure => rfl
  | ok same => rw [same]

theorem Answers.bind {values : α → β → Prop} {results : γ → δ → Prop} {first : Except ε α} {second : Except ε β}
    {left : α → Except ε γ} {right : β → Except ε δ} (answers : Answers values first second)
    (next : ∀ value other, values value other → Answers results (left value) (right other)) :
    Answers results (first >>= left) (second >>= right) := by
  cases answers with
  | error failure => exact .error failure
  | ok related => exact next _ _ related

section

variable {states : σ → τ → Prop} {values : α → β → Prop} {results : γ → δ → Prop}

theorem related_ofExcept {first : Except ε α} {second : Except ε β} (answers : Answers values first second) :
    Related states values (ofExcept first : Procedure ε σ α) (ofExcept second : Procedure ε τ β) :=
  fun _ _ together => ⟨answers, together⟩

theorem related_pure {first : α} {second : β} (related : values first second) :
    Related states values (pure first : Procedure ε σ α) (pure second : Procedure ε τ β) :=
  fun _ _ together => ⟨.ok related, together⟩

theorem related_throw (failure : ε) :
    Related states values (throw failure : Procedure ε σ α) (throw failure : Procedure ε τ β) :=
  fun _ _ together => ⟨.error failure, together⟩

theorem related_modify {change : σ → σ} {other : τ → τ}
    (keeps : ∀ first second, states first second → states (change first) (other second)) :
    Related states Eq (modify change : Procedure ε σ PUnit) (modify other : Procedure ε τ PUnit) :=
  fun first second together => ⟨.ok rfl, keeps first second together⟩

theorem related_get_bind {left : σ → Procedure ε σ α} {right : τ → Procedure ε τ β}
    (next : ∀ first second, states first second → Related states values (left first) (right second)) :
    Related states values (get >>= left) (get >>= right) :=
  fun first second together => next first second together together

theorem Related.bind {left : Procedure ε σ α} {right : Procedure ε τ β} {leftNext : α → Procedure ε σ γ}
    {rightNext : β → Procedure ε τ δ} (related : Related states values left right)
    (next : ∀ first second, values first second → Related states results (leftNext first) (rightNext second)) :
    Related states results (left >>= leftNext) (right >>= rightNext) := by
  intro first second together
  obtain ⟨answers, after⟩ := related together
  rw [exec_bind, exec_bind]
  rcases head : left.exec first with ⟨answer, middle⟩
  rcases other : right.exec second with ⟨otherAnswer, otherMiddle⟩
  rw [head, other] at answers after
  cases answers with
  | error failure => exact ⟨.error failure, after⟩
  | ok same => exact next _ _ same after

end

theorem ReadOnly.exec_anywhere {action : Procedure ε σ α} (readOnly : action.ReadOnly)
    (blind : Related (fun _ _ => True) Eq action action) (state other : σ) :
    action.exec other = ((action.exec state).1, other) :=
  Prod.ext (@blind other state trivial).1.eq (readOnly other)

end Procedure
