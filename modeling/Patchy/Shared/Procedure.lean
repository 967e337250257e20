import Mathlib.Control.Basic

set_option autoImplicit false

/-! Fallible stateful computations whose state survives an error. -/

abbrev Procedure (ε σ α : Type) := ExceptT ε (StateM σ) α

namespace Procedure

variable {ε σ α β : Type}

def exec (action : Procedure ε σ α) (state : σ) : Except ε α × σ := action state

/-- Turn an error into a value, as a Rust `match` on a `Result` does. -/
def attempt (action : Procedure ε σ α) : Procedure ε σ (Except ε α) :=
  ExceptT.mk fun state => ((.ok (action.exec state).1), (action.exec state).2)

def ofExcept (result : Except ε α) : Procedure ε σ α :=
  ExceptT.mk fun state => (result, state)

@[simp] theorem exec_pure (value : α) (state : σ) :
    (pure value : Procedure ε σ α).exec state = (.ok value, state) := rfl

@[simp] theorem exec_throw (error : ε) (state : σ) :
    (throw error : Procedure ε σ α).exec state = (.error error, state) := rfl

@[simp] theorem exec_get (state : σ) :
    (get : Procedure ε σ σ).exec state = (.ok state, state) := rfl

@[simp] theorem exec_set (state next : σ) :
    (set next : Procedure ε σ PUnit).exec state = (.ok ⟨⟩, next) := rfl

@[simp] theorem map_ok (function : α → β) (value : α) :
    (Except.ok value : Except ε α).map function = .ok (function value) := rfl

@[simp] theorem exec_modify (state : σ) (change : σ → σ) :
    (modify change : Procedure ε σ PUnit).exec state = (.ok ⟨⟩, change state) := rfl

@[simp] theorem exec_attempt (action : Procedure ε σ α) (state : σ) :
    action.attempt.exec state = (.ok (action.exec state).1, (action.exec state).2) := rfl

@[simp] theorem exec_ofExcept (result : Except ε α) (state : σ) :
    (ofExcept result : Procedure ε σ α).exec state = (result, state) := rfl

theorem exec_bind (action : Procedure ε σ α) (next : α → Procedure ε σ β) (state : σ) :
    (action >>= next).exec state =
      match action.exec state with
      | (.ok value, after) => (next value).exec after
      | (.error error, after) => (.error error, after) := by
  simp only [exec]
  rcases run : action state with ⟨_ | _, after⟩
  · simp only [bind, ExceptT.bind, ExceptT.mk, StateT.bind, run, ExceptT.bindCont]
    rfl
  · simp only [bind, ExceptT.bind, ExceptT.mk, StateT.bind, run, ExceptT.bindCont]

@[simp] theorem exec_map (action : Procedure ε σ α) (function : α → β) (state : σ) :
    (function <$> action).exec state =
      ((action.exec state).1.map function, (action.exec state).2) := by
  have bound : (function <$> action).exec state = (action >>= fun value => pure (function value)).exec state := by
    rw [bind_pure_comp]
  rw [bound, exec_bind]
  rcases action.exec state with ⟨_ | _, after⟩ <;> rfl

theorem exec_get_bind (next : σ → Procedure ε σ β) (state : σ) :
    ((get : Procedure ε σ σ) >>= next).exec state = (next state).exec state := rfl

theorem exec_modify_bind (change : σ → σ) (next : PUnit → Procedure ε σ β) (state : σ) :
    ((modify change : Procedure ε σ PUnit) >>= next).exec state = (next ⟨⟩).exec (change state) := rfl

theorem bind_ok {action : Procedure ε σ α} {next : α → Procedure ε σ β} {before after : σ} {value : β}
    (run : (action >>= next).exec before = (.ok value, after)) :
    ∃ first middle, action.exec before = (.ok first, middle) ∧
      (next first).exec middle = (.ok value, after) := by
  rw [exec_bind] at run
  rcases head : action.exec before with ⟨_ | first, middle⟩
  · simp [head] at run
  · rw [head] at run
    exact ⟨first, middle, rfl, run⟩

theorem bind_error {action : Procedure ε σ α} {next : α → Procedure ε σ β} {before after : σ} {error : ε}
    (run : (action >>= next).exec before = (.error error, after)) :
    action.exec before = (.error error, after) ∨
      ∃ first middle, action.exec before = (.ok first, middle) ∧
        (next first).exec middle = (.error error, after) := by
  rw [exec_bind] at run
  rcases head : action.exec before with ⟨_ | first, middle⟩
  · rw [head] at run
    exact Or.inl (by simpa using run)
  · rw [head] at run
    exact Or.inr ⟨first, middle, rfl, run⟩

theorem ofExcept_cases {result : Except ε α} {next : α → Procedure ε σ β} {before after : σ} {answer : Except ε β}
    (run : (ofExcept result >>= next).exec before = (answer, after)) :
    (∃ error, result = .error error ∧ answer = .error error ∧ after = before) ∨
      ∃ value, result = .ok value ∧ (next value).exec before = (answer, after) := by
  cases result with
  | error error =>
    obtain ⟨rfl, rfl⟩ := Prod.mk.inj run
    exact Or.inl ⟨error, rfl, rfl, rfl⟩
  | ok value => exact Or.inr ⟨value, rfl, run⟩

theorem ofExcept_congr {result : Except ε α} {next other : α → Procedure ε σ β}
    (same : ∀ value, result = .ok value → next value = other value) :
    ofExcept result >>= next = ofExcept result >>= other := by
  cases result with
  | error error => rfl
  | ok value => exact same value rfl

theorem bind_cases {action : Procedure ε σ α} {next : α → Procedure ε σ β} {before after : σ} {result : Except ε β}
    (run : (action >>= next).exec before = (result, after)) :
    (∃ error, result = .error error ∧ action.exec before = (.error error, after)) ∨
      ∃ first middle, action.exec before = (.ok first, middle) ∧
        (next first).exec middle = (result, after) := by
  cases result with
  | ok value => exact Or.inr (bind_ok run)
  | error error => exact (bind_error run).imp (fun failed => ⟨error, rfl, failed⟩) id

def Preserves (relation : σ → σ → Prop) (action : Procedure ε σ α) : Prop :=
  ∀ state, relation state (action.exec state).2

theorem Preserves.bind {relation : σ → σ → Prop} {action : Procedure ε σ α}
    {next : α → Procedure ε σ β}
    (transitive : ∀ {a b c}, relation a b → relation b c → relation a c)
    (first : action.Preserves relation) (second : ∀ value, (next value).Preserves relation) :
    (action >>= next).Preserves relation := by
  intro state
  rw [exec_bind]
  rcases head : action.exec state with ⟨_ | value, middle⟩
  · simpa [head] using first state
  · have early := first state
    rw [head] at early
    exact transitive early (second value middle)

def Atomic (action : Procedure ε σ α) : Prop :=
  ∀ ⦃before after : σ⦄ ⦃error : ε⦄, action.exec before = (.error error, after) → after = before

def ReadOnly (action : Procedure ε σ α) : Prop := ∀ state, (action.exec state).2 = state

theorem ReadOnly.of_run {action : Procedure ε σ α} (readOnly : action.ReadOnly) {before after : σ}
    {result : Except ε α} (run : action.exec before = (result, after)) : after = before := by
  have same := readOnly before
  rwa [run] at same

theorem ReadOnly.atomic {action : Procedure ε σ α} (readOnly : action.ReadOnly) : action.Atomic :=
  fun _ _ _ run => readOnly.of_run run

@[simp] theorem readOnly_ofExcept (result : Except ε α) :
    (ofExcept result : Procedure ε σ α).ReadOnly := fun _ => rfl

theorem atomic_modify (change : σ → σ) : (modify change : Procedure ε σ PUnit).Atomic := by
  intro before after error run
  simp at run

theorem ReadOnly.bind_atomic {action : Procedure ε σ α} {next : α → Procedure ε σ β}
    (readOnly : action.ReadOnly) (atomic : ∀ value, (next value).Atomic) : (action >>= next).Atomic := by
  intro before after error run
  rcases bind_error run with failed | ⟨value, middle, passed, failed⟩
  · exact readOnly.atomic failed
  · have same := readOnly before
    rw [passed] at same
    exact (atomic value failed).trans same

def Throws (kind : ε → Prop) (action : Procedure ε σ α) : Prop :=
  ∀ ⦃before after : σ⦄ ⦃error : ε⦄, action.exec before = (.error error, after) → kind error

theorem Throws.bind {kind : ε → Prop} {action : Procedure ε σ α} {next : α → Procedure ε σ β}
    (first : action.Throws kind) (second : ∀ value, (next value).Throws kind) :
    (action >>= next).Throws kind := by
  intro before after error run
  rcases bind_error run with failed | ⟨value, middle, -, failed⟩
  · exact first failed
  · exact second value failed

theorem throws_pure {kind : ε → Prop} (value : α) : (pure value : Procedure ε σ α).Throws kind := by
  intro before after error run
  simp at run

theorem throws_throw {kind : ε → Prop} {error : ε} (holds : kind error) :
    (throw error : Procedure ε σ α).Throws kind := by
  intro before after reason run
  obtain ⟨rfl, -⟩ : error = reason ∧ before = after := by simpa using run
  exact holds

theorem ReadOnly.preserves {relation : σ → σ → Prop} {action : Procedure ε σ α} (readOnly : action.ReadOnly)
    (reflexive : ∀ state, relation state state) : action.Preserves relation := by
  intro state
  rw [readOnly state]
  exact reflexive state

theorem readOnly_pure (value : α) : (pure value : Procedure ε σ α).ReadOnly := fun _ => rfl

theorem readOnly_throw (error : ε) : (throw error : Procedure ε σ α).ReadOnly := fun _ => rfl

theorem ReadOnly.bind {action : Procedure ε σ α} {next : α → Procedure ε σ β} (first : action.ReadOnly)
    (second : ∀ value, (next value).ReadOnly) : (action >>= next).ReadOnly := by
  intro state
  have early := first state
  rw [exec_bind]
  rcases head : action.exec state with ⟨_ | value, middle⟩
  · rwa [head] at early
  · rw [head] at early
    exact (second value middle).trans early

theorem Preserves.of_run {relation : σ → σ → Prop} {action : Procedure ε σ α} (preserves : action.Preserves relation)
    {before after : σ} {result : Except ε α} (run : action.exec before = (result, after)) :
    relation before after := by
  have kept := preserves before
  rwa [run] at kept

end Procedure
