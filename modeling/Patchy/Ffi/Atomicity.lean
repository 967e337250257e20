import Patchy.Ffi.Builder

set_option autoImplicit false

namespace Patchy.Ffi

def runFrom (handle : PatchyTrampoline) (calls : List Call) : PatchyTrampoline :=
  calls.foldl (fun handle call => (call.run handle).trampoline) handle

def runCalls (calls : List Call) : PatchyTrampoline := runFrom create calls

def okCalls (handle : PatchyTrampoline) : List Call → List Call
  | [] => []
  | call :: rest =>
      let later := okCalls (call.run handle).trampoline rest
      if (call.run handle).status = .ok then call :: later else later

/-- The one call that changes its handle before its last check: a label is created and recorded, and
    only then is the output found to be null. -/
def Call.LeaksLabel (handle : PatchyTrampoline) (call : Call) : Prop :=
  match call with
  | .newLabel .valid .null => handle.labels.length ≤ u32Max
  | _ => False

def NeverLeaks (handle : PatchyTrampoline) : List Call → Prop
  | [] => True
  | call :: rest => ¬ call.LeaksLabel handle ∧ NeverLeaks (call.run handle).trampoline rest

theorem requireTrampoline_readOnly (trampoline : Pointer) : (requireTrampoline trampoline).ReadOnly := by
  cases trampoline <;> exact fun _ => rfl

theorem setInner_atomic (inner : Trampoline) : (setInner inner).Atomic := Procedure.atomic_modify _

theorem writeRequired_atomic (output : Pointer) (value : Nat) (name : String) :
    (writeRequired output value name).Atomic := by
  cases output
  · exact (Procedure.readOnly_ofExcept _).atomic
  · exact Procedure.atomic_modify _

theorem bind_inner_of_error {self inner : Trampoline} {label : Label} {failure : Failure}
    (run : self.bind label = (.error failure, inner)) : inner = self := by
  simp only [Trampoline.bind] at run
  split at run
  · exact (Prod.mk.inj run).2.symm
  · exact (Prod.mk.inj run).2.symm
  · exact absurd (Prod.mk.inj run).1 (by simp)

theorem bind_atomic (trampoline : Pointer) (label : Nat) : (bind trampoline label).Atomic := by
  intro before after error run
  rcases Procedure.bind_error run with failed | ⟨handle, middle, required, run⟩
  · exact (requireTrampoline_readOnly trampoline).atomic failed
  have current : handle = before.trampoline ∧ middle = before := by
    cases trampoline with
    | null => simp [requireTrampoline, invalid] at required
    | valid => simpa [requireTrampoline, Except.map, eq_comm] using required
  obtain ⟨rfl, rfl⟩ := current
  rcases Procedure.bind_error run with failed | ⟨found, middle', looked, run⟩
  · exact (Procedure.readOnly_ofExcept _).atomic failed
  obtain rfl : middle' = middle := by simpa using (congrArg Prod.snd looked).symm
  rcases bound : middle'.trampoline.inner.bind found with ⟨failure | ⟨⟩, inner⟩
  · have kept := bind_inner_of_error bound
    subst kept
    simp only [bound, setInner, Procedure.exec_bind, Procedure.exec_modify, Procedure.exec_throw] at run
    exact (Prod.mk.inj run).2.symm
  · simp only [bound] at run
    exact setInner_atomic inner run

theorem newLabel_valid_atomic (trampoline : Pointer) : (newLabel trampoline .valid).Atomic := by
  refine (requireTrampoline_readOnly trampoline).bind_atomic fun handle => ?_
  intro before after error run
  by_cases many : u32Max < handle.labels.length
  · simp only [many, if_true] at run
    exact (Procedure.readOnly_ofExcept _).atomic run
  · simp [many, Procedure.exec_bind, setInner, pushLabel, writeRequired] at run

theorem operation_atomic {call : Call} {handle : PatchyTrampoline} (safe : ¬ call.LeaksLabel handle)
    {output : Option Nat} {after : CallState} {error : FfiFailure}
    (run : call.operation.exec ⟨handle, output⟩ = (.error error, after)) : after = ⟨handle, output⟩ := by
  have required (trampoline : Pointer) {next : PatchyTrampoline → FfiM Unit}
      (atomic : ∀ handle, (next handle).Atomic) : (requireTrampoline trampoline >>= next).Atomic :=
    (requireTrampoline_readOnly trampoline).bind_atomic atomic
  have checked {α : Type} (result : FfiResult α) {next : α → FfiM Unit}
      (atomic : ∀ value, (next value).Atomic) : (Procedure.ofExcept result >>= next).Atomic :=
    (Procedure.readOnly_ofExcept result).bind_atomic atomic
  cases call with
  | length trampoline outputLength =>
    exact required trampoline (fun _ => writeRequired_atomic _ _ _) run
  | addBytes trampoline bytes count =>
    exact required trampoline (fun _ => checked _ fun _ => setInner_atomic _) run
  | newLabel trampoline outputLabel =>
    cases outputLabel with
    | valid => exact newLabel_valid_atomic trampoline run
    | null =>
      cases trampoline with
      | null =>
        simpa [Call.operation, newLabel, requireTrampoline, invalid, Procedure.exec_bind] using
          (congrArg Prod.snd run).symm
      | valid =>
        have many : u32Max < handle.labels.length := Nat.lt_of_not_le safe
        simpa [Call.operation, newLabel, requireTrampoline, invalid, Except.map, Procedure.exec_bind,
          many] using (congrArg Prod.snd run).symm
  | bind trampoline label => exact bind_atomic trampoline label run
  | absoluteCall trampoline function =>
    by_cases missing : function = 0
    · subst missing
      exact (Procedure.readOnly_ofExcept _).atomic run
    · simp only [Call.operation, absoluteCall, missing, if_false] at run
      exact required trampoline (fun _ => setInner_atomic _) run
  | absoluteJump trampoline destination => exact required trampoline (fun _ => setInner_atomic _) run
  | relativeJump trampoline destination => exact required trampoline (fun _ => setInner_atomic _) run
  | jumpTo trampoline label =>
    exact required trampoline (fun _ => checked _ fun _ => setInner_atomic _) run
  | jumpIf trampoline condition label =>
    exact checked _ (fun _ => required trampoline fun _ => checked _ fun _ => setInner_atomic _) run
  | preservedCall trampoline function setup setupLength handling handlingLength returnType =>
    by_cases missing : function = 0
    · subst missing
      exact (Procedure.readOnly_ofExcept _).atomic run
    · simp only [Call.operation, preservedCall, missing, if_false] at run
      exact checked _ (fun _ => required trampoline fun _ => checked _ fun _ => checked _ fun _ =>
        setInner_atomic _) run

theorem run_unchanged {call : Call} {handle : PatchyTrampoline} (safe : ¬ call.LeaksLabel handle)
    (failed : (call.run handle).status ≠ .ok) : (call.run handle).trampoline = handle := by
  have failed := mt (ffiCall_ok none call.operation ⟨handle, none⟩).mpr failed
  rcases run : call.operation.exec ⟨handle, none⟩ with ⟨error | ⟨⟩, after⟩
  · simp [Call.run, ffiCall_state, run, operation_atomic safe run]
  · simp [run] at failed

theorem leak_changes {call : Call} {handle : PatchyTrampoline} (leaks : call.LeaksLabel handle) :
    (call.run handle).status = .invalidArgument ∧
      (call.run handle).trampoline.labels.length = handle.labels.length + 1 := by
  simp only [Call.LeaksLabel] at leaks
  split at leaks
  · have few : ¬ u32Max < handle.labels.length := Nat.not_lt.mpr leaks
    simp [Call.run, ffiCall, Call.operation, newLabel, requireTrampoline, Procedure.exec_bind, few,
      setInner, pushLabel, writeRequired, invalid, FfiError.invalid]
  · contradiction

theorem okCalls_run (handle : PatchyTrampoline) (calls : List Call) (safe : NeverLeaks handle calls) :
    runFrom handle (okCalls handle calls) = runFrom handle calls := by
  induction calls generalizing handle with
  | nil => rfl
  | cons call rest ih =>
    have later := ih (call.run handle).trampoline safe.2
    by_cases succeeded : (call.run handle).status = .ok
    · simpa [okCalls, succeeded, runFrom] using later
    · rw [run_unchanged safe.1 succeeded] at later
      rw [okCalls, if_neg succeeded, run_unchanged safe.1 succeeded, later]
      change runFrom handle rest = runFrom (call.run handle).trampoline rest
      rw [run_unchanged safe.1 succeeded]

/-- A failing call leaves its handle alone exactly unless it leaks a label; a run without leaks ends
    as if its failing calls had never been made. -/
theorem call_atomic_iff (calls : List Call) (call : Call) :
    (((call.run (runCalls calls)).status ≠ .ok →
        (call.run (runCalls calls)).trampoline = runCalls calls) ↔ ¬ call.LeaksLabel (runCalls calls)) ∧
      (NeverLeaks create calls → runCalls (okCalls create calls) = runCalls calls) := by
  refine ⟨⟨fun atomic leaks => ?_, run_unchanged⟩, okCalls_run create calls⟩
  obtain ⟨status, grown⟩ := leak_changes leaks
  have same := congrArg (·.labels.length) (atomic (by simp [status]))
  simp [grown] at same

-- A label created behind the caller's back shifts the number of the next one.
theorem null_output_leaks :
    ((Call.newLabel .valid .null).run create).status = .invalidArgument ∧
      ((Call.newLabel .valid .null).run create).trampoline ≠ create ∧
      ((Call.newLabel .valid .valid).run ((Call.newLabel .valid .null).run create).trampoline).output =
        some 1 ∧
      ((Call.newLabel .valid .valid).run create).output = some 0 := by
  decide

end Patchy.Ffi
