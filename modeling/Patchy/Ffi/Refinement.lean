import Patchy.Builder.Assembly
import Patchy.Ffi.Atomicity

set_option autoImplicit false

namespace Patchy.Ffi

def Call.PointersValid : Call → Prop
  | .length trampoline output | .newLabel trampoline output => trampoline = .valid ∧ output = .valid
  | .addBytes trampoline bytes _ => trampoline = .valid ∧ bytes ≠ none
  | .preservedCall trampoline _ setup _ handling _ _ =>
      trampoline = .valid ∧ setup ≠ none ∧ handling ≠ none
  | .bind trampoline _ | .absoluteCall trampoline _ | .absoluteJump trampoline _
  | .relativeJump trampoline _ | .jumpTo trampoline _ | .jumpIf trampoline _ _ => trampoline = .valid

/-- The builder method behind a call, with its arguments read as the C header describes them: label
    number `n` is the label created by the `n`-th call of `new_label`, counted from zero. -/
def Call.rustOp : Call → Except FfiFailure (Option BuilderOp)
  | .length _ _ => .ok none
  | .addBytes _ contents count => do return some (.bytes (← requireBytes contents count "bytes"))
  | .newLabel _ _ => .ok (some .newLabel)
  | .bind _ label => .ok (some (.bind ⟨label⟩))
  | .absoluteCall _ function => .ok (some (.absoluteCall function))
  | .absoluteJump _ destination => .ok (some (.absoluteJump destination))
  | .relativeJump _ destination => .ok (some (.relativeJump destination))
  | .jumpTo _ label => .ok (some (.jumpTo ⟨label⟩))
  | .jumpIf _ condition label => do return some (.jumpIf (← parseCondition condition) ⟨label⟩)
  | .preservedCall _ function setup setupLength handling handlingLength returnType => do
      let returnType ← parseReturnType returnType
      let setup ← requireBytes setup setupLength "argument setup"
      let handling ← requireBytes handling handlingLength "result handling"
      return some (.preservedCall function setup handling returnType)

def rustOps (calls : List Call) : List BuilderOp :=
  calls.filterMap fun call => call.rustOp.toOption.join

structure Mirrors (handle : PatchyTrampoline) : Prop where
  labels : handle.labels = (List.range handle.inner.labels.length).map Label.mk
  targets : ∀ fixup ∈ handle.inner.relativeFixups, ∀ label, fixup.target = .label label →
    label.index < handle.inner.labels.length

theorem create_mirrors : Mirrors create := ⟨rfl, by simp [create, Trampoline.new]⟩

theorem Mirrors.lookup {handle : PatchyTrampoline} (mirrors : Mirrors handle) {number : Nat} {label : Label} :
    lookupLabel handle number = .ok label ↔ label = ⟨number⟩ ∧ number < handle.inner.labels.length := by
  simp only [lookupLabel]
  rw [mirrors.labels, List.getElem?_map]
  by_cases known : number < handle.inner.labels.length
  · simp [known, eq_comm]
  · simp [known, invalid]

theorem requireTrampoline_bind {α : Type} {trampoline : Pointer} {next : PatchyTrampoline → FfiM α}
    {before after : CallState} {value : α}
    (run : (requireTrampoline trampoline >>= next).exec before = (.ok value, after)) :
    (next before.trampoline).exec before = (.ok value, after) := by
  obtain ⟨handle, middle, required, run⟩ := Procedure.bind_ok run
  cases trampoline with
  | null => simp [requireTrampoline, invalid] at required
  | valid =>
    obtain ⟨rfl, rfl⟩ : before.trampoline = handle ∧ before = middle := by
      simpa [requireTrampoline, Except.map] using required
    exact run

theorem ofExcept_bind {α β : Type} {result : FfiResult α} {next : α → FfiM β}
    {before after : CallState} {value : β}
    (run : (Procedure.ofExcept result >>= next).exec before = (.ok value, after)) :
    ∃ found, result = .ok found ∧ (next found).exec before = (.ok value, after) := by
  obtain ⟨found, middle, parsed, run⟩ := Procedure.bind_ok run
  obtain ⟨rfl, rfl⟩ : result = .ok found ∧ before = middle := by simpa using parsed
  exact ⟨found, rfl, run⟩

theorem setInner_ok {inner : Trampoline} {before after : CallState}
    (run : (setInner inner).exec before = (.ok (), after)) :
    after = { before with trampoline := { before.trampoline with inner := inner } } := by
  simpa [setInner, eq_comm] using run

structure Effect (call : Call) (handle : PatchyTrampoline) (after : CallState) (op : Option BuilderOp) :
    Prop where
  rustOp : call.rustOp = .ok op
  inner : after.trampoline.inner = op.elim handle.inner fun op => op.apply handle.inner
  labels : after.trampoline.labels =
    handle.labels ++ if op = some .newLabel then [⟨handle.inner.labels.length⟩] else []
  output : op = some .newLabel → after.output = some handle.labels.length
  targets : ∀ label, (op.bind BuilderOp.target) = some (.label label) →
    label.index < handle.inner.labels.length
  bound : ∀ label, op = some (.bind label) → (handle.inner.bind label).1 = .ok ()

theorem bind_effect {trampoline : Pointer} {label : Nat} {handle : PatchyTrampoline}
    (mirrors : Mirrors handle) {output : Option Nat} {after : CallState}
    (run : (bind trampoline label).exec ⟨handle, output⟩ = (.ok (), after)) :
    Effect (.bind trampoline label) handle after (some (.bind ⟨label⟩)) := by
  have run := requireTrampoline_bind run
  obtain ⟨found, looked, run⟩ := ofExcept_bind run
  obtain ⟨rfl, -⟩ := mirrors.lookup.mp looked
  rcases bound : handle.inner.bind ⟨label⟩ with ⟨failure | ⟨⟩, inner⟩
  · simp [bound, Procedure.exec_bind, setInner] at run
  · simp only [bound] at run
    obtain ⟨_, middle, stored, run⟩ := Procedure.bind_ok run
    obtain rfl : middle = after := by simpa using run
    obtain rfl := setInner_ok stored
    exact ⟨rfl, by simp [BuilderOp.apply, bound], by simp, by simp, by simp [BuilderOp.target],
      fun other same => by
        obtain rfl : (⟨label⟩ : Label) = other := by simpa using same
        simp [bound]⟩

theorem newLabel_effect {trampoline output : Pointer} {handle : PatchyTrampoline}
    {before : Option Nat} {after : CallState}
    (run : (newLabel trampoline output).exec ⟨handle, before⟩ = (.ok (), after)) :
    Effect (.newLabel trampoline output) handle after (some .newLabel) := by
  have run := requireTrampoline_bind run
  by_cases many : u32Max < handle.labels.length
  · simp [many, invalid] at run
  · cases output with
    | null => simp [many, Procedure.exec_bind, setInner, pushLabel, writeRequired, invalid] at run
    | valid =>
      simp only [many, if_false, Procedure.exec_bind, setInner, pushLabel, writeRequired,
        Procedure.exec_modify, Prod.mk.injEq, true_and] at run
      subst run
      exact ⟨rfl, rfl, by simp [Trampoline.newLabel], by simp, by simp [BuilderOp.target], by simp⟩

theorem setInner_effect {call : Call} {handle : PatchyTrampoline} {output : Option Nat} {after : CallState}
    {op : BuilderOp} (same : call.rustOp = .ok (some op)) (creates : op ≠ .newLabel)
    (binds : ∀ label, op ≠ .bind label)
    (targets : ∀ label, op.target = some (.label label) → label.index < handle.inner.labels.length)
    (run : (setInner (op.apply handle.inner)).exec ⟨handle, output⟩ = (.ok (), after)) :
    Effect call handle after (some op) := by
  obtain rfl := setInner_ok run
  exact ⟨same, rfl, by simp [creates], fun label => absurd (Option.some.inj label) creates, targets,
    fun label equal => absurd (Option.some.inj equal) (binds label)⟩

theorem operation_effect {call : Call} {handle : PatchyTrampoline} (mirrors : Mirrors handle)
    {output : Option Nat} {after : CallState}
    (run : call.operation.exec ⟨handle, output⟩ = (.ok (), after)) :
    ∃ op, Effect call handle after op := by
  -- Each call is its checks, and behind them one builder method or a mere question.
  cases call with
  | length trampoline outputLength =>
    have run := requireTrampoline_bind run
    have kept : after.trampoline = handle := by
      cases outputLength with
      | null => simp [writeRequired, invalid] at run
      | valid =>
        simp only [writeRequired, Procedure.exec_modify, Prod.mk.injEq, true_and] at run
        rw [← run]
    exact ⟨none, rfl, by simp [kept], by simp [kept], by simp, by simp, by simp⟩
  | addBytes trampoline contents count =>
    have run := requireTrampoline_bind run
    obtain ⟨read, parsed, run⟩ := ofExcept_bind run
    exact ⟨some (.bytes read), setInner_effect (by simp [Call.rustOp, parsed]) (by simp) (by simp)
      (by simp [BuilderOp.target]) run⟩
  | newLabel trampoline outputLabel => exact ⟨_, newLabel_effect run⟩
  | bind trampoline label => exact ⟨_, bind_effect mirrors run⟩
  | absoluteCall trampoline function =>
    by_cases missing : function = 0
    · subst missing
      simp [Call.operation, absoluteCall, invalid] at run
    · simp only [Call.operation, absoluteCall, missing, if_false] at run
      exact ⟨some (.absoluteCall function), setInner_effect rfl (by simp) (by simp)
        (by simp [BuilderOp.target]) (requireTrampoline_bind run)⟩
  | absoluteJump trampoline destination =>
    exact ⟨some (.absoluteJump destination), setInner_effect rfl (by simp) (by simp)
      (by simp [BuilderOp.target]) (requireTrampoline_bind run)⟩
  | relativeJump trampoline destination =>
    exact ⟨some (.relativeJump destination), setInner_effect rfl (by simp) (by simp)
      (by simp [BuilderOp.target]) (requireTrampoline_bind run)⟩
  | jumpTo trampoline label =>
    have run := requireTrampoline_bind run
    obtain ⟨found, looked, run⟩ := ofExcept_bind run
    obtain ⟨rfl, known⟩ := mirrors.lookup.mp looked
    refine ⟨some (.jumpTo ⟨label⟩), setInner_effect rfl (by simp) (by simp) ?_ run⟩
    rintro _ ⟨⟩
    exact known
  | jumpIf trampoline condition label =>
    obtain ⟨parsed, accepted, run⟩ := ofExcept_bind run
    have run := requireTrampoline_bind run
    obtain ⟨found, looked, run⟩ := ofExcept_bind run
    obtain ⟨rfl, known⟩ := mirrors.lookup.mp looked
    refine ⟨some (.jumpIf parsed ⟨label⟩), setInner_effect (by simp [Call.rustOp, accepted]) (by simp)
      (by simp) ?_ run⟩
    rintro _ ⟨⟩
    exact known
  | preservedCall trampoline function setup setupLength handling handlingLength returnType =>
    by_cases missing : function = 0
    · subst missing
      simp [Call.operation, preservedCall, invalid] at run
    · simp only [Call.operation, preservedCall, missing, if_false] at run
      obtain ⟨returns, accepted, run⟩ := ofExcept_bind run
      have run := requireTrampoline_bind run
      obtain ⟨setupBytes, setupRead, run⟩ := ofExcept_bind run
      obtain ⟨handlingBytes, handlingRead, run⟩ := ofExcept_bind run
      exact ⟨some (.preservedCall function setupBytes handlingBytes returns),
        setInner_effect (by simp [Call.rustOp, accepted, setupRead, handlingRead]; rfl) (by simp) (by simp)
          (by simp [BuilderOp.target]) run⟩

theorem Effect.mirrors {call : Call} {handle : PatchyTrampoline} {after : CallState}
    {op : Option BuilderOp} (mirrors : Mirrors handle) (effect : Effect call handle after op) :
    Mirrors after.trampoline := by
  cases op with
  | none =>
    have same : after.trampoline = handle := by
      have inner := effect.inner
      have labels := effect.labels
      cases handle
      cases done : after.trampoline
      simp_all
    rwa [same]
  | some op =>
    have inner : after.trampoline.inner = op.apply handle.inner := effect.inner
    have grown := apply_labels_length handle.inner op
    refine ⟨?_, ?_⟩
    · rw [effect.labels, inner, grown, mirrors.labels]
      by_cases creates : op = .newLabel
      · simp [creates, List.range_succ]
      · simp [creates]
    · intro fixup member label aims
      rw [inner, apply_fixups] at member
      rw [inner, grown]
      rcases List.mem_append.mp member with earlier | own
      · have known := mirrors.targets fixup earlier label aims
        omega
      · simp only [BuilderOp.fixup, Option.mem_toList, Option.map_eq_some_iff] at own
        obtain ⟨target, branch, rfl⟩ := own
        have known := effect.targets label (by simpa [branch] using aims)
        omega

theorem run_ok {call : Call} {handle : PatchyTrampoline} (succeeded : (call.run handle).status = .ok) :
    ∃ after, call.operation.exec ⟨handle, none⟩ = (.ok (), after) ∧
      (call.run handle).trampoline = after.trampoline ∧ (call.run handle).output = after.output := by
  have succeeded := (ffiCall_ok none call.operation ⟨handle, none⟩).mp succeeded
  rcases run : call.operation.exec ⟨handle, none⟩ with ⟨error | ⟨⟩, after⟩
  · simp [run] at succeeded
  · exact ⟨after, rfl, by simp [Call.run, ffiCall_state, run], by simp [Call.run, ffiCall_state, run]⟩

theorem PointersValid.safe {call : Call} {handle : PatchyTrampoline} (valid : call.PointersValid) :
    ¬ call.LeaksLabel handle := by
  intro leaks
  cases call with
  | newLabel trampoline output =>
    obtain ⟨rfl, rfl⟩ := valid
    exact leaks
  | _ => exact leaks

theorem runFrom_append (handle : PatchyTrampoline) (first second : List Call) :
    runFrom handle (first ++ second) = runFrom (runFrom handle first) second := List.foldl_append

theorem okCalls_append (handle : PatchyTrampoline) (first second : List Call) :
    okCalls handle (first ++ second) = okCalls handle first ++ okCalls (runFrom handle first) second := by
  induction first generalizing handle with
  | nil => rfl
  | cons call rest ih =>
    have later := ih (call.run handle).trampoline
    by_cases succeeded : (call.run handle).status = .ok
    · simp [okCalls, succeeded, later, runFrom]
    · simp [okCalls, succeeded, later, runFrom]

theorem rustOps_append (first second : List Call) :
    rustOps (first ++ second) = rustOps first ++ rustOps second := List.filterMap_append

theorem rustOps_singleton {call : Call} {op : Option BuilderOp} (same : call.rustOp = .ok op) :
    rustOps [call] = op.toList := by
  cases op <;> simp [rustOps, same, Except.toOption]

structure Refines (calls : List Call) : Prop where
  mirrors : Mirrors (runCalls calls)
  inner : (runCalls calls).inner = assemble (rustOps (okCalls create calls))

theorem calls_refine_run {calls : List Call} (valid : ∀ call ∈ calls, call.PointersValid) :
    Refines calls := by
  -- Induction on the calls from their end: the last one works on what all earlier ones have made.
  induction calls using List.reverseRecOn with
  | nil => exact ⟨create_mirrors, rfl⟩
  | append_singleton calls call ih =>
    have before := ih fun earlier member => valid earlier (List.mem_append_left _ member)
    have safe : ¬ call.LeaksLabel (runCalls calls) := PointersValid.safe (valid call (by simp))
    have step : runCalls (calls ++ [call]) = (call.run (runCalls calls)).trampoline :=
      runFrom_append create calls [call]
    have kept : okCalls create (calls ++ [call]) = okCalls create calls ++ okCalls (runCalls calls) [call] :=
      okCalls_append create calls [call]
    by_cases succeeded : (call.run (runCalls calls)).status = .ok
    · obtain ⟨after, run, same, -⟩ := run_ok succeeded
      obtain ⟨op, effect⟩ := operation_effect before.mirrors run
      refine ⟨by rw [step, same]; exact effect.mirrors before.mirrors, ?_⟩
      rw [step, same, effect.inner, kept, rustOps_append, okCalls, if_pos succeeded, okCalls,
        rustOps_singleton effect.rustOp, before.inner]
      cases op with
      | none => simp
      | some op => exact (assemble_snoc _ op).symm
    · have unchanged := run_unchanged safe succeeded
      refine ⟨by rw [step, unchanged]; exact before.mirrors, ?_⟩
      rw [step, unchanged, kept, okCalls, if_neg succeeded, okCalls, List.append_nil, before.inner]

def Call.isNewLabel : Call → Bool
  | .newLabel _ _ => true
  | _ => false

theorem rustOp_newLabel (call : Call) : call.rustOp = .ok (some .newLabel) ↔ call.isNewLabel = true := by
  cases call with
  | addBytes _ contents count =>
    cases read : requireBytes contents count "bytes" <;> simp [Call.rustOp, read, Call.isNewLabel]
  | jumpIf _ condition label =>
    cases parsed : parseCondition condition <;> simp [Call.rustOp, parsed, Call.isNewLabel]
  | preservedCall _ function setup setupLength handling handlingLength returnType =>
    cases returns : parseReturnType returnType <;>
      cases first : requireBytes setup setupLength "argument setup" <;>
        cases second : requireBytes handling handlingLength "result handling" <;>
          simp [Call.rustOp, returns, first, second, Bind.bind, Except.bind, pure, Except.pure,
            Call.isNewLabel]
  | _ => simp [Call.rustOp, Call.isNewLabel]

theorem rustOps_newLabels (calls : List Call) :
    (rustOps calls).count .newLabel = calls.countP Call.isNewLabel := by
  induction calls with
  | nil => rfl
  | cons call rest ih =>
    have split : rustOps (call :: rest) = rustOps [call] ++ rustOps rest := rustOps_append [call] rest
    have asked := rustOp_newLabel call
    rw [split, List.count_append, ih, List.countP_cons, Nat.add_comm]
    cases read : call.rustOp with
    | error failure => simp_all [rustOps, Except.toOption]
    | ok op =>
      rw [rustOps_singleton read]
      cases op <;> simp_all [List.count_singleton]

theorem build_error_of_mirrors {ops : List BuilderOp} {address : Nat} {failure : Failure}
    (known : ∀ fixup ∈ (assemble ops).relativeFixups, ∀ label, fixup.target = .label label →
      label.index < (assemble ops).labels.length)
    (failed : (assemble ops).build address = .error failure) :
    (∃ index, failure = .error (.unboundLabel index)) ∨ failure = .error .addressOverflow ∨
      ∃ nextInstruction destination, failure = .error (.relativeJumpOutOfRange nextInstruction destination) := by
  obtain ⟨before, fixup, after, fixups, -, failed⟩ := (build_error_iff ops address failure).mp failed
  rcases displacement_error failed with ⟨label, aims, missing, -⟩ | ⟨label, -, -, reason⟩ | reason
  · have bound := known fixup (by rw [fixups]; simp) label aims
    exact absurd (List.getElem?_eq_none_iff.mp missing) (Nat.not_le.mpr bound)
  · exact Or.inl ⟨label.index, reason⟩
  · exact Or.inr reason

/-- The handle of a run without null pointers is the Rust builder of its successful calls, and numbers
    the labels as that builder does. -/
theorem calls_refine (calls : List Call) (valid : ∀ call ∈ calls, call.PointersValid) :
    let handle := runCalls calls
    handle.labels = (List.range handle.inner.labels.length).map Label.mk ∧
      handle.inner = assemble (rustOps (okCalls create calls)) ∧
      (∀ before after, calls = before ++ .newLabel .valid .valid :: after →
        ((Call.newLabel .valid .valid).run (runCalls before)).status = .ok →
        let number := (okCalls create before).countP Call.isNewLabel
        ((Call.newLabel .valid .valid).run (runCalls before)).output = some number ∧
          lookupLabel handle number = .ok (runCalls before).inner.newLabel.1) ∧
      (∀ fixup ∈ handle.inner.relativeFixups, ∀ label, fixup.target = .label label →
        label.index < handle.inner.labels.length) ∧
      ∀ address failure, handle.inner.build address = .error failure →
        (∃ index, failure = .error (.unboundLabel index)) ∨ failure = .error .addressOverflow ∨
          ∃ nextInstruction destination,
            failure = .error (.relativeJumpOutOfRange nextInstruction destination) := by
  intro handle
  have refines : Refines calls := calls_refine_run valid
  have inner : handle.inner = assemble (rustOps (okCalls create calls)) := refines.inner
  have targets := refines.mirrors.targets
  refine ⟨refines.mirrors.labels, inner, ?_, targets, ?_⟩
  · intro before after same succeeded number
    have early : Refines before := calls_refine_run fun call member => valid call (by simp [same, member])
    have created : (runCalls before).inner.labels.length = number := by
      rw [early.inner, assemble_labels_length, rustOps_newLabels]
    obtain ⟨state, run, -, output⟩ := run_ok succeeded
    have effect := newLabel_effect run
    constructor
    · rw [output, effect.output rfl, early.mirrors.labels, List.length_map, List.length_range, created]
    · have kept : okCalls create calls = okCalls create before ++ .newLabel .valid .valid ::
          okCalls (runCalls (before ++ [.newLabel .valid .valid])) after := by
        rw [same, okCalls_append, runCalls, runFrom_append]
        congr 1
        exact if_pos succeeded
      have more : number < handle.inner.labels.length := by
        rw [inner, assemble_labels_length, rustOps_newLabels, kept, List.countP_append, List.countP_cons]
        simp only [Call.isNewLabel, if_true]
        omega
      exact refines.mirrors.lookup.mpr ⟨by rw [← created]; rfl, more⟩
  · intro address failure failed
    rw [inner] at failed targets
    exact build_error_of_mirrors targets failed

-- Two labels, one of them bound twice; the rejected second bind leaves no trace.
theorem calls_refine_two_labels :
    let calls := [.newLabel .valid .valid, .newLabel .valid .valid, .bind .valid 1, .bind .valid 1,
      .jumpTo .valid 1]
    (runCalls calls).labels = [⟨0⟩, ⟨1⟩] ∧
      (runCalls calls).inner = assemble [.newLabel, .newLabel, .bind ⟨1⟩, .jumpTo ⟨1⟩] := by
  intro calls
  obtain ⟨labels, inner, -⟩ := calls_refine calls (by simp [calls, Call.PointersValid])
  exact ⟨labels, inner⟩

end Patchy.Ffi
