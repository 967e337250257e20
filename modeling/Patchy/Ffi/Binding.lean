import Patchy.Ffi.Install

set_option autoImplicit false

namespace Patchy.Ffi

@[simp] theorem requireTrampoline_valid (state : CallState) :
    (requireTrampoline .valid).exec state = (.ok state.trampoline, state) := rfl

@[simp] theorem setInner_exec (inner : Trampoline) (state : CallState) :
    (setInner inner).exec state =
      (.ok (), { state with trampoline := { state.trampoline with inner := inner } }) := rfl

def Refuses {σ : Type} (operation : Procedure FfiFailure σ Unit) (state : σ) : Prop :=
  ∃ text, operation.exec state = (.error (.error (.invalid text)), state)

theorem requireBytes_error {bytes : BytePointer} {count : Nat} {name : String} {failure : FfiFailure}
    (refused : requireBytes bytes count name = .error failure) : ∃ text, failure = .error (.invalid text) := by
  simp only [requireBytes] at refused
  split at refused
  · contradiction
  · cases bytes with
    | none => exact ⟨_, (Except.error.inj refused).symm⟩
    | some contents => contradiction

theorem parseReturnType_error {value : Nat} {failure : FfiFailure} (refused : parseReturnType value = .error failure) :
    ∃ text, failure = .error (.invalid text) := by
  unfold parseReturnType at refused
  split at refused <;> first | contradiction | exact ⟨_, (Except.error.inj refused).symm⟩

theorem parseCondition_error {value : Nat} {failure : FfiFailure} (refused : parseCondition value = .error failure) :
    ∃ text, failure = .error (.invalid text) := by
  unfold parseCondition at refused
  split at refused <;> first | contradiction | exact ⟨_, (Except.error.inj refused).symm⟩

theorem parseReplay_error {value : Nat} {failure : FfiFailure} (refused : parseReplay value = .error failure) :
    ∃ text, failure = .error (.invalid text) := by
  unfold parseReplay at refused
  split at refused <;> first | contradiction | exact ⟨_, (Except.error.inj refused).symm⟩

section

variable {call : Call} {handle : PatchyTrampoline} {op : BuilderOp}

theorem accepted_exec (mirrors : Mirrors handle) (valid : call.trampoline = .valid)
    (accepted : call.Accepted handle.inner) (means : call.rustOp = .ok (some op)) :
    call.operation.exec ⟨handle, none⟩ =
      match op.answer handle.inner with
      | .ok label => (.ok (), ⟨⟨op.apply handle.inner,
          handle.labels ++ if op = .newLabel then [⟨handle.inner.labels.length⟩] else []⟩, label⟩)
      | .error failure => (.error (.ofFailure failure), ⟨handle, none⟩) := by
  have known {label : Nat} (below : label < handle.inner.labels.length) : lookupLabel handle label = .ok ⟨label⟩ :=
    mirrors.lookup.mpr ⟨rfl, below⟩
  have counted : handle.labels.length = handle.inner.labels.length := by simp [mirrors.labels]
  cases call with
  | length trampoline output => simp [Call.rustOp] at means
  | addBytes trampoline bytes count =>
    obtain rfl : trampoline = .valid := valid
    cases read : requireBytes bytes count "bytes" with
    | error failure => simp [Call.rustOp, read] at means
    | ok contents =>
      simp only [Call.rustOp, read] at means
      cases means
      simp [Call.operation, addBytes, Procedure.exec_bind, read, BuilderOp.answer, BuilderOp.apply]
  | newLabel trampoline output =>
    obtain rfl : trampoline = .valid := valid
    obtain ⟨rfl, few⟩ := accepted
    simp only [Call.rustOp] at means
    cases means
    simp [Call.operation, newLabel, Procedure.exec_bind, counted, Nat.not_lt.mpr few, pushLabel, writeRequired,
      BuilderOp.answer, BuilderOp.apply, Trampoline.newLabel]
  | bind trampoline label =>
    obtain rfl : trampoline = .valid := valid
    simp only [Call.rustOp] at means
    cases means
    rcases bound : handle.inner.bind ⟨label⟩ with ⟨failure | ⟨⟩, inner⟩
    · obtain rfl := bind_inner_of_error bound
      simp [Call.operation, bind, Procedure.exec_bind, known accepted, bound, BuilderOp.answer, Except.map]
    · simp [Call.operation, bind, Procedure.exec_bind, known accepted, bound, BuilderOp.answer, BuilderOp.apply,
        Except.map]
  | absoluteCall trampoline function =>
    obtain rfl : trampoline = .valid := valid
    simp only [Call.rustOp] at means
    cases means
    have present : function ≠ 0 := accepted
    simp [Call.operation, absoluteCall, Procedure.exec_bind, present, BuilderOp.answer, BuilderOp.apply]
  | absoluteJump trampoline destination =>
    obtain rfl : trampoline = .valid := valid
    simp only [Call.rustOp] at means
    cases means
    simp [Call.operation, absoluteJump, Procedure.exec_bind, BuilderOp.answer, BuilderOp.apply]
  | relativeJump trampoline destination =>
    obtain rfl : trampoline = .valid := valid
    simp only [Call.rustOp] at means
    cases means
    simp [Call.operation, relativeJump, Procedure.exec_bind, BuilderOp.answer, BuilderOp.apply]
  | jumpTo trampoline label =>
    obtain rfl : trampoline = .valid := valid
    simp only [Call.rustOp] at means
    cases means
    simp [Call.operation, jumpTo, Procedure.exec_bind, known accepted, BuilderOp.answer, BuilderOp.apply]
  | jumpIf trampoline condition label =>
    obtain rfl : trampoline = .valid := valid
    cases parsed : parseCondition condition with
    | error failure => simp [Call.rustOp, parsed] at means
    | ok condition =>
      simp only [Call.rustOp, parsed] at means
      cases means
      simp [Call.operation, jumpIf, Procedure.exec_bind, parsed, known accepted, BuilderOp.answer, BuilderOp.apply]
  | preservedCall trampoline function setup setupLength handling handlingLength returnType =>
    obtain rfl : trampoline = .valid := valid
    have present : function ≠ 0 := accepted
    cases returns : parseReturnType returnType with
    | error failure => simp [Call.rustOp, returns, Bind.bind, Except.bind] at means
    | ok returns' =>
      cases first : requireBytes setup setupLength "argument setup" with
      | error failure => simp [Call.rustOp, returns, first, Bind.bind, Except.bind] at means
      | ok setupBytes =>
        cases second : requireBytes handling handlingLength "result handling" with
        | error failure => simp [Call.rustOp, returns, first, second, Bind.bind, Except.bind] at means
        | ok handlingBytes =>
          simp only [Call.rustOp, returns, first, second] at means
          cases means
          simp [Call.operation, preservedCall, Procedure.exec_bind, present, returns, first, second, BuilderOp.answer,
            BuilderOp.apply]

theorem null_refuses (null : call.trampoline = .null) (state : CallState) : Refuses call.operation state := by
  cases call with
  | absoluteCall trampoline function =>
    obtain rfl : trampoline = .null := null
    by_cases zero : function = 0
    · subst zero
      exact ⟨_, rfl⟩
    · simp only [Call.operation, absoluteCall, zero, if_false]
      exact ⟨_, rfl⟩
  | jumpIf trampoline condition label =>
    obtain rfl : trampoline = .null := null
    cases parsed : parseCondition condition with
    | error failure =>
      obtain ⟨text, rfl⟩ := parseCondition_error parsed
      exact ⟨text, by simp [Call.operation, jumpIf, parsed, Procedure.exec_bind]⟩
    | ok condition =>
      simp only [Call.operation, jumpIf, parsed]
      exact ⟨_, rfl⟩
  | preservedCall trampoline function setup setupLength handling handlingLength returnType =>
    obtain rfl : trampoline = .null := null
    by_cases zero : function = 0
    · subst zero
      exact ⟨_, rfl⟩
    · simp only [Call.operation, preservedCall, zero, if_false]
      cases returns : parseReturnType returnType with
      | error failure =>
        obtain ⟨text, rfl⟩ := parseReturnType_error returns
        exact ⟨text, by simp [Procedure.exec_bind]⟩
      | ok returns => exact ⟨_, rfl⟩
  | _ trampoline =>
    obtain rfl : trampoline = .null := null
    exact ⟨_, rfl⟩

theorem refused_exec (mirrors : Mirrors handle) (valid : call.trampoline = .valid) (safe : ¬ call.LeaksLabel handle)
    (asks : ∀ trampoline output, call ≠ .length trampoline output)
    (refused : ∀ op, call.rustOp = .ok (some op) → ¬ call.Accepted handle.inner) :
    Refuses call.operation ⟨handle, none⟩ := by
  have unknown {label : Nat} (beyond : ¬ label < handle.inner.labels.length) :
      lookupLabel handle label = invalid "label does not belong to this trampoline" := by
    have counted : handle.labels.length = handle.inner.labels.length := by simp [mirrors.labels]
    simp [lookupLabel, List.getElem?_eq_none_iff.mpr (counted ▸ Nat.not_lt.mp beyond)]
  cases call with
  | length trampoline output => exact absurd rfl (asks trampoline output)
  | addBytes trampoline bytes count =>
    obtain rfl : trampoline = .valid := valid
    cases read : requireBytes bytes count "bytes" with
    | error failure =>
      obtain ⟨text, rfl⟩ := requireBytes_error read
      exact ⟨text, by simp [Call.operation, addBytes, Procedure.exec_bind, read]⟩
    | ok contents => exact absurd trivial (refused _ (by simp [Call.rustOp, read]; rfl))
  | newLabel trampoline output =>
    obtain rfl : trampoline = .valid := valid
    have many : u32Max < handle.labels.length := by
      cases output with
      | null => exact Nat.lt_of_not_le safe
      | valid =>
        have counted : handle.labels.length = handle.inner.labels.length := by simp [mirrors.labels]
        rw [counted]
        exact Nat.lt_of_not_le fun few => refused _ rfl ⟨rfl, few⟩
    exact ⟨_, by simp [Call.operation, newLabel, Procedure.exec_bind, many]; rfl⟩
  | bind trampoline label =>
    obtain rfl : trampoline = .valid := valid
    exact ⟨_, by simp [Call.operation, bind, Procedure.exec_bind, unknown (refused _ rfl)]; rfl⟩
  | absoluteCall trampoline function =>
    obtain rfl : trampoline = .valid := valid
    obtain rfl : function = 0 := not_not.mp (refused _ rfl)
    exact ⟨_, rfl⟩
  | absoluteJump trampoline destination => exact absurd trivial (refused _ rfl)
  | relativeJump trampoline destination => exact absurd trivial (refused _ rfl)
  | jumpTo trampoline label =>
    obtain rfl : trampoline = .valid := valid
    exact ⟨_, by simp [Call.operation, jumpTo, Procedure.exec_bind, unknown (refused _ rfl)]; rfl⟩
  | jumpIf trampoline condition label =>
    obtain rfl : trampoline = .valid := valid
    cases parsed : parseCondition condition with
    | error failure =>
      obtain ⟨text, rfl⟩ := parseCondition_error parsed
      exact ⟨text, by simp [Call.operation, jumpIf, parsed, Procedure.exec_bind]⟩
    | ok found =>
      have beyond : ¬ label < handle.inner.labels.length :=
        refused (.jumpIf found ⟨label⟩) (by simp [Call.rustOp, parsed])
      exact ⟨_, by simp [Call.operation, jumpIf, Procedure.exec_bind, parsed, unknown beyond]; rfl⟩
  | preservedCall trampoline function setup setupLength handling handlingLength returnType =>
    obtain rfl : trampoline = .valid := valid
    by_cases zero : function = 0
    · subst zero
      exact ⟨_, rfl⟩
    simp only [Call.operation, preservedCall, zero, if_false]
    cases returns : parseReturnType returnType with
    | error failure =>
      obtain ⟨text, rfl⟩ := parseReturnType_error returns
      exact ⟨text, by simp [Procedure.exec_bind]⟩
    | ok found =>
      cases first : requireBytes setup setupLength "argument setup" with
      | error failure =>
        obtain ⟨text, rfl⟩ := requireBytes_error first
        exact ⟨text, by simp [Procedure.exec_bind]⟩
      | ok setupBytes =>
        cases second : requireBytes handling handlingLength "result handling" with
        | error failure =>
          obtain ⟨text, rfl⟩ := requireBytes_error second
          exact ⟨text, by simp [Procedure.exec_bind]⟩
        | ok handlingBytes =>
          refine absurd zero (refused (.preservedCall function setupBytes handlingBytes found) ?_)
          simp [Call.rustOp, returns, first, second]
          rfl

end

/-- What a C call does, seen from Rust: the call it means, with the answer of that; and nothing if it means none. -/
def Faithful (platform : Platform) (abi : Abi) (native : Native) (thread : Nat) (call : AbiCall) : Prop :=
  let ran := abi.call platform thread call
  match call.meaning native with
  | some move =>
      let answer := native.step platform move
      ran.1 = ⟨.ofResult answer.1, call.outputs answer.1⟩ ∧ Represents ran.2 answer.2
  | none => ran.1 = call.reply native ∧ ran.2.process = abi.process ∧ ran.2.handles = abi.handles

section

variable {platform : Platform} {abi : Abi} {native : Native} {thread : Nat} {call : AbiCall}

theorem Represents.congr {after : Abi} (represents : Represents abi native) (process : after.process = abi.process)
    (handles : after.handles = abi.handles) : Represents after native := by
  obtain ⟨same, sessions, builders, mirrors, null⟩ := represents
  constructor
  · rw [process, same]
  · rw [handles]; exact sessions
  · rw [handles]; exact builders
  · rw [handles]; exact mirrors
  · rw [handles]; exact null

theorem Represents.update (represents : Represents abi native) {after : Abi} {next : Native} {id : Nat}
    {handle : Option Handle} (process : after.process = next.system.process)
    (handles : after.handles = Function.update abi.handles id handle)
    (sessions : next.system.sessions = Function.update native.system.sessions id (handle.bind Handle.session?))
    (builders : next.builders = Function.update native.builders id ((handle.bind Handle.trampoline?).map (·.inner)))
    (mirrors : ∀ inner, handle = some (.trampoline inner) → Mirrors inner) (nonnull : id ≠ 0) :
    Represents after next where
  process := process
  sessions other := by
    rw [sessions, handles]
    by_cases same : other = id
    · subst same
      simp
    · simp [same, represents.sessions other]
  builders other := by
    rw [builders, handles]
    by_cases same : other = id
    · subst same
      simp
    · simp [same, represents.builders other]
  mirrors other inner here := by
    rw [handles] at here
    by_cases same : other = id
    · subst same
      exact mirrors inner (by simpa using here)
    · exact represents.mirrors other inner (by simpa [same] using here)
  null := by rw [handles, Function.update_of_ne nonnull.symm, represents.null]

theorem update_absent {α : Type} {table : Nat → Option α} {id : Nat} (absent : table id = none) :
    Function.update table id none = table := by
  rw [← absent, Function.update_eq_self]

theorem call_ran {answer : Result (Option Nat)} {state : AbiState}
    (run : (call.operation platform).exec ⟨abi.process, abi.handles, none⟩ =
      ((answer.map fun _ => ()).mapError .ofFailure, state)) :
    (abi.call platform thread call).1 = ⟨.ofResult answer, state.output⟩ ∧
      (abi.call platform thread call).2.process = state.process ∧
        (abi.call platform thread call).2.handles = state.handles := by
  rcases answer with (error | ⟨⟩) | label <;>
    simp [Abi.call, ffiCall, run, Except.map, Except.mapError, FfiFailure.ofFailure, PatchyStatus.ofResult,
      PatchyStatus.ofFailure, FfiError.ofPatchError]

theorem call_refused (refuses : Refuses (call.operation platform) ⟨abi.process, abi.handles, none⟩) :
    (abi.call platform thread call).1 = ⟨.invalidArgument, none⟩ ∧
      (abi.call platform thread call).2.process = abi.process ∧
        (abi.call platform thread call).2.handles = abi.handles := by
  obtain ⟨text, run⟩ := refuses
  simp [Abi.call, ffiCall, run, FfiError.invalid]

theorem Faithful.of_refused (none : call.meaning native = none)
    (reply : call.reply native = ⟨.invalidArgument, Option.none⟩)
    (refuses : Refuses (call.operation platform) ⟨abi.process, abi.handles, Option.none⟩) :
    Faithful platform abi native thread call := by
  obtain ⟨answer, process, handles⟩ := @call_refused platform abi thread call refuses
  simp only [Faithful, none]
  exact ⟨answer.trans reply.symm, process, handles⟩

theorem Faithful.of_ran {move : NativeMove} {state : AbiState} (means : call.meaning native = some move)
    (run : (call.operation platform).exec ⟨abi.process, abi.handles, none⟩ =
      (((native.step platform move).1.map fun _ => ()).mapError .ofFailure, state))
    (output : state.output = call.outputs (native.step platform move).1)
    (represents : Represents { abi with process := state.process, handles := state.handles }
      (native.step platform move).2) :
    Faithful platform abi native thread call := by
  obtain ⟨answer, process, handles⟩ := @call_ran platform abi thread call _ _ run
  simp only [Faithful, means]
  refine ⟨by rw [answer, output], ?_⟩
  exact represents.congr process handles

theorem requireSession_exec {session : Nat} {inner : PatchSession} {state : AbiState} (nonnull : session ≠ 0)
    (live : state.handles session = some (.session inner)) :
    (requireSession session).exec state = (.ok inner, state) := by
  simp [requireSession, nonnull, Procedure.exec_get_bind, live]

theorem requireSession_null (state : AbiState) :
    (requireSession 0).exec state = (invalid "session must not be null", state) := rfl

theorem onSession_exec (session : Nat) (inner : PatchSession) (method : SessionM Patch) (state : AbiState) :
    (onSession session inner method).exec state =
      ((method.exec ⟨inner, state.process.memory⟩).1.mapError .ofFailure,
        { state with
          process := { state.process with memory := (method.exec ⟨inner, state.process.memory⟩).2.memory }
          handles := Function.update state.handles session
            (some (.session (method.exec ⟨inner, state.process.memory⟩).2.session)) }) := rfl

theorem native_prepare {id : Nat} {inner : PatchSession} (live : native.system.sessions id = some inner)
    (oracle : MappingOracle) (preparation : Preparation) :
    native.onSystem platform (.prepare id oracle preparation) =
      (((preparation.run platform oracle).exec ⟨inner, native.system.process.memory⟩).1.map (·.trampolineAddress),
        { native with
          system := native.system.afterPreparation id inner
            ((preparation.run platform oracle).exec ⟨inner, native.system.process.memory⟩).2 }) := by
  simp only [Native.onSystem, System.step, live, Outcome.answer]

theorem Faithful.prepare (represents : Represents abi native) {session : Nat} {inner : PatchSession}
    (nonnull : session ≠ 0) (live : abi.handles session = some (.session inner)) {move : NativeMove}
    (means : call.meaning native = some move) {oracle : MappingOracle} {preparation : Preparation}
    (step : native.step platform move = native.onSystem platform (.prepare session oracle preparation))
    (output : Pointer)
    (run : (call.operation platform).exec ⟨abi.process, abi.handles, none⟩ =
      (onSession session inner (preparation.run platform oracle) >>= fun patch =>
        writeOptional output (patch.trampolineAddress.getD 0)).exec ⟨abi.process, abi.handles, none⟩)
    (outputs : ∀ answer, call.outputs answer =
      match output, answer with
      | .valid, .ok address => some (address.getD 0)
      | _, _ => none) : Faithful platform abi native thread call := by
  have mine : native.system.sessions session = some inner := by rw [represents.sessions, live]; rfl
  have builder : native.builders session = none := by rw [represents.builders, live]; rfl
  rw [native_prepare mine, ← represents.process] at step
  rw [Procedure.exec_bind, onSession_exec] at run
  generalize (preparation.run platform oracle).exec ⟨inner, abi.process.memory⟩ = ran at step run
  obtain ⟨result, workspace⟩ := ran
  have kept : Represents
      { abi with
        process := { abi.process with memory := workspace.memory }
        handles := Function.update abi.handles session (some (.session workspace.session)) }
      (native.step platform move).2 := by
    rw [step]
    refine represents.update ?_ rfl rfl ?_ (by simp) nonnull
    · rw [represents.process]
      rfl
    · exact (update_absent builder).symm
  rcases result with failure | patch
  · exact Faithful.of_ran means (run.trans (by rw [step]; rfl)) (by rw [outputs, step]; cases output <;> rfl) kept
  · cases output with
    | null => exact Faithful.of_ran means (run.trans (by rw [step]; rfl)) (by rw [outputs]) kept
    | valid => exact Faithful.of_ran means (run.trans (by rw [step]; rfl)) (by rw [outputs, step]; rfl) kept

theorem Faithful.of_asked (means : call.meaning native = none) {result : FfiResult Unit} {output : Option Nat}
    (run : (call.operation platform).exec ⟨abi.process, abi.handles, none⟩ =
      (result, ⟨abi.process, abi.handles, output⟩))
    (reply : call.reply native = ⟨.ofFfiResult result, output⟩) : Faithful platform abi native thread call := by
  simp only [Faithful, means, reply, Abi.call, ffiCall_status, ffiCall_state, run, and_self]

theorem question_exec {α : Type} (asked : Result α) (value : α → Nat) (output : Pointer) (name : String)
    (state : AbiState) :
    ∃ result written,
      (ofResult asked >>= fun found => writeChecked output (value found) name).exec { state with output := none } =
        (result, { state with output := written }) ∧
      Answer.ofQuestion output (asked.map value) = ⟨.ofFfiResult result, written⟩ := by
  rcases asked with (error | ⟨⟩) | found
  · exact ⟨_, none, rfl, rfl⟩
  · exact ⟨_, none, rfl, rfl⟩
  · cases output with
    | null => exact ⟨_, none, rfl, rfl⟩
    | valid => exact ⟨_, some (value found), rfl, rfl⟩

theorem onTrampoline_exec {builder : Nat} {inner : PatchyTrampoline} {state : AbiState}
    (live : state.handles builder = some (.trampoline inner)) (call : Call) :
    (onTrampoline builder call).exec state =
      ((call.operation.exec ⟨inner, none⟩).1,
        { state with
          handles := Function.update state.handles builder
            (some (.trampoline (call.operation.exec ⟨inner, none⟩).2.trampoline))
          output := (call.operation.exec ⟨inner, none⟩).2.output }) := by
  simp [onTrampoline, live, Procedure.exec_bind]

theorem answer_error {self : Trampoline} {op : BuilderOp} {failure : Failure}
    (failed : op.answer self = .error failure) : op.apply self = self := by
  cases op with
  | bind label =>
    rcases bound : self.bind label with ⟨reported | ⟨⟩, inner⟩
    · rw [BuilderOp.apply, bound]
      exact bind_inner_of_error bound
    · simp [BuilderOp.answer, bound, Except.map] at failed
  | _ => simp [BuilderOp.answer] at failed

theorem accepted_mirrors {builder : Call} {handle : PatchyTrampoline} {op : BuilderOp} (mirrors : Mirrors handle)
    (valid : builder.trampoline = .valid) (accepted : builder.Accepted handle.inner)
    (means : builder.rustOp = .ok (some op)) :
    (builder.operation.exec ⟨handle, none⟩).2.trampoline.inner = op.apply handle.inner ∧
      Mirrors (builder.operation.exec ⟨handle, none⟩).2.trampoline := by
  have run := accepted_exec mirrors valid accepted means
  cases answered : op.answer handle.inner with
  | error failure =>
    rw [answered] at run
    rw [run, answer_error answered]
    exact ⟨rfl, mirrors⟩
  | ok label =>
    rw [answered] at run
    obtain ⟨op', effect⟩ := operation_effect mirrors run
    rw [run]
    exact ⟨rfl, effect.mirrors mirrors⟩

theorem reply_refused {builder : Nat} {call : Call} (silent : ∀ trampoline output, call ≠ .length trampoline output) :
    (AbiCall.trampoline builder call).reply native = ⟨.invalidArgument, none⟩ := by
  cases call with
  | length trampoline output => exact absurd rfl (silent trampoline output)
  | _ => rfl

theorem builder_faithful (represents : Represents abi native) {builder : Nat} {inner : PatchyTrampoline}
    (live : abi.handles builder = some (.trampoline inner)) {call : Call} (valid : call.trampoline = .valid)
    (safe : ¬ call.LeaksLabel inner) : Faithful platform abi native thread (.trampoline builder call) := by
  have mirrors := represents.mirrors builder inner live
  have mine : native.builders builder = some inner.inner := by rw [represents.builders, live]; rfl
  have session : native.system.sessions builder = none := by rw [represents.sessions, live]; rfl
  have nonnull : builder ≠ 0 := by
    rintro rfl
    simp [represents.null] at live
  have run := @onTrampoline_exec builder inner ⟨abi.process, abi.handles, none⟩ live call
  by_cases meaning : ∃ op, call.rustOp = .ok (some op) ∧ call.Accepted inner.inner
  · obtain ⟨op, means, accepted⟩ := meaning
    have meant : (AbiCall.trampoline builder call).meaning native = some (.build builder op) := by
      simp [AbiCall.meaning, mine, accepted, means, Except.toOption]
    have step : native.step platform (.build builder op) = (op.answer inner.inner,
        { native with builders := Function.update native.builders builder (some (op.apply inner.inner)) }) := by
      simp only [Native.step, mine]
    obtain ⟨applied, mirrored⟩ := accepted_mirrors mirrors valid accepted means
    have exec := accepted_exec mirrors valid accepted means
    have kept : Represents
        { abi with
          process := abi.process
          handles := Function.update abi.handles builder
            (some (.trampoline (call.operation.exec ⟨inner, none⟩).2.trampoline)) }
        (native.step platform (.build builder op)).2 := by
      rw [step]
      refine represents.update represents.process rfl (update_absent session).symm ?_ ?_ nonnull
      · simp [Handle.trampoline?, applied]
      · rintro _ ⟨⟩
        exact mirrored
    refine Faithful.of_ran meant (run.trans (Prod.ext ?_ rfl)) ?_ kept
    · rw [step, exec]
      cases op.answer inner.inner <;> rfl
    · rw [step, exec]
      cases op.answer inner.inner <;> rfl
  · have refused (op : BuilderOp) (means : call.rustOp = .ok (some op)) : ¬ call.Accepted inner.inner :=
      fun accepted => meaning ⟨op, means, accepted⟩
    have meant : (AbiCall.trampoline builder call).meaning native = none := by
      simp only [AbiCall.meaning, mine]
      by_cases accepted : call.Accepted inner.inner
      · rcases means : call.rustOp with failure | op | op
        · simp [Except.toOption]
        · simp [Except.toOption]
        · exact absurd accepted (refused op means)
      · simp [accepted]
    by_cases asks : ∃ trampoline output, call = .length trampoline output
    · obtain ⟨trampoline, output, rfl⟩ := asks
      obtain rfl : trampoline = .valid := valid
      have same : Function.update abi.handles builder (some (.trampoline inner)) = abi.handles := by
        rw [← live, Function.update_eq_self]
      cases output with
      | null =>
        refine @Faithful.of_asked _ _ _ _ _ meant (invalid "output length must not be null") none ?_ ?_
        · exact run.trans (Prod.ext rfl (congrArg (fun handles => (⟨abi.process, handles, none⟩ : AbiState)) same))
        · simp only [AbiCall.reply, mine, Answer.ofQuestion]
          rfl
      | valid =>
        refine @Faithful.of_asked _ _ _ _ _ meant (.ok ()) (some inner.inner.len) ?_ ?_
        · exact run.trans (Prod.ext rfl
            (congrArg (fun handles => (⟨abi.process, handles, some inner.inner.len⟩ : AbiState)) same))
        · simp only [AbiCall.reply, mine, Answer.ofQuestion]
          rfl
    · have silent (trampoline output : Pointer) (same : call = .length trampoline output) : False :=
        asks ⟨trampoline, output, same⟩
      obtain ⟨text, exec⟩ := refused_exec mirrors valid safe silent refused
      refine Faithful.of_refused meant (reply_refused silent) ⟨text, run.trans ?_⟩
      rw [exec]
      refine Prod.ext rfl ?_
      change (⟨abi.process, Function.update abi.handles builder (some (.trampoline inner)), none⟩ : AbiState) = _
      rw [← live, Function.update_eq_self]

theorem leak_faithful (represents : Represents abi native) (leaks : call.Leaks abi.handles) :
    ∃ builder, call = .trampoline builder (.newLabel .valid .null) ∧
      (abi.call platform thread call).1 = ⟨.invalidArgument, none⟩ ∧
        Represents (abi.call platform thread call).2 (native.step platform (.build builder .newLabel)).2 := by
  cases call with
  | trampoline builder call =>
    obtain ⟨inner, live, leaks⟩ := leaks
    have mirrors := represents.mirrors builder inner live
    have mine : native.builders builder = some inner.inner := by rw [represents.builders, live]; rfl
    have session : native.system.sessions builder = none := by rw [represents.sessions, live]; rfl
    have nonnull : builder ≠ 0 := by
      rintro rfl
      simp [represents.null] at live
    have counted : inner.labels.length = inner.inner.labels.length := by simp [mirrors.labels]
    simp only [Call.LeaksLabel] at leaks
    split at leaks
    · have few : ¬ u32Max < inner.inner.labels.length := counted ▸ Nat.not_lt.mpr leaks
      have accepted : (Call.newLabel .valid .valid).Accepted inner.inner := ⟨rfl, Nat.not_lt.mp few⟩
      let grown : PatchyTrampoline := ⟨inner.inner.newLabel.2, inner.labels ++ [⟨inner.inner.labels.length⟩]⟩
      have mirrored : Mirrors grown := by
        obtain ⟨-, mirrored⟩ := accepted_mirrors mirrors rfl accepted rfl
        rwa [accepted_exec mirrors rfl accepted rfl] at mirrored
      have run : (Call.newLabel .valid .null).operation.exec ⟨inner, none⟩ =
          (invalid "output label must not be null", ⟨grown, none⟩) := by
        simp [Call.operation, newLabel, Procedure.exec_bind, counted, few, pushLabel, writeRequired, grown,
          Trampoline.newLabel]
      have exec := @onTrampoline_exec builder inner ⟨abi.process, abi.handles, none⟩ live (.newLabel .valid .null)
      rw [run] at exec
      have ran : abi.call platform thread (.trampoline builder (.newLabel .valid .null)) =
          (⟨.invalidArgument, none⟩,
            { abi with
              handles := Function.update abi.handles builder (some (.trampoline grown))
              lastError := Function.update abi.lastError thread (lastErrorText "output label must not be null") }) := by
        simp [Abi.call, ffiCall, AbiCall.operation, exec, invalid, FfiError.invalid]
      have step : native.step platform (.build builder .newLabel) = (.ok (some inner.inner.labels.length),
          { native with builders := Function.update native.builders builder (some inner.inner.newLabel.2) }) := by
        simp only [Native.step, mine]
        rfl
      refine ⟨builder, rfl, by rw [ran], ?_⟩
      rw [ran, step]
      refine represents.update represents.process rfl (update_absent session).symm rfl ?_ nonnull
      rintro _ ⟨⟩
      exact mirrored
    · contradiction
  | _ => exact leaks.elim

theorem overwrite_faithful (represents : Represents abi native) {session address length : Nat} {bytes : BytePointer}
    (contract : session = 0 ∨ ∃ inner, abi.handles session = some (.session inner)) :
    Faithful platform abi native thread (.sessionOverwrite session address bytes length) := by
  by_cases null : session = 0
  · subst null
    exact Faithful.of_refused (by simp [AbiCall.meaning]) rfl ⟨_, rfl⟩
  · obtain ⟨inner, live⟩ := contract.resolve_left null
    have required := @requireSession_exec session inner ⟨abi.process, abi.handles, none⟩ null live
    cases read : requireBytes bytes length "bytes" with
    | error failure =>
      obtain ⟨text, rfl⟩ := requireBytes_error read
      refine Faithful.of_refused (by simp [AbiCall.meaning, null, read, Except.toOption]) rfl ⟨text, ?_⟩
      simp [AbiCall.operation, sessionOverwrite, Procedure.exec_bind, required, read]
    | ok contents =>
      refine @Faithful.prepare _ _ _ _ _ represents session inner null live
        (.session (.prepare session noMapping (.overwrite address contents)))
        (by simp [AbiCall.meaning, null, read, Except.toOption]) _ _ rfl .null ?_ fun answer => ?_
      · simp only [AbiCall.operation, sessionOverwrite, Procedure.exec_bind, required, read, Procedure.exec_ofExcept]
        rfl
      · cases answer <;> rfl

theorem patchCall_faithful (represents : Represents abi native) {oracle : MappingOracle}
    {session address function size replayOverwritten returnType : Nat} {output : Pointer}
    (contract : session = 0 ∨ ∃ inner, abi.handles session = some (.session inner)) :
    Faithful platform abi native thread
      (.sessionPatchCall oracle session address function size replayOverwritten returnType output) := by
  by_cases absent : function = 0
  · subst absent
    exact Faithful.of_refused (by simp [AbiCall.meaning]) rfl ⟨_, rfl⟩
  cases replays : parseReplay replayOverwritten with
  | error failure =>
    obtain ⟨text, rfl⟩ := parseReplay_error replays
    refine Faithful.of_refused (by simp [AbiCall.meaning, replays, Except.toOption]) rfl ⟨text, ?_⟩
    simp [AbiCall.operation, sessionPatchCall, absent, Procedure.exec_bind, replays]
  | ok replay =>
    cases returns : parseReturnType returnType with
    | error failure =>
      obtain ⟨text, rfl⟩ := parseReturnType_error returns
      refine Faithful.of_refused (by simp [AbiCall.meaning, replays, returns, Except.toOption]) rfl ⟨text, ?_⟩
      simp [AbiCall.operation, sessionPatchCall, absent, Procedure.exec_bind, replays, returns]
    | ok allowReturn =>
      by_cases null : session = 0
      · subst null
        refine Faithful.of_refused (by simp [AbiCall.meaning]) rfl ⟨"session must not be null", ?_⟩
        simp [AbiCall.operation, sessionPatchCall, absent, Procedure.exec_bind, replays, returns, requireSession_null,
          invalid]
      · obtain ⟨inner, live⟩ := contract.resolve_left null
        have required := @requireSession_exec session inner ⟨abi.process, abi.handles, none⟩ null live
        refine @Faithful.prepare _ _ _ _ _ represents session inner null live
          (.session (.prepare session oracle (.patchCall address function size replay allowReturn)))
          (by simp [AbiCall.meaning, absent, null, replays, returns, Except.toOption]) _ _ rfl output ?_
          fun answer => ?_
        · simp only [AbiCall.operation, sessionPatchCall, absent, if_false, Procedure.exec_bind, required, replays,
            returns, Procedure.exec_ofExcept]
          rfl
        · cases output <;> cases answer <;> rfl

theorem detour_faithful (represents : Represents abi native) {oracle : MappingOracle}
    {session address size length : Nat} {bytes : BytePointer} {output : Pointer}
    (contract : session = 0 ∨ ∃ inner, abi.handles session = some (.session inner)) :
    Faithful platform abi native thread (.sessionDetour oracle session address size bytes length output) := by
  by_cases null : session = 0
  · subst null
    exact Faithful.of_refused (by simp [AbiCall.meaning]) rfl ⟨_, rfl⟩
  · obtain ⟨inner, live⟩ := contract.resolve_left null
    have required := @requireSession_exec session inner ⟨abi.process, abi.handles, none⟩ null live
    cases read : requireBytes bytes length "trampoline bytes" with
    | error failure =>
      obtain ⟨text, rfl⟩ := requireBytes_error read
      refine Faithful.of_refused (by simp [AbiCall.meaning, read, Except.toOption]) rfl ⟨text, ?_⟩
      simp [AbiCall.operation, sessionDetour, Procedure.exec_bind, required, read]
    | ok contents =>
      refine @Faithful.prepare _ _ _ _ _ represents session inner null live
        (.session (.prepare session oracle (.detour address size contents)))
        (by simp [AbiCall.meaning, null, read, Except.toOption]) _ _ rfl output ?_ fun answer => ?_
      · simp only [AbiCall.operation, sessionDetour, Procedure.exec_bind, required, read, Procedure.exec_ofExcept]
        rfl
      · cases output <;> cases answer <;> rfl

theorem detourTrampoline_faithful (represents : Represents abi native) {oracle : MappingOracle}
    {session address size builder : Nat} {output : Pointer}
    (sessions : session = 0 ∨ ∃ inner, abi.handles session = some (.session inner))
    (builders : builder = 0 ∨ ∃ inner, abi.handles builder = some (.trampoline inner)) :
    Faithful platform abi native thread (.sessionDetourTrampoline oracle session address size builder output) := by
  by_cases null : session = 0
  · subst null
    exact Faithful.of_refused (by simp [AbiCall.meaning]) rfl ⟨_, rfl⟩
  obtain ⟨inner, live⟩ := sessions.resolve_left null
  have required := @requireSession_exec session inner ⟨abi.process, abi.handles, none⟩ null live
  by_cases missing : builder = 0
  · subst missing
    refine Faithful.of_refused (by simp [AbiCall.meaning]) rfl ⟨"trampoline must not be null", ?_⟩
    simp [AbiCall.operation, sessionDetourTrampoline, Procedure.exec_bind, required, requireHandle, invalid]
  · obtain ⟨handle, held⟩ := builders.resolve_left missing
    have mine : native.builders builder = some handle.inner := by rw [represents.builders, held]; rfl
    refine @Faithful.prepare _ _ _ _ _ represents session inner null live
      (.detourTrampoline session oracle address size builder) (by simp [AbiCall.meaning, null, missing]) oracle
      (.detourTrampoline address size handle.inner) (by simp only [Native.step, mine]) output ?_ fun answer => ?_
    · simp [AbiCall.operation, sessionDetourTrampoline, Procedure.exec_bind, required, requireHandle, missing, held,
        Preparation.run]
    · cases output <;> cases answer <;> rfl

theorem install_faithful (represents : Represents abi native) {environment : InstallEnvironment}
    {session : Nat} {pointer : Pointer}
    (contract : session = 0 ∨ ∃ inner, abi.handles session = some (.session inner)) :
    Faithful platform abi native thread (.sessionInstallPermanently environment pointer session) := by
  cases pointer with
  | null => exact Faithful.of_refused rfl rfl ⟨_, rfl⟩
  | valid =>
    by_cases null : session = 0
    · subst null
      exact Faithful.of_refused rfl rfl ⟨_, rfl⟩
    · obtain ⟨inner, live⟩ := contract.resolve_left null
      have mine : native.system.sessions session = some inner := by rw [represents.sessions, live]; rfl
      have builder : native.builders session = none := by rw [represents.builders, live]; rfl
      rcases run : (inner.installPermanently platform environment).exec abi.process with ⟨result, after⟩
      have step : native.step platform (.session (.installPermanently session environment)) =
          (result.map fun _ => none, { native with system := native.system.afterInstallation session inner after }) := by
        simp only [Native.step, Native.onSystem, System.step, mine, Outcome.answer, ← represents.process, run]
      refine @Faithful.of_ran platform abi native thread _ (.session (.installPermanently session environment))
        ⟨after, Function.update abi.handles session none, some 0⟩ (by simp [AbiCall.meaning, null])
        ((install_exec null live run).trans ?_) rfl ?_
      · rw [step]
        cases result <;> rfl
      · rw [step]
        exact represents.update rfl rfl rfl (update_absent builder).symm (by simp) null

theorem call_faithful (represents : Represents abi native) (contract : call.Contract abi.handles)
    (safe : ¬ call.Leaks abi.handles) : Faithful platform abi native thread call := by
  cases call with
  | sessionCreate output allocated =>
    cases output with
    | null => exact Faithful.of_refused rfl rfl ⟨_, rfl⟩
    | valid =>
      obtain ⟨nonnull, fresh⟩ := contract
      have session : native.system.sessions allocated = none := by rw [represents.sessions, fresh]; rfl
      have builder : native.builders allocated = none := by rw [represents.builders, fresh]; rfl
      have step : native.step platform (.session (.create allocated)) = (.ok none,
          { native with system := native.system.setSession allocated (some PatchSession.new) }) := by
        simp only [Native.step, Native.onSystem, System.step, session, Outcome.answer]
      refine Faithful.of_ran rfl (by rw [step]; rfl) rfl ?_
      rw [step]
      exact represents.update represents.process rfl rfl (update_absent builder).symm (by simp) nonnull
  | sessionDestroy session =>
    by_cases null : session = 0
    · subst null
      exact Faithful.of_asked rfl rfl rfl
    · obtain ⟨inner, live⟩ := contract.resolve_left null
      have builder : native.builders session = none := by rw [represents.builders, live]; rfl
      have step : native.step platform (.session (.drop session)) = (.ok none,
          { native with system := native.system.setSession session none }) := rfl
      refine @Faithful.of_ran platform abi native thread _ (.session (.drop session))
        ⟨abi.process, Function.update abi.handles session none, none⟩ (by simp [AbiCall.meaning, null])
        (by rw [step, AbiCall.operation, sessionDestroy, if_neg null]; rfl) rfl ?_
      rw [step]
      exact represents.update represents.process rfl rfl (update_absent builder).symm (by simp) null
  | sessionOverwrite session address bytes length => exact overwrite_faithful represents contract
  | sessionPatchCall oracle session address function size replayOverwritten returnType output =>
    exact patchCall_faithful represents contract
  | sessionDetour oracle session address size bytes length output => exact detour_faithful represents contract
  | sessionDetourTrampoline oracle session address size builder output =>
    exact detourTrampoline_faithful represents contract.1 contract.2
  | sessionInstallPermanently environment pointer session =>
    exact install_faithful represents contract
  | mainModuleBase lookup output =>
    obtain ⟨result, written, run, reply⟩ := question_exec (ProcessModule.main lookup) (·.baseAddress) output
      "output base" ⟨abi.process, abi.handles, none⟩
    exact Faithful.of_asked rfl run reply
  | resolveRva moduleBase rva output =>
    obtain ⟨result, written, run, reply⟩ := question_exec ((ProcessModule.fromBase moduleBase).resolveRva rva) id output
      "output address" ⟨abi.process, abi.handles, none⟩
    rw [Except.map_id] at reply
    exact Faithful.of_asked rfl run reply
  | trampolineCreate output allocated =>
    cases output with
    | null => exact Faithful.of_refused rfl rfl ⟨_, rfl⟩
    | valid =>
      obtain ⟨nonnull, fresh⟩ := contract
      have session : native.system.sessions allocated = none := by rw [represents.sessions, fresh]; rfl
      refine Faithful.of_ran rfl rfl rfl ?_
      refine represents.update represents.process rfl (update_absent session).symm rfl ?_ nonnull
      rintro _ ⟨⟩
      exact create_mirrors
  | trampolineDestroy builder =>
    by_cases null : builder = 0
    · subst null
      exact Faithful.of_asked rfl rfl rfl
    · obtain ⟨inner, live⟩ := contract.resolve_left null
      have session : native.system.sessions builder = none := by rw [represents.sessions, live]; rfl
      refine @Faithful.of_ran platform abi native thread _ (.dropBuilder builder)
        ⟨abi.process, Function.update abi.handles builder none, none⟩ (by simp [AbiCall.meaning, null])
        (by rw [AbiCall.operation, trampolineDestroy, if_neg null]; rfl) rfl ?_
      exact represents.update represents.process rfl (update_absent session).symm rfl (by simp) null
  | trampoline builder call =>
    rcases contract with ⟨rfl, null⟩ | ⟨valid, inner, live⟩
    · obtain ⟨text, refused⟩ := null_refuses null ⟨create, none⟩
      have mine : native.builders 0 = none := by rw [represents.builders, represents.null]; rfl
      have reply : (AbiCall.trampoline 0 call).reply native = ⟨.invalidArgument, none⟩ := by
        cases call <;> simp [AbiCall.reply, mine]
      refine Faithful.of_refused (by simp [AbiCall.meaning, mine]) reply ⟨text, ?_⟩
      simp [AbiCall.operation, onTrampoline, Procedure.exec_get_bind, represents.null, refused]
    · exact builder_faithful represents live valid fun leaks => safe ⟨inner, live, leaks⟩

end

end Patchy.Ffi
