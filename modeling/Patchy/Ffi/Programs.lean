import Patchy.Ffi.Binding

set_option autoImplicit false

namespace Patchy.Ffi

namespace Abi

def native (self : Abi) : Native :=
  ⟨⟨self.process, fun id => (self.handles id).bind Handle.session?, [], []⟩,
    fun id => ((self.handles id).bind Handle.trampoline?).map (·.inner)⟩

def Admissible (platform : Platform) (self : Abi) (call : AbiCall) : Prop :=
  call.Contract self.handles ∧ ∀ move ∈ call.meaning self.native, self.native.Admissible platform move

def machine (platform : Platform) (memory : ProcessMemory) : Machine Abi (Nat × AbiCall) where
  initial self := ∃ protection panics, self = initial memory protection panics
  admits self operation := self.Admissible platform operation.2
  next self operation := (self.call platform operation.1 operation.2).2

end Abi

variable {platform : Platform} {memory : ProcessMemory} {abi : Abi} {native : Native} {call : AbiCall}

theorem meaning_congr {first second : Native} (builders : first.builders = second.builders) (call : AbiCall) :
    call.meaning first = call.meaning second := by
  cases call <;> simp only [AbiCall.meaning, builders]

theorem Represents.admissible (represents : Represents abi native) {move : NativeMove}
    (admitted : abi.native.Admissible platform move) : native.Admissible platform move := by
  obtain ⟨⟨process, sessions, batches, mapped⟩, builders⟩ := native
  obtain rfl : abi.process = process := represents.process
  obtain rfl : sessions = abi.native.system.sessions := funext represents.sessions
  obtain rfl : builders = abi.native.builders := funext represents.builders
  cases move with
  | session operation => cases operation <;> exact admitted
  | _ => exact admitted

theorem Represents.meaning (represents : Represents abi native) (call : AbiCall) :
    call.meaning native = call.meaning abi.native :=
  meaning_congr (funext represents.builders) call

theorem Represents.follow (represents : Represents abi native)
    (reachable : (Native.machine platform memory).Reachable native) (admitted : abi.Admissible platform call)
    (thread : Nat) :
    ∃ next, (Native.machine platform memory).Reachable next ∧ Represents (abi.call platform thread call).2 next := by
  by_cases leaks : call.Leaks abi.handles
  · obtain ⟨builder, -, -, after⟩ := @leak_faithful platform abi native thread call represents leaks
    exact ⟨_, @Machine.Reachable.step _ _ _ _ (NativeMove.build builder .newLabel) reachable trivial, after⟩
  · have faithful := @call_faithful platform abi native thread call represents admitted.1 leaks
    simp only [Faithful] at faithful
    split at faithful
    next move means =>
      have allowed := represents.admissible (admitted.2 move (by rw [← represents.meaning, means]; rfl))
      exact ⟨_, @Machine.Reachable.step _ _ _ _ move reachable allowed, faithful.2⟩
    next => exact ⟨native, reachable, represents.congr faithful.2.1 faithful.2.2⟩

theorem reachable_represented (reachable : (Abi.machine platform memory).Reachable abi) :
    ∃ native, (Native.machine platform memory).Reachable native ∧ Represents abi native := by
  induction reachable with
  | start initial =>
    obtain ⟨protection, panics, rfl⟩ := initial
    exact ⟨Native.initial memory protection, .start ⟨protection, rfl⟩, rfl, fun _ => rfl, fun _ => rfl,
      by simp [Abi.initial], rfl⟩
  | @step abi operation before admitted ih =>
    obtain ⟨native, followed, represents⟩ := ih
    exact represents.follow followed admitted operation.1

/-- Every program in C has a program in Rust that it is the same as, call by call: a call whose arguments are in order
    does and answers what the Rust call does that it means, a question is answered as it is in Rust, and any other call
    is refused and changes nothing. The exception is a label created for a null output. -/
theorem abi_refines (platform : Platform) (memory : ProcessMemory) (abi : Abi)
    (reachable : (Abi.machine platform memory).Reachable abi) :
    ∃ native, (Native.machine platform memory).Reachable native ∧ Represents abi native ∧
      ∀ thread call, call.Contract abi.handles →
        (¬ call.Leaks abi.handles → Faithful platform abi native thread call) ∧
        (call.Leaks abi.handles → ∃ builder, call = .trampoline builder (.newLabel .valid .null) ∧
          (abi.call platform thread call).1 = ⟨.invalidArgument, none⟩ ∧
            Represents (abi.call platform thread call).2 (native.step platform (.build builder .newLabel)).2) := by
  obtain ⟨native, followed, represents⟩ := reachable_represented reachable
  exact ⟨native, followed, represents, fun thread call contract =>
    ⟨fun safe => call_faithful represents contract safe, fun leaks => leak_faithful represents leaks⟩⟩

-- A session has been created; a call without its bytes is refused, the session behind the pointer is still new, and a
-- question is answered as it is in Rust.
theorem abi_refines_created :
    let platform : Platform := ⟨0x1000, 0x10000, by decide, by decide⟩
    let created := (Abi.initial (fun _ => 0x90) (fun _ => 0x20) fun _ _ => none).call platform 0
      (.sessionCreate .valid 0x7000)
    let refused := created.2.call platform 1 (.sessionOverwrite 0x7000 0x1000 none 1)
    let resolved := created.2.call platform 1 (.resolveRva 0x140000000 0x1000 .valid)
    created.1 = ⟨.ok, some 0x7000⟩ ∧ refused.1 = ⟨.invalidArgument, none⟩ ∧ resolved.1 = ⟨.ok, some 0x140001000⟩ ∧
      ∃ native, (Native.machine platform fun _ => 0x90).Reachable native ∧
        native.system.sessions 0x7000 = some PatchSession.new := by
  intro platform created refused resolved
  have start : (Abi.machine platform fun _ => 0x90).Reachable
      (Abi.initial (fun _ => 0x90) (fun _ => 0x20) fun _ _ => none) := .start ⟨_, _, rfl⟩
  have admitted : (Abi.initial (fun _ => 0x90) (fun _ => 0x20) fun _ _ => none).Admissible platform
      (.sessionCreate .valid 0x7000) := by
    refine ⟨⟨by decide, rfl⟩, ?_⟩
    rintro _ ⟨⟩
    trivial
  have reachable := @Machine.Reachable.step _ _ _ _ (0, AbiCall.sessionCreate .valid 0x7000) start admitted
  obtain ⟨native, followed, represents, faithful⟩ := abi_refines platform _ created.2 reachable
  have refusal := (faithful 1 (.sessionOverwrite 0x7000 0x1000 none 1) (Or.inr ⟨PatchSession.new, rfl⟩)).1
    fun leaks => leaks
  have answer := (faithful 1 (.resolveRva 0x140000000 0x1000 .valid) trivial).1 fun leaks => leaks
  have sum : (ProcessModule.fromBase 0x140000000).resolveRva 0x1000 = .ok 0x140001000 := by decide
  refine ⟨rfl, refusal.1, answer.1.trans ?_, native, followed, represents.sessions 0x7000⟩
  simp [AbiCall.reply, sum, Answer.ofQuestion]

end Patchy.Ffi
