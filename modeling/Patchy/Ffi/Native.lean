import Patchy.Ffi.Abi
import Patchy.Ffi.Refinement
import Patchy.System.Model

set_option autoImplicit false

namespace Patchy

/-- A process in which a Rust program uses sessions and trampoline builders. -/
structure Native where
  system : System
  builders : Nat → Option Trampoline

inductive NativeMove where
  | session (operation : Operation)
  | detourTrampoline (id : Nat) (oracle : MappingOracle) (address size builder : Nat)
  | newBuilder (id : Nat)
  | dropBuilder (id : Nat)
  | build (id : Nat) (op : BuilderOp)

def Outcome.answer : Outcome → Result (Option Nat)
  | .done => .ok none
  | .prepared result => result.map (·.trampolineAddress)
  | .installed result => result.map fun _ => none

def BuilderOp.answer (self : Trampoline) : BuilderOp → Result (Option Nat)
  | .newLabel => .ok (some self.newLabel.1.index)
  | .bind label => (self.bind label).1.map fun _ => none
  | _ => .ok none

namespace Native

def initial (memory : ProcessMemory) (protection : Nat → Nat) : Native :=
  ⟨System.initial memory protection, fun _ => none⟩

def onSystem (platform : Platform) (self : Native) (operation : Operation) : Result (Option Nat) × Native :=
  let after := self.system.step platform operation
  (after.1.answer, { self with system := after.2 })

def step (platform : Platform) (self : Native) : NativeMove → Result (Option Nat) × Native
  | .session operation => self.onSystem platform operation
  | .detourTrampoline id oracle address size builder =>
      match self.builders builder with
      | none => (.ok none, self)
      | some trampoline =>
          self.onSystem platform (.prepare id oracle (.detourTrampoline address size trampoline))
  | .newBuilder id => (.ok none, { self with builders := Function.update self.builders id (some Trampoline.new) })
  | .dropBuilder id => (.ok none, { self with builders := Function.update self.builders id none })
  | .build id op =>
      match self.builders id with
      | none => (.ok none, self)
      | some trampoline =>
          (op.answer trampoline,
            { self with builders := Function.update self.builders id (some (op.apply trampoline)) })

def Admissible (platform : Platform) (self : Native) : NativeMove → Prop
  | .session operation => self.system.Admissible platform operation
  | .detourTrampoline id oracle address size builder => ∀ trampoline ∈ self.builders builder,
      self.system.Admissible platform (.prepare id oracle (.detourTrampoline address size trampoline))
  | .newBuilder _ | .dropBuilder _ | .build _ _ => True

def machine (platform : Platform) (memory : ProcessMemory) : Machine Native NativeMove where
  initial self := ∃ protection, self = initial memory protection
  admits := Admissible platform
  next self move := (self.step platform move).2

end Native

namespace Ffi

def Call.trampoline : Call → Pointer
  | .length trampoline _ | .addBytes trampoline _ _ | .newLabel trampoline _ | .bind trampoline _
  | .absoluteCall trampoline _ | .absoluteJump trampoline _ | .relativeJump trampoline _ | .jumpTo trampoline _
  | .jumpIf trampoline _ _ | .preservedCall trampoline _ _ _ _ _ _ => trampoline

def Call.Accepted (self : Trampoline) : Call → Prop
  | .newLabel _ output => output = .valid ∧ self.labels.length ≤ u32Max
  | .bind _ label | .jumpTo _ label | .jumpIf _ _ label => label < self.labels.length
  | .absoluteCall _ function | .preservedCall _ function _ _ _ _ _ => function ≠ 0
  | _ => True

instance (self : Trampoline) (call : Call) : Decidable (call.Accepted self) := by
  cases call <;> unfold Call.Accepted <;> infer_instance

def noMapping : MappingOracle := ⟨fun _ => .error "", fun _ => .error ""⟩

/-- The Rust call that the header describes, if the arguments are in order. -/
def AbiCall.meaning (native : Native) : AbiCall → Option NativeMove
  | .sessionCreate output allocated => if output = .valid then some (.session (.create allocated)) else none
  | .sessionDestroy session => if session = 0 then none else some (.session (.drop session))
  | .sessionOverwrite session address bytes length => do
      guard (session ≠ 0)
      let bytes ← (requireBytes bytes length "bytes").toOption
      some (.session (.prepare session noMapping (.overwrite address bytes)))
  | .sessionPatchCall oracle session address function size replayOverwritten returnType _ => do
      guard (function ≠ 0 ∧ session ≠ 0)
      let replayOverwritten ← (parseReplay replayOverwritten).toOption
      let returnType ← (parseReturnType returnType).toOption
      some (.session (.prepare session oracle (.patchCall address function size replayOverwritten returnType)))
  | .sessionDetour oracle session address size bytes length _ => do
      guard (session ≠ 0)
      let bytes ← (requireBytes bytes length "trampoline bytes").toOption
      some (.session (.prepare session oracle (.detour address size bytes)))
  | .sessionDetourTrampoline oracle session address size builder _ =>
      if session = 0 ∨ builder = 0 then none else some (.detourTrampoline session oracle address size builder)
  | .sessionInstallPermanently environment pointer session =>
      if pointer = .valid ∧ session ≠ 0 then some (.session (.installPermanently session environment)) else none
  | .mainModuleBase _ _ | .resolveRva _ _ _ => none
  | .trampolineCreate output allocated => if output = .valid then some (.newBuilder allocated) else none
  | .trampolineDestroy builder => if builder = 0 then none else some (.dropBuilder builder)
  | .trampoline builder call => do
      let trampoline ← native.builders builder
      guard (call.Accepted trampoline)
      let op ← call.rustOp.toOption.join
      some (.build builder op)

def AbiCall.outputs : AbiCall → Result (Option Nat) → Option Nat
  | .sessionCreate _ allocated, _ | .trampolineCreate _ allocated, _ => some allocated
  | .sessionPatchCall _ _ _ _ _ _ _ .valid, .ok address | .sessionDetour _ _ _ _ _ _ .valid, .ok address
  | .sessionDetourTrampoline _ _ _ _ _ .valid, .ok address => some (address.getD 0)
  | .sessionInstallPermanently _ _ _, _ => some 0
  | .trampoline _ _, .ok label => label
  | _, _ => none

def PatchyStatus.ofResult : Result (Option Nat) → PatchyStatus
  | .ok _ => .ok
  | .error failure => .ofFailure failure

def Answer.ofQuestion (output : Pointer) : Result Nat → Answer
  | .error failure => ⟨.ofFailure failure, none⟩
  | .ok value =>
      match output with
      | .null => ⟨.invalidArgument, none⟩
      | .valid => ⟨.ok, some value⟩

/-- What a call answers that changes nothing: the Rust answer to its question, or that there was nothing to destroy. All
    others are refused. -/
def AbiCall.reply (native : Native) : AbiCall → Answer
  | .mainModuleBase lookup output => .ofQuestion output ((ProcessModule.main lookup).map (·.baseAddress))
  | .resolveRva moduleBase rva output => .ofQuestion output ((ProcessModule.fromBase moduleBase).resolveRva rva)
  | .trampoline builder (.length _ output) =>
      match native.builders builder with
      | some inner => .ofQuestion output (.ok inner.len)
      | none => ⟨.invalidArgument, none⟩
  | .sessionDestroy _ | .trampolineDestroy _ => ⟨.ok, none⟩
  | _ => ⟨.invalidArgument, none⟩

/-- What the header demands of pointers: they are null, or the caller's to use. -/
def AbiCall.Contract (handles : Nat → Option Handle) : AbiCall → Prop
  | .sessionCreate _ allocated | .trampolineCreate _ allocated => allocated ≠ 0 ∧ handles allocated = none
  | .sessionDestroy session | .sessionOverwrite session _ _ _ | .sessionPatchCall _ session _ _ _ _ _ _
  | .sessionDetour _ session _ _ _ _ _ | .sessionInstallPermanently _ _ session =>
      session = 0 ∨ ∃ inner, handles session = some (.session inner)
  | .sessionDetourTrampoline _ session _ _ builder _ =>
      (session = 0 ∨ ∃ inner, handles session = some (.session inner)) ∧
        (builder = 0 ∨ ∃ inner, handles builder = some (.trampoline inner))
  | .mainModuleBase _ _ | .resolveRva _ _ _ => True
  | .trampolineDestroy builder => builder = 0 ∨ ∃ inner, handles builder = some (.trampoline inner)
  | .trampoline builder call =>
      builder = 0 ∧ call.trampoline = .null ∨
        call.trampoline = .valid ∧ ∃ inner, handles builder = some (.trampoline inner)

-- A new label whose number the caller has no place for: the label is created before that is noticed.
def AbiCall.Leaks (handles : Nat → Option Handle) : AbiCall → Prop
  | .trampoline builder call => ∃ inner, handles builder = some (.trampoline inner) ∧ call.LeaksLabel inner
  | _ => False

def Handle.session? : Handle → Option PatchSession
  | .session inner => some inner
  | .trampoline _ => none

def Handle.trampoline? : Handle → Option PatchyTrampoline
  | .session _ => none
  | .trampoline inner => some inner

/-- The boxes of a C program hold what the sessions and builders of a Rust program are. -/
structure Represents (abi : Abi) (native : Native) : Prop where
  process : abi.process = native.system.process
  sessions : ∀ id, native.system.sessions id = (abi.handles id).bind Handle.session?
  builders : ∀ id, native.builders id = ((abi.handles id).bind Handle.trampoline?).map (·.inner)
  mirrors : ∀ id handle, abi.handles id = some (.trampoline handle) → Mirrors handle
  null : abi.handles 0 = none

end Ffi

end Patchy
