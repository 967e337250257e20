import Mathlib.Logic.Function.Basic
import Patchy.Core.Install
import Patchy.Core.Patch
import Patchy.Ffi.Builder

set_option autoImplicit false

namespace Patchy

structure ProcessModule where
  base : Nat
  deriving DecidableEq, Repr

namespace ProcessModule

def main (lookup : Except String Nat) : Result ProcessModule :=
  match lookup with
  | .ok base => .ok ⟨base⟩
  | .error error => .err (.moduleLookup error)

def fromBase (base : Nat) : ProcessModule := ⟨base⟩

def baseAddress (self : ProcessModule) : Nat := self.base

def resolveRva (self : ProcessModule) (rva : Nat) : Result Nat := okOr (checkedAdd self.base rva) .addressOverflow

end ProcessModule

namespace Ffi

/-- What lives behind a pointer that C has been given. -/
inductive Handle where
  | session (inner : PatchSession)
  | trampoline (inner : PatchyTrampoline)
  deriving DecidableEq, Repr

structure AbiState where
  process : Process
  handles : Nat → Option Handle
  output : Option Nat

abbrev AbiM (α : Type) := Procedure FfiFailure AbiState α

def setHandle (address : Nat) (handle : Option Handle) : AbiM Unit :=
  modify fun state => { state with handles := Function.update state.handles address handle }

def writeOutput (value : Nat) : AbiM Unit := modify fun state => { state with output := some value }

-- A null output is allowed.
def writeOptional (output : Pointer) (value : Nat) : AbiM Unit :=
  match output with
  | .null => pure ()
  | .valid => writeOutput value

def writeChecked (output : Pointer) (value : Nat) (name : String) : AbiM Unit :=
  match output with
  | .null => Procedure.ofExcept (invalid (name ++ " must not be null"))
  | .valid => writeOutput value

def ofResult {α : Type} (result : Result α) : AbiM α := Procedure.ofExcept (result.mapError .ofFailure)

-- What a caller who passes another pointer than those it was given gets is undefined; here the call panics.
def requireSession (session : Nat) : AbiM PatchSession := do
  if session = 0 then Procedure.ofExcept (invalid "session must not be null")
  else
    match (← get).handles session with
    | some (.session inner) => return inner
    | _ => throw .panic

def requireHandle (trampoline : Nat) : AbiM PatchyTrampoline := do
  if trampoline = 0 then Procedure.ofExcept (invalid "trampoline must not be null")
  else
    match (← get).handles trampoline with
    | some (.trampoline inner) => return inner
    | _ => throw .panic

def onSession (session : Nat) (inner : PatchSession) (method : SessionM Patch) : AbiM Patch := do
  let (result, workspace) := method.exec ⟨inner, (← get).process.memory⟩
  modify fun state =>
    { state with
      process := { state.process with memory := workspace.memory }
      handles := Function.update state.handles session (some (.session workspace.session)) }
  ofResult result

def sessionCreate (output : Pointer) (allocated : Nat) : AbiM Unit :=
  match output with
  | .null => Procedure.ofExcept (invalid "output session must not be null")
  | .valid => do
      setHandle allocated (some (.session PatchSession.new))
      writeOutput allocated

def sessionDestroy (session : Nat) : AbiM Unit :=
  if session = 0 then pure () else setHandle session none

def sessionOverwrite (session address : Nat) (bytes : BytePointer) (length : Nat) : AbiM Unit := do
  let inner ← requireSession session
  let bytes ← Procedure.ofExcept (requireBytes bytes length "bytes")
  let _ ← onSession session inner (PatchSession.overwrite address bytes)

def parseReplay : Nat → FfiResult Bool
  | 0 => .ok false
  | 1 => .ok true
  | _ => invalid "replay_overwritten must be zero or one"

def sessionPatchCall (platform : Platform) (oracle : MappingOracle)
    (session address function size replayOverwritten returnType : Nat) (outputTrampoline : Pointer) : AbiM Unit := do
  if function = 0 then Procedure.ofExcept (invalid "function must not be null")
  else
    let replayOverwritten ← Procedure.ofExcept (parseReplay replayOverwritten)
    let returnType ← Procedure.ofExcept (parseReturnType returnType)
    let inner ← requireSession session
    let patch ← onSession session inner
      (PatchSession.patchCall platform oracle address function size replayOverwritten returnType)
    writeOptional outputTrampoline (patch.trampolineAddress.getD 0)

def sessionDetour (platform : Platform) (oracle : MappingOracle) (session address size : Nat)
    (trampolineBytes : BytePointer) (trampolineLength : Nat) (outputTrampoline : Pointer) : AbiM Unit := do
  let inner ← requireSession session
  let trampoline ← Procedure.ofExcept (requireBytes trampolineBytes trampolineLength "trampoline bytes")
  let patch ← onSession session inner (PatchSession.detour platform oracle address size trampoline)
  writeOptional outputTrampoline (patch.trampolineAddress.getD 0)

def sessionDetourTrampoline (platform : Platform) (oracle : MappingOracle) (session address size trampoline : Nat)
    (outputTrampoline : Pointer) : AbiM Unit := do
  let inner ← requireSession session
  let trampoline ← requireHandle trampoline
  let patch ← onSession session inner (PatchSession.detourTrampoline platform oracle address size trampoline.inner)
  writeOptional outputTrampoline (patch.trampolineAddress.getD 0)

-- The caller's pointer to the session is the output: it becomes null before the installation begins.
def sessionInstall (platform : Platform) (environment : InstallEnvironment) (pointer : Pointer) (session : Nat) :
    AbiM Unit :=
  match pointer with
  | .null => Procedure.ofExcept (invalid "session pointer must not be null")
  | .valid => do
      let inner ← requireSession session
      writeOutput 0
      setHandle session none
      let (result, process) := (inner.installPermanently platform environment).exec (← get).process
      modify fun state => { state with process := process }
      ofResult result

def mainModuleBase (lookup : Except String Nat) (outputBase : Pointer) : AbiM Unit := do
  let module ← ofResult (ProcessModule.main lookup)
  writeChecked outputBase module.baseAddress "output base"

def resolveRva (moduleBase rva : Nat) (outputAddress : Pointer) : AbiM Unit := do
  let address ← ofResult ((ProcessModule.fromBase moduleBase).resolveRva rva)
  writeChecked outputAddress address "output address"

def trampolineCreate (output : Pointer) (allocated : Nat) : AbiM Unit :=
  match output with
  | .null => Procedure.ofExcept (invalid "output trampoline must not be null")
  | .valid => do
      setHandle allocated (some (.trampoline create))
      writeOutput allocated

def trampolineDestroy (trampoline : Nat) : AbiM Unit :=
  if trampoline = 0 then pure () else setHandle trampoline none

def onTrampoline (trampoline : Nat) (call : Call) : AbiM Unit := do
  let state ← get
  match state.handles trampoline with
  | some (.trampoline inner) =>
      let (result, after) := call.operation.exec ⟨inner, none⟩
      set { state with
        handles := Function.update state.handles trampoline (some (.trampoline after.trampoline))
        output := after.output }
      Procedure.ofExcept result
  | _ => Procedure.ofExcept (call.operation.exec ⟨create, none⟩).1

/-- A call with its arguments, and what the allocator and the operating system answer. -/
inductive AbiCall where
  | sessionCreate (output : Pointer) (allocated : Nat)
  | sessionDestroy (session : Nat)
  | sessionOverwrite (session address : Nat) (bytes : BytePointer) (length : Nat)
  | sessionPatchCall (oracle : MappingOracle) (session address function size replayOverwritten returnType : Nat)
      (outputTrampoline : Pointer)
  | sessionDetour (oracle : MappingOracle) (session address size : Nat) (trampolineBytes : BytePointer)
      (trampolineLength : Nat) (outputTrampoline : Pointer)
  | sessionDetourTrampoline (oracle : MappingOracle) (session address size trampoline : Nat)
      (outputTrampoline : Pointer)
  | sessionInstallPermanently (environment : InstallEnvironment) (pointer : Pointer) (session : Nat)
  | mainModuleBase (lookup : Except String Nat) (outputBase : Pointer)
  | resolveRva (moduleBase rva : Nat) (outputAddress : Pointer)
  | trampolineCreate (output : Pointer) (allocated : Nat)
  | trampolineDestroy (trampoline : Nat)
  | trampoline (builder : Nat) (call : Call)

def AbiCall.operation (platform : Platform) : AbiCall → AbiM Unit
  | .sessionCreate output allocated => Ffi.sessionCreate output allocated
  | .sessionDestroy session => Ffi.sessionDestroy session
  | .sessionOverwrite session address bytes length => Ffi.sessionOverwrite session address bytes length
  | .sessionPatchCall oracle session address function size replayOverwritten returnType output =>
      Ffi.sessionPatchCall platform oracle session address function size replayOverwritten returnType output
  | .sessionDetour oracle session address size bytes length output =>
      Ffi.sessionDetour platform oracle session address size bytes length output
  | .sessionDetourTrampoline oracle session address size builder output =>
      Ffi.sessionDetourTrampoline platform oracle session address size builder output
  | .sessionInstallPermanently environment pointer session => Ffi.sessionInstall platform environment pointer session
  | .mainModuleBase lookup outputBase => Ffi.mainModuleBase lookup outputBase
  | .resolveRva moduleBase rva outputAddress => Ffi.resolveRva moduleBase rva outputAddress
  | .trampolineCreate output allocated => Ffi.trampolineCreate output allocated
  | .trampolineDestroy builder => Ffi.trampolineDestroy builder
  | .trampoline builder call => Ffi.onTrampoline builder call

/-- A process that uses the library from C. Every thread has a last error of its own. `panics` is what a panic of a
    call would carry, if that is a text. -/
structure Abi where
  process : Process
  handles : Nat → Option Handle
  lastError : Nat → String
  panics : AbiCall → AbiState → Option String

structure Answer where
  status : PatchyStatus
  output : Option Nat
  deriving DecidableEq, Repr

namespace Abi

def initial (memory : ProcessMemory) (protection : Nat → Nat) (panics : AbiCall → AbiState → Option String) : Abi :=
  ⟨⟨memory, protection, [], []⟩, fun _ => none, fun _ => "", panics⟩

def call (platform : Platform) (self : Abi) (thread : Nat) (call : AbiCall) : Answer × Abi :=
  let before : AbiState := ⟨self.process, self.handles, none⟩
  let outcome := ffiCall (self.panics call before) (call.operation platform) before
  (⟨outcome.status, outcome.state.output⟩,
    { self with
      process := outcome.state.process
      handles := outcome.state.handles
      lastError := Function.update self.lastError thread outcome.lastError })

def lastErrorMessage (self : Abi) (thread : Nat) : String := self.lastError thread

end Abi

end Ffi

end Patchy
