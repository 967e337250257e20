import Patchy.Core.Session
import Patchy.Core.Trampoline

set_option autoImplicit false

namespace Patchy

structure Patch where
  trampoline : Option Nat
  deriving DecidableEq, Repr

def Patch.trampolineAddress (self : Patch) : Option Nat := self.trampoline

namespace PatchSession

-- `slice::from_raw_parts(address, size).to_vec()`
def readSource (address size : Nat) : SessionM (List Byte) := do
  return Memory.readAt (← get).memory address size

def pushPending (patch : PendingPatch) : SessionM Unit :=
  modify fun state =>
    { state with session := { state.session with pending := state.session.pending ++ [patch] } }

def prepareDetour (platform : Platform) (oracle : MappingOracle) (address : Nat) (overwritten : List Byte)
    (trampolineSize : Nat) (build : Builder) : SessionM Patch := do
  Procedure.ofExcept ((← get).session.ensurePatchDoesNotOverlap address overwritten.length)
  let trampolineAddress ← allocateTrampoline platform oracle address trampolineSize build
  let replacement ← Procedure.ofExcept (buildNearJump address trampolineAddress overwritten.length)
  pushPending ⟨address, overwritten, replacement⟩
  return ⟨some trampolineAddress⟩

def callPrefix (overwritten : List Byte) (function : Nat) (saveOverwritten : Bool)
    (allowReturn : ReturnType) : List Byte :=
  (if saveOverwritten then overwritten else []) ++ Arch.buildCall function allowReturn

-- The closure `patch_call` hands to the allocator.
def callBuilder (trampoline : List Byte) (jumpDisplacement continuation : Nat) : Builder :=
  fun trampolineAddress => do
    let nextInstruction ← okOr (checkedAdd trampolineAddress trampoline.length) .addressOverflow
    let displacement ← relativeOffset nextInstruction continuation
    copyFromSlice trampoline jumpDisplacement (jumpDisplacement + 4) (i32Bytes displacement)

def patchCall (platform : Platform) (oracle : MappingOracle) (address function size : Nat)
    (saveOverwritten : Bool) (allowReturn : ReturnType) : SessionM Patch := do
  if size < nearJumpSize then throw (.error (.patchTooSmall size nearJumpSize))
  else
    let overwritten ← readSource address size
    let trampoline := callPrefix overwritten function saveOverwritten allowReturn
    let jumpDisplacement := trampoline.length + 1
    let trampoline := trampoline ++ [nearJump, 0, 0, 0, 0]
    let continuation ← Procedure.ofExcept (okOr (checkedAdd address size) .addressOverflow)
    prepareDetour platform oracle address overwritten trampoline.length
      (callBuilder trampoline jumpDisplacement continuation)

def detourWith (platform : Platform) (oracle : MappingOracle) (address size trampolineSize : Nat)
    (build : Builder) : SessionM Patch := do
  if size < nearJumpSize then throw (.error (.patchTooSmall size nearJumpSize))
  else if trampolineSize = 0 then throw (.error .emptyTrampoline)
  else
    let overwritten ← readSource address size
    prepareDetour platform oracle address overwritten trampolineSize build

def detour (platform : Platform) (oracle : MappingOracle) (address size : Nat) (trampoline : List Byte) :
    SessionM Patch :=
  detourWith platform oracle address size trampoline.length fun _ => .ok trampoline

def detourTrampoline (platform : Platform) (oracle : MappingOracle) (address size : Nat)
    (trampoline : Trampoline) : SessionM Patch := do
  if trampoline.len = 0 then throw (.error .emptyTrampoline)
  else detourWith platform oracle address size trampoline.len trampoline.build

def overwrite (address : Nat) (data : List Byte) : SessionM Patch := do
  if data.isEmpty then throw (.error .emptyPatch)
  else
    let overwritten ← readSource address data.length
    Procedure.ofExcept ((← get).session.ensurePatchDoesNotOverlap address data.length)
    pushPending ⟨address, overwritten, data⟩
    return ⟨none⟩

end PatchSession

end Patchy
