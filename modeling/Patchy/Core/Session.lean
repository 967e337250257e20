import Patchy.Core.RelativeJump
import Patchy.Shared.Memory

set_option autoImplicit false

namespace Patchy

abbrev ProcessMemory := Nat → Byte

/-- What `MmapOptions::page_size` and `MmapOptions::allocation_granularity` report. -/
structure Platform where
  pageSize : Nat
  allocationGranularity : Nat
  pageSize_pos : 0 < pageSize
  granularity_pos : 0 < allocationGranularity

/-- How the mapping library answers one preparation call, for each address it may be asked for.
    No address is asked for twice in one call. -/
structure MappingOracle where
  options : Nat → Except String Unit
  mapMut : Nat → Except String Nat

structure MutableCodePage where
  mapping : Nat
  used : Nat
  deriving DecidableEq, Repr

structure PendingPatch where
  address : Nat
  expected : List Byte
  replacement : List Byte
  deriving DecidableEq, Repr

structure PatchSession where
  pages : List MutableCodePage
  pending : List PendingPatch
  deriving DecidableEq, Repr

def PatchSession.new : PatchSession := ⟨[], []⟩

structure Workspace where
  session : PatchSession
  memory : ProcessMemory

abbrev SessionM (α : Type) := Procedure Failure Workspace α

abbrev Builder := Nat → Result (List Byte)

namespace PatchSession

-- The loop of `ensure_patch_does_not_overlap`, with `stop` the checked end of the new patch.
def overlapScan (address stop : Nat) : List PendingPatch → Result Unit
  | [] => .ok ()
  | patch :: rest => do
      let patchEnd ← okOr (checkedAdd patch.address patch.replacement.length) .addressOverflow
      if address < patchEnd ∧ patch.address < stop then
        .err (.overlappingPatch patch.address address)
      else overlapScan address stop rest

def ensurePatchDoesNotOverlap (self : PatchSession) (address size : Nat) : Result Unit := do
  if size = 0 then .err .emptyPatch
  else
    let stop ← okOr (checkedAdd address size) .addressOverflow
    overlapScan address stop self.pending

def validateTrampolineSize (expected actual : Nat) : Result Unit :=
  if expected = actual then .ok () else .err (.unexpectedTrampolineSize expected actual)

-- `mapping[start..stop].copy_from_slice(code)` on a page of `pageSize` bytes.
def copyIntoMapping (platform : Platform) (mapping start stop : Nat) (code : List Byte) :
    SessionM Unit := do
  if start ≤ stop ∧ stop ≤ platform.pageSize ∧ stop - start = code.length then
    modify fun state => { state with memory := Memory.writeAt state.memory (mapping + start) code }
  else throw .panic

def setPages (pages : List MutableCodePage) : SessionM Unit :=
  modify fun state => { state with session := { state.session with pages := pages } }

-- The loop of `allocate_trampoline` over the pages not yet `visited`.
def allocateInPages (platform : Platform) (hookNextInstruction trampolineSize : Nat) (build : Builder) :
    (visited pages : List MutableCodePage) → SessionM (Option Nat)
  | _, [] => pure none
  | visited, page :: rest => do
      let skip := allocateInPages platform hookNextInstruction trampolineSize build (visited ++ [page]) rest
      match slotRange page.used trampolineSize platform.pageSize with
      | none => skip
      | some range =>
        let trampolineAddress ← Procedure.ofExcept
          (okOr (checkedAdd page.mapping range.start) .addressOverflow)
        match relativeOffset hookNextInstruction trampolineAddress with
        | .error _ => skip
        | .ok _ =>
          match build trampolineAddress with
          | .error (.error (.relativeJumpOutOfRange _ _)) => skip
          | .error failure => throw failure
          | .ok code =>
            Procedure.ofExcept (validateTrampolineSize trampolineSize code.length)
            copyIntoMapping platform page.mapping range.start range.stop code
            setPages (visited ++ { page with used := range.stop } :: rest)
            return some trampolineAddress

/-- Answers the address found, if any, and the value left in `last_error`. -/
def tryAllocatePage (platform : Platform) (oracle : MappingOracle)
    (candidate hookNextInstruction trampolineSize : Nat) (build : Builder) (lastError : Option String) :
    SessionM (Option Nat × Option String) := do
  match oracle.options candidate with
  | .error error => throw (.error (.mapping error))
  | .ok () =>
    match oracle.mapMut candidate with
    | .error error => return (none, some error)
    | .ok actualAddress =>
      if actualAddress ≠ candidate then
        return (none, some ("requested " ++ hexAddress candidate ++
          ", but the mapping was placed at " ++ hexAddress actualAddress))
      else
        match relativeOffset hookNextInstruction actualAddress with
        | .error _ =>
          return (none, some ("mapping at " ++ hexAddress actualAddress ++ " was outside rel32 range"))
        | .ok _ =>
          match build actualAddress with
          | .error (.error (.relativeJumpOutOfRange _ _)) =>
            return (none, some ("trampoline exits were unreachable from " ++ hexAddress actualAddress))
          | .error failure => throw failure
          | .ok code =>
            Procedure.ofExcept (validateTrampolineSize trampolineSize code.length)
            copyIntoMapping platform actualAddress 0 trampolineSize code
            setPages ((← get).session.pages ++ [⟨actualAddress, trampolineSize⟩])
            return (some actualAddress, lastError)

-- The candidate loop of `allocate_trampoline_page`.
def tryCandidates (platform : Platform) (oracle : MappingOracle) (hook hookNextInstruction trampolineSize : Nat)
    (build : Builder) : (candidates : List Nat) → (lastError : Option String) → SessionM Nat
  | [], lastError => throw (.error (.noMemoryCave hook lastError))
  | candidate :: rest, lastError => do
      let (found, lastError) ←
        tryAllocatePage platform oracle candidate hookNextInstruction trampolineSize build lastError
      match found with
      | some address => return address
      | none => tryCandidates platform oracle hook hookNextInstruction trampolineSize build rest lastError

def allocateTrampolinePage (platform : Platform) (oracle : MappingOracle) (hook trampolineSize : Nat)
    (build : Builder) : SessionM Nat := do
  let hookNextInstruction ← Procedure.ofExcept (okOr (checkedAdd hook nearJumpSize) .addressOverflow)
  let (minimum, maximum) ← Procedure.ofExcept
    (candidateBounds hookNextInstruction platform.pageSize platform.allocationGranularity)
  let candidates ← Procedure.ofExcept
    (CandidateAddresses.new hook minimum maximum platform.allocationGranularity platform.granularity_pos)
  tryCandidates platform oracle hook hookNextInstruction trampolineSize build candidates.collect none

def allocateTrampoline (platform : Platform) (oracle : MappingOracle) (hook trampolineSize : Nat)
    (build : Builder) : SessionM Nat := do
  if platform.pageSize < trampolineSize then
    throw (.error (.trampolineTooLarge trampolineSize platform.pageSize))
  else
    let hookNextInstruction ← Procedure.ofExcept (okOr (checkedAdd hook nearJumpSize) .addressOverflow)
    let found ← allocateInPages platform hookNextInstruction trampolineSize build []
      (← get).session.pages
    match found with
    | some address => return address
    | none => allocateTrampolinePage platform oracle hook trampolineSize build

end PatchSession

end Patchy
