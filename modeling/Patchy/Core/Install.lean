import Mathlib.Data.Finset.Sort
import Patchy.Core.Session

set_option autoImplicit false

namespace Patchy

structure InstalledPatch where
  address : Nat
  size : Nat
  deriving DecidableEq, Repr

structure PermanentPatchSet where
  pages : List Nat
  patches : List InstalledPatch
  deriving DecidableEq, Repr

inductive ProtectionSite where
  | protect
  | restore
  deriving DecidableEq, Repr

inductive OsEvent where
  | virtualProtect (site : ProtectionSite) (page flags : Nat) (succeeded : Bool)
  | copy (address : Nat) (bytes : List Byte)
  deriving DecidableEq, Repr

/-- The process an installation runs in; `events` is a ghost log of what it did to source pages. -/
structure Process where
  memory : ProcessMemory
  protection : Nat → Nat
  permanentPatchSets : List PermanentPatchSet
  events : List OsEvent

/-- Which operating-system calls of one installation fail, and with what text. Each call is named by
    the position of the page or patch it is made for, or by the source page it is made on. `race` is
    what other threads do to memory between the two validations. -/
structure InstallEnvironment where
  makeExec : Nat → Option String
  flushPage : Nat → Option String
  protect : Nat → Option String
  race : ProcessMemory → ProcessMemory
  flushPatch : Nat → Option String
  restore : Nat → Option String

abbrev ProcessM (α : Type) := Procedure Failure Process α

def pageExecuteReadWrite : Nat := 0x40

structure SourceProtection where
  address : Nat
  old : Nat
  deriving DecidableEq, Repr

namespace PatchSession

def sealPages (environment : InstallEnvironment) : (index : Nat) → List MutableCodePage → ProcessM (List Nat)
  | _, [] => pure []
  | index, page :: rest =>
      match environment.makeExec index with
      | some error => throw (.error (.mapping error))
      | none => do
          let executable ← sealPages environment (index + 1) rest
          return page.mapping :: executable

-- Both cache-flushing loops: each stops at the first address that cannot be flushed.
def flushAll (fails : Nat → Option String) : (index : Nat) → (addresses : List Nat) → ProcessM Unit
  | _, [] => pure ()
  | index, address :: rest =>
      match fails index with
      | some error => throw (.error (.instructionCache address error))
      | none => flushAll fails (index + 1) rest

-- The page walk of `protect_patch_sources`, from `page` up to `lastPage`.
def pageWalk (platform : Platform) (lastPage page : Nat) (sourcePages : Finset Nat) : Result (Finset Nat) :=
  let sourcePages := insert page sourcePages
  if page = lastPage then .ok sourcePages
  else
    match advanced : checkedAdd page platform.pageSize with
    | none => .err .addressOverflow
    | some next =>
        have : usizeMax + 1 - next < usizeMax + 1 - page := by
          have positive := platform.pageSize_pos
          have sum := checkedAdd_some.mp advanced
          omega
        pageWalk platform lastPage next sourcePages
termination_by usizeMax + 1 - page

def sourcePages (platform : Platform) : List PendingPatch → Finset Nat → Result (Finset Nat)
  | [], pages => .ok pages
  | patch :: rest, pages =>
      -- `replacement.len() - 1` would underflow on an empty replacement.
      match checkedSub patch.replacement.length 1 with
      | none => .error .panic
      | some offset => do
          let lastByte ← okOr (checkedAdd patch.address offset) .addressOverflow
          let firstPage := alignDown patch.address platform.pageSize
          let lastPage := alignDown lastByte platform.pageSize
          let pages ← pageWalk platform lastPage firstPage pages
          sourcePages platform rest pages

def record (event : OsEvent) : ProcessM Unit :=
  modify fun process => { process with events := process.events ++ [event] }

def virtualProtect (fails : Nat → Option String) (site : ProtectionSite) (page flags : Nat) :
    ProcessM (Except String Nat) := do
  match fails page with
  | some error =>
      record (.virtualProtect site page flags false)
      return .error error
  | none =>
      let old := (← get).protection page
      modify fun process => { process with protection := Function.update process.protection page flags }
      record (.virtualProtect site page flags true)
      return .ok old

-- The loop of `restore_patch_sources`, over the protections in the order they are restored.
def restoreLoop (environment : InstallEnvironment) :
    List SourceProtection → (firstError : Option PatchError) → ProcessM (Option PatchError)
  | [], firstError => pure firstError
  | protection :: rest, firstError => do
      match ← virtualProtect environment.restore .restore protection.address protection.old with
      | .error error =>
          restoreLoop environment rest (firstError.or (some (.protection protection.address error)))
      | .ok _ => restoreLoop environment rest firstError

def restorePatchSources (environment : InstallEnvironment) (protections : List SourceProtection) :
    ProcessM Unit := do
  match ← restoreLoop environment protections.reverse none with
  | some error => throw (.error error)
  | none => return ()

-- The loop of `protect_patch_sources` over the collected pages, in ascending order.
def protectLoop (environment : InstallEnvironment) :
    List Nat → (protections : List SourceProtection) → ProcessM (List SourceProtection)
  | [], protections => pure protections
  | address :: rest, protections => do
      match ← virtualProtect environment.protect .protect address pageExecuteReadWrite with
      | .error error =>
          restorePatchSources environment protections
          throw (.error (.protection address error))
      | .ok old => protectLoop environment rest (protections ++ [⟨address, old⟩])

def protectPatchSources (platform : Platform) (environment : InstallEnvironment)
    (patches : List PendingPatch) : ProcessM (List SourceProtection) := do
  let pages ← Procedure.ofExcept (sourcePages platform patches ∅)
  protectLoop environment (pages.sort (· ≤ ·)) []

def validatePatchSources (memory : ProcessMemory) : List PendingPatch → Result Unit
  | [] => .ok ()
  | patch :: rest =>
      if Memory.readAt memory patch.address patch.expected.length ≠ patch.expected then
        .err (.sourceChanged patch.address)
      else validatePatchSources memory rest

-- The inner loop of `ensure_patches_do_not_overlap_installed`.
def installedScan (patch : PendingPatch) (patchEnd : Nat) : List InstalledPatch → Result Unit
  | [] => .ok ()
  | installed :: rest => do
      let installedEnd ← okOr (checkedAdd installed.address installed.size) .addressOverflow
      if patch.address < installedEnd ∧ installed.address < patchEnd then
        .err (.overlappingPatch installed.address patch.address)
      else installedScan patch patchEnd rest

def ensurePatchesDoNotOverlapInstalled (installedSets : List PermanentPatchSet) :
    List PendingPatch → Result Unit
  | [] => .ok ()
  | patch :: rest => do
      let patchEnd ← okOr (checkedAdd patch.address patch.replacement.length) .addressOverflow
      installedScan patch patchEnd (installedSets.flatMap (·.patches))
      ensurePatchesDoNotOverlapInstalled installedSets rest

def copyReplacements : List PendingPatch → ProcessM Unit
  | [] => pure ()
  | patch :: rest => do
      modify fun process =>
        { process with memory := Memory.writeAt process.memory patch.address patch.replacement }
      record (.copy patch.address patch.replacement)
      copyReplacements rest

def installPermanently (platform : Platform) (environment : InstallEnvironment) (self : PatchSession) :
    ProcessM Unit := do
  let executablePages ← sealPages environment 0 self.pages
  flushAll environment.flushPage 0 executablePages
  Procedure.ofExcept (ensurePatchesDoNotOverlapInstalled (← get).permanentPatchSets self.pending)
  Procedure.ofExcept (validatePatchSources (← get).memory self.pending)
  let protections ← protectPatchSources platform environment self.pending
  modify fun process => { process with memory := environment.race process.memory }
  match validatePatchSources (← get).memory self.pending with
  | .error error =>
      restorePatchSources environment protections
      throw error
  | .ok () =>
      modify fun process =>
        { process with
          permanentPatchSets := process.permanentPatchSets ++
            [⟨executablePages, self.pending.map fun patch => ⟨patch.address, patch.replacement.length⟩⟩] }
      copyReplacements self.pending
      let instructionCacheResult ←
        Procedure.attempt (flushAll environment.flushPatch 0 (self.pending.map (·.address)))
      let protectionResult ← Procedure.attempt (restorePatchSources environment protections)
      Procedure.ofExcept instructionCacheResult
      Procedure.ofExcept protectionResult

end PatchSession

end Patchy
