import Patchy.System.Model

set_option autoImplicit false

namespace Patchy

def Process.recorded (self : Process) : List InstalledPatch := self.permanentPatchSets.flatMap (·.patches)

inductive Exit where
  | failed (failure : Failure)
  | installed (instructionCacheResult : Result Unit)
  deriving DecidableEq, Repr

def Exit.result : Exit → (protectionError : Option PatchError) → Result Unit
  -- `restore_patch_sources(&protections)?` comes first.
  | .failed failure, none => .error failure
  | .failed _, some error => .err error
  -- `instruction_cache_result?` comes first.
  | .installed (.error failure), _ => .error failure
  | .installed (.ok ()), some error => .err error
  | .installed (.ok ()), none => .ok ()

/-- Where an installation stands, with the local variables it needs from there on. -/
inductive Point where
  | sealing
  | waiting (executablePages : List Nat)
  | checking (executablePages : List Nat)
  | validating (executablePages : List Nat)
  | collecting (executablePages : List Nat)
  | protecting (executablePages rest : List Nat) (protections : List SourceProtection)
  | revalidating (executablePages : List Nat) (protections : List SourceProtection)
  | recording (executablePages : List Nat) (protections : List SourceProtection)
  | copying (rest : List PendingPatch) (protections : List SourceProtection)
  | flushing (protections : List SourceProtection)
  | restoring (rest : List SourceProtection) (firstError : Option PatchError) (exit : Exit)
  | finished (result : Result Unit)
  deriving DecidableEq, Repr

namespace Point

def locked : Point → Bool
  | .sealing | .waiting _ | .finished _ => false
  | _ => true

def unrecorded : Point → Bool
  | .copying _ _ | .flushing _ | .restoring _ _ (.installed _) | .finished _ => false
  | _ => true

def uncopied : Point → List PendingPatch
  | .copying rest _ => rest
  | _ => []

def opened : Point → List SourceProtection
  | .protecting _ _ protections | .revalidating _ protections | .recording _ protections
  | .copying _ protections | .flushing protections | .restoring protections _ _ => protections
  | _ => []

def blocked (lock : Option Nat) : Point → Bool
  | .waiting _ => lock.isSome
  | _ => false

/-- The next step of an installation: `PatchSession.installPermanently`, cut where it looks at what others may
    change or changes what others may look at. -/
def advance (platform : Platform) (environment : InstallEnvironment) (self : PatchSession) (process : Process) :
    Point → Point × Process
  | .sealing =>
      match (PatchSession.sealPages environment 0 self.pages).exec process with
      | (.error failure, _) => (.finished (.error failure), process)
      | (.ok executablePages, _) =>
        match (PatchSession.flushAll environment.flushPage 0 executablePages).exec process with
        | (.error failure, _) => (.finished (.error failure), process)
        | (.ok (), _) => (.waiting executablePages, process)
  | .waiting executablePages => (.checking executablePages, process)
  | .checking executablePages =>
      match PatchSession.ensurePatchesDoNotOverlapInstalled process.permanentPatchSets self.pending with
      | .error failure => (.finished (.error failure), process)
      | .ok () => (.validating executablePages, process)
  | .validating executablePages =>
      match PatchSession.validatePatchSources process.memory self.pending with
      | .error failure => (.finished (.error failure), process)
      | .ok () => (.collecting executablePages, process)
  | .collecting executablePages =>
      match PatchSession.sourcePages platform self.pending ∅ with
      | .error failure => (.finished (.error failure), process)
      | .ok pages => (.protecting executablePages (pages.sort (· ≤ ·)) [], process)
  | .protecting executablePages [] protections => (.revalidating executablePages protections, process)
  | .protecting executablePages (address :: rest) protections =>
      match (PatchSession.virtualProtect environment.protect .protect address pageExecuteReadWrite).exec process with
      | (.error failure, process) => (.finished (.error failure), process)
      | (.ok (.error error), process) =>
          (.restoring protections.reverse none (.failed (.error (.protection address error))), process)
      | (.ok (.ok old), process) => (.protecting executablePages rest (protections ++ [⟨address, old⟩]), process)
  | .revalidating executablePages protections =>
      match PatchSession.validatePatchSources process.memory self.pending with
      | .error failure => (.restoring protections.reverse none (.failed failure), process)
      | .ok () => (.recording executablePages protections, process)
  | .recording executablePages protections =>
      (.copying self.pending protections,
        { process with
          permanentPatchSets := process.permanentPatchSets ++
            [⟨executablePages, self.pending.map fun patch => ⟨patch.address, patch.replacement.length⟩⟩] })
  | .copying [] protections => (.flushing protections, process)
  | .copying (patch :: rest) protections =>
      (.copying rest protections,
        { process with
          memory := Memory.writeAt process.memory patch.address patch.replacement
          events := process.events ++ [.copy patch.address patch.replacement] })
  | .flushing protections =>
      (.restoring protections.reverse none
        (.installed ((PatchSession.flushAll environment.flushPatch 0 (self.pending.map (·.address))).exec process).1),
        process)
  | .restoring [] firstError exit => (.finished (exit.result firstError), process)
  | .restoring (protection :: rest) firstError exit =>
      match (PatchSession.virtualProtect environment.restore .restore protection.address
          protection.old).exec process with
      | (.error failure, process) => (.finished (.error failure), process)
      | (.ok (.error error), process) =>
          (.restoring rest (firstError.or (some (.protection protection.address error))) exit, process)
      | (.ok (.ok _), process) => (.restoring rest firstError exit, process)
  | .finished result => (.finished result, process)

end Point

inductive Thread where
  | idle
  | preparing (session : PatchSession)
  | installing (session : PatchSession) (environment : InstallEnvironment) (point : Point)

def Thread.session : Thread → Option PatchSession
  | .idle => none
  | .preparing session => some session
  | .installing session _ point => if point.unrecorded then some session else none

def Thread.locked : Thread → Bool
  | .installing _ _ point => point.locked
  | _ => false

/-- A process in which any number of threads each work on a session of their own. `lock` is who has locked the
    registry; `mapped` only observes the bases of all trampoline pages there have been. -/
structure Concurrent where
  process : Process
  threads : Nat → Thread
  lock : Option Nat
  mapped : List Nat

inductive Move where
  | create (id : Nat)
  | prepare (id : Nat) (oracle : MappingOracle) (preparation : Preparation)
  | drop (id : Nat)
  | install (id : Nat) (environment : InstallEnvironment)
  | advance (id : Nat)

def Move.thread : Move → Nat
  | .create id | .prepare id _ _ | .drop id | .install id _ | .advance id => id

namespace Concurrent

def initial (memory : ProcessMemory) (protection : Nat → Nat) : Concurrent :=
  ⟨⟨memory, protection, [], []⟩, fun _ => .idle, none, []⟩

def setThread (self : Concurrent) (id : Nat) (thread : Thread) : Concurrent :=
  { self with threads := Function.update self.threads id thread }

-- Taking the lock waits for it; whoever is finished has let go of it.
def afterAdvance (self : Concurrent) (id : Nat) (session : PatchSession) (environment : InstallEnvironment)
    (point : Point) (process : Process) : Concurrent :=
  { self.setThread id (.installing session environment point) with
    process := process
    lock := if point.locked then some id else if self.lock = some id then none else self.lock }

def afterPreparation (self : Concurrent) (id : Nat) (session : PatchSession) (workspace : Workspace) : Concurrent :=
  { self.setThread id (.preparing workspace.session) with
    process := { self.process with memory := workspace.memory }
    mapped := self.mapped ++ workspace.session.bases.drop session.bases.length }

-- A move that a thread cannot make does nothing.
def step (platform : Platform) (self : Concurrent) : Move → Concurrent
  | .create id =>
      match self.threads id with
      | .idle => self.setThread id (.preparing PatchSession.new)
      | _ => self
  | .prepare id oracle preparation =>
      match self.threads id with
      | .preparing session =>
          self.afterPreparation id session ((preparation.run platform oracle).exec ⟨session, self.process.memory⟩).2
      | _ => self
  | .drop id =>
      match self.threads id with
      | .preparing _ => self.setThread id .idle
      | _ => self
  | .install id environment =>
      match self.threads id with
      | .preparing session => self.setThread id (.installing session environment .sealing)
      | _ => self
  | .advance id =>
      match self.threads id with
      | .installing _ _ (.finished _) => self.setThread id .idle
      | .installing session environment point =>
          if point.blocked self.lock then self
          else
            let (next, process) := point.advance platform environment session self.process
            self.afterAdvance id session environment next process
      | _ => self

def Live (self : Concurrent) (session : PatchSession) : Prop := ∃ id, (self.threads id).session = some session

def IsSource (self : Concurrent) (range : InstalledPatch) : Prop :=
  range ∈ self.process.recorded ∨ ∃ session, self.Live session ∧ ∃ patch ∈ session.pending, patch.installed = range

def Outside (platform : Platform) (self : Concurrent) (location : Nat) : Prop :=
  ∀ base ∈ self.mapped, ¬ Memory.Inside base platform.pageSize location

/-- Sources lie outside all trampoline pages there have been and will be, and nobody but these threads writes
    memory. -/
def Admissible (platform : Platform) (self : Concurrent) : Move → Prop
  | .create _ | .drop _ | .advance _ => True
  | .prepare _ oracle preparation =>
      (∀ base ∈ self.mapped, platform.PageApart base preparation.source) ∧
        ∀ candidate base, oracle.mapMut candidate = .ok base →
          platform.PageApart base preparation.source ∧ ∀ range, self.IsSource range → platform.PageApart base range
  | .install _ environment => environment.Unraced

theorem admissible_unmapped {platform : Platform} {self : Concurrent} {oracle : MappingOracle} {id : Nat}
    {preparation : Preparation} (bare : self.mapped = [])
    (full : ∀ candidate base, oracle.mapMut candidate ≠ .ok base) :
    Admissible platform self (.prepare id oracle preparation) :=
  ⟨by simp [bare], fun candidate base mapped => absurd mapped (full candidate base)⟩

def machine (platform : Platform) (memory : ProcessMemory) : Machine Concurrent Move where
  initial self := ∃ protection, self = initial memory protection
  admits := Admissible platform
  next := step platform

end Concurrent

end Patchy
