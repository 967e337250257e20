import Mathlib.Logic.Function.Basic
import Patchy.Session.Pages
import Patchy.Session.Linking
import Patchy.Shared.Machine

set_option autoImplicit false

namespace Patchy

/-- A process with its permanent registry and any number of live sessions. `batches` and `mapped` only
    observe it: the batches recorded so far, and the bases of all trampoline pages there have been. -/
structure System where
  process : Process
  sessions : Nat → Option PatchSession
  batches : List (List PendingPatch)
  mapped : List Nat

inductive Operation where
  | create (id : Nat)
  | prepare (id : Nat) (oracle : MappingOracle) (preparation : Preparation)
  | drop (id : Nat)
  | installPermanently (id : Nat) (environment : InstallEnvironment)

inductive Outcome where
  | done
  | prepared (result : Result Patch)
  | installed (result : Result Unit)

namespace System

def initial (memory : ProcessMemory) (protection : Nat → Nat) : System :=
  ⟨⟨memory, protection, [], []⟩, fun _ => none, [], []⟩

def setSession (self : System) (id : Nat) (session : Option PatchSession) : System :=
  { self with sessions := Function.update self.sessions id session }

def afterPreparation (self : System) (id : Nat) (session : PatchSession) (workspace : Workspace) : System :=
  { self.setSession id (some workspace.session) with
    process := { self.process with memory := workspace.memory }
    mapped := self.mapped ++ workspace.session.bases.drop session.bases.length }

def afterInstallation (self : System) (id : Nat) (session : PatchSession) (process : Process) : System :=
  { self.setSession id none with
    process := process
    batches :=
      if process.permanentPatchSets.length = self.process.permanentPatchSets.length then self.batches
      else self.batches ++ [session.pending] }

-- An operation on a session that does not exist cannot be written in Rust; here it does nothing.
def step (platform : Platform) (self : System) : Operation → Outcome × System
  | .create id =>
      match self.sessions id with
      | some _ => (.done, self)
      | none => (.done, self.setSession id (some PatchSession.new))
  | .prepare id oracle preparation =>
      match self.sessions id with
      | none => (.done, self)
      | some session =>
          let ran := (preparation.run platform oracle).exec ⟨session, self.process.memory⟩
          (.prepared ran.1, self.afterPreparation id session ran.2)
  | .drop id => (.done, self.setSession id none)
  | .installPermanently id environment =>
      match self.sessions id with
      | none => (.done, self)
      | some session =>
          let ran := (session.installPermanently platform environment).exec self.process
          (.installed ran.1, self.afterInstallation id session ran.2)

def recorded (self : System) : List InstalledPatch := self.process.permanentPatchSets.flatMap (·.patches)

def committed (self : System) : List PendingPatch := self.batches.flatten

def Mapped (self : System) (base : Nat) : Prop :=
  (∃ id session, self.sessions id = some session ∧ base ∈ session.bases) ∨
    ∃ set ∈ self.process.permanentPatchSets, base ∈ set.pages

def IsSource (self : System) (range : InstalledPatch) : Prop :=
  range ∈ self.recorded ∨
    ∃ id session, self.sessions id = some session ∧ ∃ patch ∈ session.pending, patch.installed = range

end System

def InstallEnvironment.Unraced (environment : InstallEnvironment) : Prop :=
  ∀ memory, environment.race memory = memory

namespace System

/-- Sources lie outside trampoline pages, old and new, and nobody else writes memory. -/
def Admissible (platform : Platform) (self : System) : Operation → Prop
  | .create _ | .drop _ => True
  | .prepare _ oracle preparation =>
      (∀ base, self.Mapped base → platform.PageApart base preparation.source) ∧
        ∀ candidate base, oracle.mapMut candidate = .ok base →
          platform.PageApart base preparation.source ∧ ∀ range, self.IsSource range → platform.PageApart base range
  | .installPermanently _ environment => environment.Unraced

def machine (platform : Platform) (memory : ProcessMemory) : Machine System Operation where
  initial self := ∃ protection, self = initial memory protection
  admits := Admissible platform
  next self operation := (self.step platform operation).2

end System

end Patchy
