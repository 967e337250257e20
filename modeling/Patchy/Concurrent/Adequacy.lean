import Patchy.Concurrent.Model
import Patchy.Session.Protection

set_option autoImplicit false

namespace Patchy

namespace Point

variable (platform : Platform) (environment : InstallEnvironment) (self : PatchSession)

/-! What an installation still has to do, in the words of `installPermanently`. -/

def restoreRest (rest : List SourceProtection) (firstError : Option PatchError) (exit : Exit) : ProcessM Unit := do
  let protectionError ← PatchSession.restoreLoop environment rest firstError
  Procedure.ofExcept (exit.result protectionError)

def flushRest (protections : List SourceProtection) : ProcessM Unit := do
  let instructionCacheResult ←
    Procedure.attempt (PatchSession.flushAll environment.flushPatch 0 (self.pending.map (·.address)))
  restoreRest environment protections.reverse none (.installed instructionCacheResult)

def copyRest (rest : List PendingPatch) (protections : List SourceProtection) : ProcessM Unit := do
  PatchSession.copyReplacements rest
  flushRest environment self protections

def recordRest (executablePages : List Nat) (protections : List SourceProtection) : ProcessM Unit := do
  modify fun process =>
    { process with
      permanentPatchSets := process.permanentPatchSets ++
        [⟨executablePages, self.pending.map fun patch => ⟨patch.address, patch.replacement.length⟩⟩] }
  copyRest environment self self.pending protections

def revalidateRest (executablePages : List Nat) (protections : List SourceProtection) : ProcessM Unit := do
  match PatchSession.validatePatchSources (← get).memory self.pending with
  | .error failure => restoreRest environment protections.reverse none (.failed failure)
  | .ok () => recordRest environment self executablePages protections

def protectRest (executablePages rest : List Nat) (protections : List SourceProtection) : ProcessM Unit := do
  let protections ← PatchSession.protectLoop environment rest protections
  revalidateRest environment self executablePages protections

def collectRest (executablePages : List Nat) : ProcessM Unit := do
  let pages ← Procedure.ofExcept (PatchSession.sourcePages platform self.pending ∅)
  protectRest environment self executablePages (pages.sort (· ≤ ·)) []

def validateRest (executablePages : List Nat) : ProcessM Unit := do
  Procedure.ofExcept (PatchSession.validatePatchSources (← get).memory self.pending)
  collectRest platform environment self executablePages

def checkRest (executablePages : List Nat) : ProcessM Unit := do
  Procedure.ofExcept
    (PatchSession.ensurePatchesDoNotOverlapInstalled (← get).permanentPatchSets self.pending)
  validateRest platform environment self executablePages

def rest : Point → ProcessM Unit
  | .sealing => do
      let executablePages ← PatchSession.sealPages environment 0 self.pages
      PatchSession.flushAll environment.flushPage 0 executablePages
      checkRest platform environment self executablePages
  | .waiting executablePages | .checking executablePages => checkRest platform environment self executablePages
  | .validating executablePages => validateRest platform environment self executablePages
  | .collecting executablePages => collectRest platform environment self executablePages
  | .protecting executablePages rest protections => protectRest environment self executablePages rest protections
  | .revalidating executablePages protections => revalidateRest environment self executablePages protections
  | .recording executablePages protections => recordRest environment self executablePages protections
  | .copying rest protections => copyRest environment self rest protections
  | .flushing protections => flushRest environment self protections
  | .restoring rest firstError exit => restoreRest environment rest firstError exit
  | .finished result => Procedure.ofExcept result

variable {platform environment self}

theorem restoreRest_failed (protections : List SourceProtection) (failure : Failure) :
    (do PatchSession.restorePatchSources environment protections; throw failure : ProcessM Unit) =
      restoreRest environment protections.reverse none (.failed failure) := by
  simp only [PatchSession.restorePatchSources, restoreRest, bind_assoc]
  congr 1
  funext found
  cases found <;> rfl

theorem flushRest_installed (protections : List SourceProtection) :
    (do
      let instructionCacheResult ←
        Procedure.attempt (PatchSession.flushAll environment.flushPatch 0 (self.pending.map (·.address)))
      let protectionResult ← Procedure.attempt (PatchSession.restorePatchSources environment protections)
      Procedure.ofExcept instructionCacheResult
      Procedure.ofExcept protectionResult : ProcessM Unit) = flushRest environment self protections := by
  rw [flushRest]
  congr 1
  funext flushed process
  obtain ⟨found, restored⟩ := PatchSession.restoreLoop_exec environment protections.reverse none process
  change Procedure.exec _ process = Procedure.exec _ process
  simp only [PatchSession.restorePatchSources, Procedure.exec_bind, Procedure.exec_attempt, restored]
  cases flushed <;> cases found <;> rfl

theorem rest_sealing (unraced : environment.Unraced) :
    rest platform environment self .sealing = self.installPermanently platform environment := by
  have nothing : (modify fun process => { process with memory := environment.race process.memory } : ProcessM PUnit) =
      pure ⟨⟩ := by
    funext process
    exact congrArg (fun memory => ((.ok ⟨⟩ : Result PUnit), { process with memory := memory })) (unraced process.memory)
  simp only [rest, PatchSession.installPermanently, checkRest, validateRest, collectRest, protectRest,
    PatchSession.protectPatchSources, bind_assoc, nothing, pure_bind, restoreRest_failed, flushRest_installed]
  rfl

/-- A step of an installation does no more and no less than the first part of what is left to do. -/
theorem rest_advance (point : Point) (process : Process) :
    (rest platform environment self (point.advance platform environment self process).1).exec
        (point.advance platform environment self process).2 =
      (rest platform environment self point).exec process := by
  cases point with
  | sealing =>
    have sealed := PatchSession.sealPages_readOnly environment 0 self.pages process
    rcases ran : (PatchSession.sealPages environment 0 self.pages).exec process with ⟨failure | pages, middle⟩
    · obtain rfl : middle = process := by rwa [ran] at sealed
      simp [advance, rest, Procedure.exec_bind, ran]
    · obtain rfl : middle = process := by rwa [ran] at sealed
      have flushed := PatchSession.flushAll_readOnly environment.flushPage 0 pages middle
      rcases flush : (PatchSession.flushAll environment.flushPage 0 pages).exec middle with ⟨failure | done, last⟩
      · obtain rfl : last = middle := by rwa [flush] at flushed
        simp [advance, rest, Procedure.exec_bind, ran, flush]
      · obtain rfl : last = middle := by rwa [flush] at flushed
        simp [advance, rest, Procedure.exec_bind, ran, flush]
  | waiting pages => rfl
  | checking pages =>
    cases checked : PatchSession.ensurePatchesDoNotOverlapInstalled process.permanentPatchSets self.pending <;>
      simp [advance, rest, checkRest, Procedure.exec_bind, checked]
  | validating pages =>
    cases validated : PatchSession.validatePatchSources process.memory self.pending <;>
      simp [advance, rest, validateRest, Procedure.exec_bind, validated]
  | collecting pages =>
    cases collected : PatchSession.sourcePages platform self.pending ∅ <;>
      simp [advance, rest, collectRest, Procedure.exec_bind, collected]
  | protecting pages left protections =>
    cases left with
    | nil => rfl
    | cons address left =>
      rcases called : (PatchSession.virtualProtect environment.protect .protect address pageExecuteReadWrite).exec
        process with ⟨failure | error | old, middle⟩
      · simp [advance, rest, protectRest, PatchSession.protectLoop, Procedure.exec_bind, called]
      -- A page that cannot be opened: those that have been opened before are restored, and its error is the one
      -- reported.
      · have failed := @restoreRest_failed environment protections
          (.error (.protection address error))
        simp only [advance, rest, called, ← failed]
        simp only [protectRest, PatchSession.protectLoop, Procedure.exec_bind, called]
        split <;> simp
      · simp [advance, rest, protectRest, PatchSession.protectLoop, Procedure.exec_bind, called]
  | revalidating pages protections =>
    cases validated : PatchSession.validatePatchSources process.memory self.pending <;>
      simp [advance, rest, revalidateRest, Procedure.exec_bind, validated]
  | recording pages protections => rfl
  | copying left protections => cases left <;> rfl
  | flushing protections =>
    have flushed := PatchSession.flushAll_readOnly environment.flushPatch 0 (self.pending.map (·.address)) process
    simp [advance, rest, flushRest, Procedure.exec_bind, flushed]
  | restoring left firstError exit =>
    cases left with
    | nil => rfl
    | cons protection left =>
      rcases called : (PatchSession.virtualProtect environment.restore .restore protection.address protection.old).exec
        process with ⟨failure | error | old, middle⟩ <;>
        simp [advance, rest, restoreRest, PatchSession.restoreLoop, Procedure.exec_bind, called]
  | finished result => rfl

def remaining : Point → Nat × Nat
  | .sealing => (11, 0)
  | .waiting _ => (10, 0)
  | .checking _ => (9, 0)
  | .validating _ => (8, 0)
  | .collecting _ => (7, 0)
  | .protecting _ left _ => (6, left.length)
  | .revalidating _ _ => (5, 0)
  | .recording _ _ => (4, 0)
  | .copying left _ => (3, left.length)
  | .flushing _ => (2, 0)
  | .restoring left _ _ => (1, left.length)
  | .finished _ => (0, 0)

theorem advance_remaining (point : Point) (unfinished : ∀ result, point ≠ .finished result) (process : Process) :
    Prod.Lex (· < ·) (· < ·) (point.advance platform environment self process).1.remaining point.remaining := by
  cases point with
  | protecting pages left protections =>
    cases left <;> simp only [advance] <;> (try split) <;> simp [remaining, Prod.lex_def]
  | copying left protections => cases left <;> simp [advance, remaining, Prod.lex_def]
  | restoring left firstError exit =>
    cases left <;> simp only [advance] <;> (try split) <;> simp [remaining, Prod.lex_def]
  | finished result => exact absurd rfl (unfinished result)
  | _ =>
    simp only [advance]
    repeat' split
    all_goals simp [remaining, Prod.lex_def]

theorem rest_induction {motive : Point → Process → Result Unit × Process → Prop}
    (done : ∀ result process, motive (.finished result) process (result, process))
    (back : ∀ point process, (∀ result, point ≠ .finished result) →
      motive (point.advance platform environment self process).1 (point.advance platform environment self process).2
        ((rest platform environment self point).exec process) →
      motive point process ((rest platform environment self point).exec process)) (point : Point) (process : Process) :
    motive point process ((rest platform environment self point).exec process) := by
  have wellFounded : WellFounded (Prod.Lex (· < · : Nat → Nat → Prop) (· < · : Nat → Nat → Prop)) :=
    WellFounded.prod_lex wellFounded_lt wellFounded_lt
  -- Induction on the stages that are left, and on what is left to do in the present one.
  induction measured : point.remaining using wellFounded.induction generalizing point process with
  | _ measure ih =>
    subst measured
    by_cases unfinished : ∀ result, point ≠ .finished result
    · have later := ih _ (@advance_remaining platform environment self point unfinished process) _
        (point.advance platform environment self process).2 rfl
      rw [rest_advance] at later
      exact back point process unfinished later
    · push Not at unfinished
      obtain ⟨result, rfl⟩ := unfinished
      exact done result process

end Point

end Patchy
