import Patchy.Ffi.Native
import Patchy.Session.Commit

set_option autoImplicit false

namespace Patchy.Ffi

open PatchSession

section

variable {platform : Platform} {environment : InstallEnvironment} {abi : Abi} {address : Nat} {session : PatchSession}
  {result : Result Unit} {after : Process}

theorem install_exec (nonnull : address ≠ 0) (live : abi.handles address = some (.session session))
    (run : (installPermanently platform environment session).exec abi.process = (result, after)) :
    (AbiCall.operation platform (.sessionInstallPermanently environment .valid address)).exec
        ⟨abi.process, abi.handles, none⟩ =
      (result.mapError .ofFailure, ⟨after, Function.update abi.handles address none, some 0⟩) := by
  simp only [AbiCall.operation, sessionInstall, requireSession, nonnull, if_false, Procedure.exec_bind,
    Procedure.exec_get, live, Procedure.exec_pure, writeOutput, setHandle, Procedure.exec_modify, run, ofResult,
    Procedure.exec_ofExcept]

theorem install_answers (nonnull : address ≠ 0) (live : abi.handles address = some (.session session))
    (run : (installPermanently platform environment session).exec abi.process = (result, after)) (thread : Nat) :
    let answered := abi.call platform thread (.sessionInstallPermanently environment .valid address)
    answered.1.status = .ofResult (result.map fun _ => none) ∧ answered.2.process = after := by
  have exec := install_exec nonnull live run
  rcases result with (error | ⟨⟩) | done <;>
    simp [Abi.call, ffiCall, exec, Except.mapError, Except.map, FfiFailure.ofFailure, FfiError.ofPatchError,
      PatchyStatus.ofResult, PatchyStatus.ofFailure]

end

/-- An error of an installation means that nothing was installed, unless one of the two steps behind
    the commit point failed: then everything was. C is told which error it was. -/
theorem install_error_cases (platform : Platform) (environment : InstallEnvironment) :
    (∀ session before failure after,
      (installPermanently platform environment session).exec before = (.error failure, after) →
        Uninstalled environment before after ∨
          Installed environment session before after ∧ LateFailure platform environment session failure) ∧
      ∀ (abi : Abi) thread pointer address,
        (AbiCall.sessionInstallPermanently environment pointer address).Contract abi.handles →
        let answered := abi.call platform thread (.sessionInstallPermanently environment pointer address)
        answered.1.status ≠ .ok →
          (answered.1.status = .invalidArgument ∧ answered.2.process = abi.process) ∨
            ∃ session failure, abi.handles address = some (.session session) ∧
              (installPermanently platform environment session).exec abi.process =
                (.error failure, answered.2.process) ∧
              answered.1.status = .ofFailure failure ∧
              (Uninstalled environment abi.process answered.2.process ∨
                Installed environment session abi.process answered.2.process ∧
                  LateFailure platform environment session failure) := by
  have core (session : PatchSession) (before : Process) (failure : Failure) (after : Process)
      (run : (installPermanently platform environment session).exec before = (.error failure, after)) :
      Uninstalled environment before after ∨
        Installed environment session before after ∧ LateFailure platform environment session failure := by
    rcases install_cases run with ⟨_, -, -, refused⟩ | ⟨installed, impossible | ⟨_, reason, late⟩⟩
    · exact Or.inl refused
    · contradiction
    · obtain rfl := Except.error.inj reason
      exact Or.inr ⟨installed, late⟩
  refine ⟨core, ?_⟩
  intro abi thread pointer address contract answered failed
  cases pointer with
  | null => exact Or.inl ⟨rfl, rfl⟩
  | valid =>
    by_cases null : address = 0
    · subst null
      exact Or.inl ⟨rfl, rfl⟩
    · obtain ⟨session, live⟩ := contract.resolve_left null
      rcases run : (installPermanently platform environment session).exec abi.process with ⟨result, after⟩
      obtain ⟨status, process⟩ := install_answers null live run thread
      cases result with
      | ok done => exact absurd status failed
      | error failure =>
        rw [← process] at run
        exact Or.inr ⟨session, failure, live, run, status, core session _ failure _ run⟩

-- A page cannot be opened, or the cache not be flushed: only in the second case the byte has been replaced.
theorem install_error_cases_denied :
    let platform : Platform := ⟨0x1000, 0x10000, by decide, by decide⟩
    let start := Abi.initial (fun _ => 0x90) (fun _ => 0x20) fun _ _ => none
    let created := (start.call platform 0 (.sessionCreate .valid 0x7000)).2
    let prepared := (created.call platform 0 (.sessionOverwrite 0x7000 0x1000 (some fun _ => 0xC3) 1)).2
    let unopened := prepared.call platform 0 (.sessionInstallPermanently
      { InstallEnvironment.calm with protect := fun _ => some "denied" } .valid 0x7000)
    let unflushed := prepared.call platform 0 (.sessionInstallPermanently
      { InstallEnvironment.calm with flushPatch := fun _ => some "denied" } .valid 0x7000)
    unopened.1.status = .protectionFailed ∧ unopened.2.process.memory 0x1000 = 0x90 ∧
      unopened.2.process.permanentPatchSets = [] ∧ unflushed.1.status = .instructionCacheFailed ∧
      unflushed.2.process.memory 0x1000 = 0xC3 ∧
      unflushed.2.process.permanentPatchSets = [⟨[], [⟨0x1000, 1⟩]⟩] := by
  intro platform start created prepared unopened unflushed
  have live : prepared.handles 0x7000 = some (.session ⟨[], [⟨0x1000, [0x90], [0xC3]⟩]⟩) := by rfl
  have denied : unopened.1.status = .protectionFailed := by decide +kernel
  have late : unflushed.1.status = .instructionCacheFailed := by decide +kernel
  have recorded : unflushed.2.process.permanentPatchSets = [⟨[], [⟨0x1000, 1⟩]⟩] := by decide +kernel
  have cases := (install_error_cases platform _).2 prepared 0 .valid 0x7000 (Or.inr ⟨_, live⟩)
    (show unopened.1.status ≠ .ok by rw [denied]; decide)
  have others := (install_error_cases platform _).2 prepared 0 .valid 0x7000 (Or.inr ⟨_, live⟩)
    (show unflushed.1.status ≠ .ok by rw [late]; decide)
  obtain ⟨_, _, -, -, -, nothing | ⟨-, ⟨-, impossible⟩ | ⟨-, impossible⟩⟩⟩ :=
    cases.resolve_left fun wrong => absurd (denied.symm.trans wrong.1) (by decide)
  · obtain ⟨_, _, found, -, -, untouched | ⟨everything, -⟩⟩ :=
      others.resolve_left fun wrong => absurd (late.symm.trans wrong.1) (by decide)
    · exact absurd (recorded.symm.trans untouched.registry) (by decide)
    · obtain rfl := Handle.session.inj (Option.some.inj (live.symm.trans found))
      exact ⟨denied, congrFun (nothing.memory.elim id id) 0x1000, nothing.registry, late,
        congrFun everything.memory 0x1000, recorded⟩
  · contradiction
  · contradiction

-- The source byte is replaced and recorded although the cache flush of the patch fails.
theorem flush_fails_after_commit :
    let platform : Platform := ⟨0x1000, 0x10000, by decide, by decide⟩
    let environment : InstallEnvironment :=
      ⟨fun _ => none, fun _ => none, fun _ => none, id, fun _ => some "denied", fun _ => none⟩
    let memory : ProcessMemory := fun _ => 0x90
    let prepared := (PatchSession.overwrite 0x1000 [0xC3]).exec ⟨.new, memory⟩
    let installed := (prepared.2.session.installPermanently platform environment).exec
      ⟨memory, fun _ => 0x20, [], []⟩
    prepared.1 = .ok ⟨none⟩ ∧ installed.1 = .error (.error (.instructionCache 0x1000 "denied")) ∧
      installed.2.memory 0x1000 = 0xC3 ∧ installed.2.permanentPatchSets = [⟨[], [⟨0x1000, 1⟩]⟩] := by
  intro platform environment memory prepared installed
  exact ⟨rfl, by decide +kernel, by decide +kernel, by decide +kernel⟩

end Patchy.Ffi
