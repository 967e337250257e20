import Patchy.Session.Pages
import Patchy.Session.Preparation
import Patchy.Shared.Machine

set_option autoImplicit false

namespace Patchy

inductive SessionMove where
  | prepare (oracle : MappingOracle) (preparation : Preparation)
  | interfere (memory : ProcessMemory)

inductive RegistryMove where
  | install (session : PatchSession) (environment : InstallEnvironment)
  | interfere (memory : ProcessMemory) (protection : Nat → Nat)

namespace PatchSession

/-- One session at work, with any arguments, while others write memory as they like. -/
def preparing (platform : Platform) : Machine Workspace SessionMove where
  initial workspace := workspace.session = new
  admits _ _ := True
  next workspace
    | .prepare oracle preparation => ((preparation.run platform oracle).exec workspace).2
    | .interfere memory => { workspace with memory := memory }

def installing (platform : Platform) : Machine Process RegistryMove where
  initial process := process.permanentPatchSets = []
  admits _
    | .install session _ => ∃ memory, (preparing platform).Reachable ⟨session, memory⟩
    | .interfere _ _ => True
  next process
    | .install session environment => ((session.installPermanently platform environment).exec process).2
    | .interfere memory protection => { process with memory := memory, protection := protection }

theorem reachable_prepare {platform : Platform} {before : Workspace} (oracle : MappingOracle)
    (preparation : Preparation) (reachable : (preparing platform).Reachable before) :
    (preparing platform).Reachable ((preparation.run platform oracle).exec before).2 :=
  @Machine.Reachable.step _ _ (preparing platform) before (.prepare oracle preparation) reachable trivial

theorem reachable_formed {platform : Platform} {workspace : Workspace}
    (reachable : (preparing platform).Reachable workspace) : workspace.session.WellFormed := by
  refine reachable.invariant (fun workspace => workspace.session.WellFormed) ?_ ?_
  · intro workspace initial
    have fresh : workspace.session = new := initial
    rw [fresh]
    exact WellFormed.new
  · intro workspace move formed _
    cases move with
    | interfere memory => exact formed
    | prepare oracle preparation =>
      change ((preparation.run platform oracle).exec workspace).2.session.WellFormed
      rcases preparation_cases platform oracle preparation workspace with
        ⟨failure, ran⟩ | ⟨patch, after, ran, prepared⟩
      · rwa [ran]
      · rw [ran]
        exact prepared.frame.formed formed

def RegistryFormed (process : Process) : Prop :=
  ∀ record ∈ process.permanentPatchSets.flatMap (·.patches), record.WellFormed

theorem install_registryFormed {platform : Platform} {environment : InstallEnvironment} {session : PatchSession}
    {before after : Process} {result : Result Unit} (formed : session.WellFormed) (registry : RegistryFormed before)
    (run : (session.installPermanently platform environment).exec before = (result, after)) :
    RegistryFormed after := by
  rcases install_cases run with ⟨failure, -, -, uninstalled⟩ | ⟨installed, -⟩
  · rwa [RegistryFormed, uninstalled.registry]
  · rw [RegistryFormed, installed.registry, List.flatMap_append]
    intro record member
    rcases List.mem_append.mp member with earlier | new
    · exact registry record earlier
    · simp only [List.flatMap_singleton, permanentPatchSet, List.mem_map] at new
      obtain ⟨patch, pending, rfl⟩ := new
      exact (formed.patches patch pending).range

theorem reachable_registry {platform : Platform} {process : Process}
    (reachable : (installing platform).Reachable process) : RegistryFormed process := by
  refine reachable.invariant RegistryFormed ?_ ?_
  · intro process initial
    have empty : process.permanentPatchSets = [] := initial
    simp [RegistryFormed, empty]
  · intro process move registry admitted
    cases move with
    | interfere memory protection => exact registry
    | install session environment =>
      obtain ⟨memory, prepared⟩ := admitted
      exact install_registryFormed (reachable_formed prepared) registry (Prod.mk.eta).symm

def Benign (failure : Failure) : Prop := failure ≠ .panic ∧ failure ≠ .error .addressOverflow

theorem validatePatchSources_error {memory : ProcessMemory} {pending : List PendingPatch} {failure : Failure}
    (failed : validatePatchSources memory pending = .error failure) :
    ∃ patch ∈ pending, failure = .error (.sourceChanged patch.address) := by
  induction pending with
  | nil => contradiction
  | cons patch rest ih =>
    simp only [validatePatchSources] at failed
    split at failed
    · exact ⟨patch, List.mem_cons_self, (Except.error.inj failed).symm⟩
    · obtain ⟨other, member, same⟩ := ih failed
      exact ⟨other, List.mem_cons_of_mem patch member, same⟩

theorem overlap_benign {session : PatchSession} {process : Process} {failure : Failure} (formed : session.WellFormed)
    (registry : RegistryFormed process)
    (found : ensurePatchesDoNotOverlapInstalled process.permanentPatchSets session.pending = .error failure) :
    Benign failure := by
  rcases ensurePatchesDoNotOverlapInstalled_cases registry formed.patches with
    ⟨clear, -⟩ | ⟨patch, -, record, -, -, reported⟩
  · rw [clear] at found
    contradiction
  · obtain rfl := Except.error.inj (reported.symm.trans found)
    simp [Benign]

theorem install_benign {platform : Platform} {environment : InstallEnvironment} {session : PatchSession}
    {before after : Process} {failure : Failure} (formed : session.WellFormed) (registry : RegistryFormed before)
    (run : (session.installPermanently platform environment).exec before = (.error failure, after)) :
    Benign failure := by
  rcases install_cases run with ⟨reason, same, refusal, -⟩ | ⟨-, done | ⟨reason, same, late⟩⟩
  · obtain rfl := Except.error.inj same
    cases refusal with
    | overlap found => exact overlap_benign formed registry found
    | changed _ found | raced _ found =>
      obtain ⟨patch, -, rfl⟩ := validatePatchSources_error found
      simp [Benign]
    | pages found =>
      obtain ⟨pages, covered, -⟩ := @sourcePages_ok platform session.pending ∅ formed.patches
      rw [covered] at found
      contradiction
    | _ => simp [Benign]
  · contradiction
  · obtain rfl := Except.error.inj same
    cases late <;> simp [Benign]

theorem overwrite_answer (address : Nat) (data : List Byte) (before : Workspace) :
    ((overwrite address data).exec before).1 =
      (before.session.ensurePatchDoesNotOverlap address data.length).map fun _ => ⟨none⟩ := by
  rw [overwrite_exec]
  cases before.session.ensurePatchDoesNotOverlap address data.length <;> rfl

theorem validatePatchSources_bytes {session : PatchSession} (formed : session.WellFormed) (memory : ProcessMemory) :
    validatePatchSources memory session.pending = .ok () ↔
      ∀ patch ∈ session.pending, ∀ index < patch.replacement.length,
        patch.expected[index]? = some (memory (patch.address + index)) := by
  rw [validatePatchSources_ok_iff]
  refine forall₂_congr fun patch pending => ?_
  rw [Memory.readAt_eq_iff, ← (formed.patches patch pending).sized]
  refine forall₂_congr fun index within => ?_
  rw [List.getElem?_eq_getElem within, Option.some.injEq]
  exact eq_comm

theorem overwrite_ok_iff {workspace : Workspace} (formed : workspace.session.WellFormed) (address : Nat)
    (data : List Byte) :
    (∃ patch, ((overwrite address data).exec workspace).1 = .ok patch) ↔
      data ≠ [] ∧ address + data.length ≤ usizeMax ∧ ∀ patch ∈ workspace.session.pending, ∀ location,
        patch.installed.Covers location → ¬ Memory.Inside address data.length location := by
  have accepted : (∃ patch, ((overwrite address data).exec workspace).1 = .ok patch) ↔
      workspace.session.ensurePatchDoesNotOverlap address data.length = .ok () := by
    rw [overwrite_answer]
    cases workspace.session.ensurePatchDoesNotOverlap address data.length <;> simp [Except.map]
  have apart (range : InstalledPatch.WellFormed ⟨address, data.length⟩) {patch : PendingPatch}
      (pending : patch ∈ workspace.session.pending) :=
    InstalledPatch.apart_iff (formed.patches patch pending).range range
  rw [accepted, ensurePatchDoesNotOverlap_ok_iff formed]
  constructor
  · rintro ⟨range, clear⟩
    refine ⟨List.ne_nil_of_length_pos range.nonempty, range.bounded, fun patch pending => ?_⟩
    exact (apart range pending).mp (clear patch pending)
  · rintro ⟨nonempty, bounded, clear⟩
    have range : InstalledPatch.WellFormed ⟨address, data.length⟩ := ⟨List.length_pos_of_ne_nil nonempty, bounded⟩
    exact ⟨range, fun patch pending => (apart range pending).mpr (clear patch pending)⟩

theorem overwrite_overlapping {workspace : Workspace} (formed : workspace.session.WellFormed) {address : Nat}
    {data : List Byte} {first second : Nat}
    (reported : ((overwrite address data).exec workspace).1 = .error (.error (.overlappingPatch first second))) :
    second = address ∧ ∃ patch ∈ workspace.session.pending, patch.address = first ∧
      ∃ location, patch.installed.Covers location ∧ Memory.Inside address data.length location := by
  rw [overwrite_answer] at reported
  have answers := ensurePatchDoesNotOverlap_answers formed address data.length
  generalize workspace.session.ensurePatchDoesNotOverlap address data.length = checked at answers reported
  cases answers with
  | accepted => simp [Except.map] at reported
  | empty => simp [Except.map] at reported
  | wraps => simp [Except.map] at reported
  | overlaps range pending overlapping =>
    simp only [Except.map, Except.error.injEq, Failure.error.injEq, PatchError.overlappingPatch.injEq] at reported
    rw [InstalledPatch.apart_iff (formed.patches _ pending).range range] at overlapping
    simp only [not_forall, not_not, exists_prop] at overlapping
    exact ⟨reported.2.symm, _, pending, reported.1, overlapping⟩

/-- What holds of the pending ranges of any session, what that makes of the checks on a further overwrite, and of
    an installation into any registry: it neither panics nor meets an overflow. -/
theorem pending_ranges_sound (platform : Platform) (workspace : Workspace)
    (reachable : (preparing platform).Reachable workspace) :
    let session := workspace.session
    (session.pending.Pairwise fun first second =>
      ∀ location, ¬ (first.installed.Covers location ∧ second.installed.Covers location)) ∧
    (∀ patch ∈ session.pending, 0 < patch.replacement.length ∧
      patch.address + patch.replacement.length ≤ usizeMax ∧ patch.expected.length = patch.replacement.length) ∧
    (∀ address data, let answer := ((overwrite address data).exec workspace).1
      ((∃ patch, answer = .ok patch) ↔ data ≠ [] ∧ address + data.length ≤ usizeMax ∧
        ∀ patch ∈ session.pending, ∀ location, patch.installed.Covers location →
          ¬ Memory.Inside address data.length location) ∧
      ∀ first second, answer = .error (.error (.overlappingPatch first second)) → second = address ∧
        ∃ patch ∈ session.pending, patch.address = first ∧
          ∃ location, patch.installed.Covers location ∧ Memory.Inside address data.length location) ∧
    (∀ process, (installing platform).Reachable process →
      (∀ error, ensurePatchesDoNotOverlapInstalled process.permanentPatchSets session.pending = .error error →
        error ≠ .panic ∧ error ≠ .error .addressOverflow) ∧
      (∃ pages, sourcePages platform session.pending ∅ = .ok pages) ∧
      ∀ environment failure after,
        (session.installPermanently platform environment).exec process = (.error failure, after) →
        failure ≠ .panic ∧ failure ≠ .error .addressOverflow) ∧
    ∀ memory, validatePatchSources memory session.pending = .ok () ↔
      ∀ patch ∈ session.pending, ∀ index < patch.replacement.length,
        patch.expected[index]? = some (memory (patch.address + index)) := by
  intro session
  have formed : session.WellFormed := reachable_formed reachable
  refine ⟨?_, ?_, ?_, ?_, validatePatchSources_bytes formed⟩
  · exact formed.apart.imp fun apart location both => apart.not_covers both.1 both.2
  · intro patch pending
    have wellFormed := formed.patches patch pending
    exact ⟨wellFormed.range.nonempty, wellFormed.range.bounded, wellFormed.sized⟩
  · intro address data answer
    exact ⟨overwrite_ok_iff formed address data, fun first second reported => overwrite_overlapping formed reported⟩
  · intro process reached
    have registry := reachable_registry reached
    obtain ⟨pages, covered, -⟩ := @sourcePages_ok platform session.pending ∅ formed.patches
    refine ⟨fun error found => overlap_benign formed registry found, ⟨pages, covered⟩, ?_⟩
    intro environment failure after run
    exact install_benign formed registry run

-- Behind two pending bytes there is room for a third; across them there is not.
theorem pending_ranges_sound_touching :
    let platform : Platform := ⟨0x1000, 0x10000, by decide, by decide⟩
    let oracle : MappingOracle := ⟨fun _ => .error "", fun _ => .error ""⟩
    let workspace := (((Preparation.overwrite 0x1000 [0xC3, 0xCC]).run platform oracle).exec ⟨new, fun _ => 0x90⟩).2
    ((overwrite 0x1002 [0xCC]).exec workspace).1 = .ok ⟨none⟩ ∧
      ((overwrite 0x1001 [0xCC]).exec workspace).1 = .error (.error (.overlappingPatch 0x1000 0x1001)) ∧
      ∃ patch ∈ workspace.session.pending, patch.address = 0x1000 ∧
        ∃ location, patch.installed.Covers location ∧ Memory.Inside 0x1001 1 location := by
  intro platform oracle workspace
  have reachable : (preparing platform).Reachable workspace :=
    reachable_prepare oracle _ (.start rfl)
  obtain ⟨-, -, overwrites, -⟩ := pending_ranges_sound platform workspace reachable
  have overlapping : ((overwrite 0x1001 [0xCC]).exec workspace).1 =
    .error (.error (.overlappingPatch 0x1000 0x1001)) := rfl
  exact ⟨rfl, overlapping, ((overwrites 0x1001 [0xCC]).2 0x1000 0x1001 overlapping).2⟩

end PatchSession

end Patchy
