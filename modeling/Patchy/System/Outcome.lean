import Patchy.System.Permanence

set_option autoImplicit false

namespace Patchy

namespace System

theorem faultFree_refusal {platform : Platform} {memory : ProcessMemory} {system : System}
    (invariant : Invariant platform memory system) {environment : InstallEnvironment}
    (faultFree : environment.FaultFree) (unraced : environment.Unraced) {id : Nat} {session : PatchSession}
    (live : system.sessions id = some session) {failure : Failure}
    (refusal : PatchSession.Refusal platform environment session system.process failure) :
    PatchSession.ensurePatchesDoNotOverlapInstalled system.process.permanentPatchSets session.pending =
      .error failure := by
  rcases PatchSession.refusal_of_faultFree faultFree (invariant.sessions id session live).patches refusal with
    found | ⟨clear, found⟩
  · exact found
  · rw [unraced, or_self, snapshots_valid invariant live clear] at found
    contradiction

/-- Installing succeeds exactly while no pending range has been recorded by anyone, whenever the
    session was prepared, and otherwise reports two ranges that share a byte. -/
theorem install_ok_iff (platform : Platform) (memory : ProcessMemory) (system : System)
    (reachable : (machine platform memory).Reachable system) (environment : InstallEnvironment)
    (faultFree : environment.FaultFree) (unraced : environment.Unraced) (id : Nat) (session : PatchSession)
    (live : system.sessions id = some session) :
    let outcome := (system.step platform (.installPermanently id environment)).1
    (outcome = .installed (.ok ()) ↔ ∀ patch ∈ session.pending, ∀ record ∈ system.recorded,
        ∀ location, record.Covers location → ¬ patch.installed.Covers location) ∧
      (outcome = .installed (.ok ()) ∨ ∃ record ∈ system.recorded, ∃ patch ∈ session.pending,
        outcome = .installed (.err (.overlappingPatch record.address patch.address)) ∧
          ∃ location, record.Covers location ∧ patch.installed.Covers location) ∧
      ∀ address, outcome ≠ .installed (.err (.sourceChanged address)) := by
  intro outcome
  have invariant := reachable_invariant reachable
  have formed := invariant.sessions id session live
  have registered := recorded_formed invariant
  rcases ran : (session.installPermanently platform environment).exec system.process with ⟨result, process⟩
  have answer : outcome = .installed result := by simp [outcome, step, live, ran]
  -- Ranges that are not empty and do not wrap are apart exactly if they share no byte.
  have shares {record : InstalledPatch} {patch : PendingPatch} (member : record ∈ system.recorded)
      (pending : patch ∈ session.pending) :
      record.Apart patch.installed ↔ ∀ location, record.Covers location → ¬ patch.installed.Covers location :=
    InstalledPatch.apart_iff (registered record member) (formed.patches patch pending).range
  rw [answer]
  rcases PatchSession.ensurePatchesDoNotOverlapInstalled_cases registered formed.patches with
    ⟨clear, apart⟩ | ⟨patch, pending, record, member, overlap, reported⟩
  -- Apart from everything recorded the snapshots are still true, so nothing is left that could fail.
  · have valid := snapshots_valid invariant live clear
    obtain ⟨succeeded, -⟩ := @PatchSession.install_ok platform environment faultFree session system.process
      formed.patches clear valid ((unraced _).symm ▸ valid)
    obtain rfl : result = .ok () := by rw [← succeeded, ran]
    refine ⟨?_, Or.inl rfl, by simp⟩
    simp only [true_iff]
    exact fun patch pending record member => (shares member pending).mp (apart patch pending record member)
  · have failed : result = Result.err (.overlappingPatch record.address patch.address) := by
      rcases PatchSession.install_cases ran with ⟨failure, same, refusal, -⟩ | ⟨installed, -⟩
      · have refused := faultFree_refusal invariant faultFree unraced live refusal
        rw [reported] at refused
        rw [same, ← refused]
      · rw [installed.clear] at reported
        contradiction
    subst failed
    have common : ∃ location, record.Covers location ∧ patch.installed.Covers location := by
      by_contra nowhere
      push Not at nowhere
      exact overlap ((shares member pending).mpr nowhere)
    refine ⟨?_, Or.inr ⟨record, member, patch, pending, rfl, common⟩, by simp⟩
    obtain ⟨location, recorded, here⟩ := common
    constructor
    · intro impossible
      exact absurd impossible (by simp)
    · exact fun clear => absurd here (clear patch pending record member location recorded)

-- Two sessions are prepared over a shared byte. Once the first is installed, the second is told of the
-- overlap, although the byte it has read is no longer there.
theorem install_ok_iff_shared :
    let platform : Platform := ⟨0x1000, 0x10000, by decide, by decide⟩
    let oracle : MappingOracle := ⟨fun _ => .ok (), fun _ => .error "no memory"⟩
    let operations : List Operation :=
      [.create 0, .prepare 0 oracle (.overwrite 0x1000 [0xC3, 0xC3]), .create 1,
        .prepare 1 oracle (.overwrite 0x1001 [0xCC])]
    let prepared := operations.foldl (fun system operation => (system.step platform operation).2)
      (initial (fun _ => 0x90) fun _ => 0x20)
    let first := prepared.step platform (.installPermanently 0 .calm)
    first.1 = .installed (.ok ()) ∧
      first.2.sessions 1 = some ⟨[], [⟨0x1001, [0x90], [0xCC]⟩]⟩ ∧ first.2.process.memory 0x1001 = 0xC3 ∧
      (first.2.step platform (.installPermanently 1 .calm)).1 =
        .installed (.err (.overlappingPatch 0x1000 0x1001)) := by
  intro platform oracle operations prepared first
  have reachable := modest_reachable platform (fun _ => 0x90) (fun _ => 0x20) operations
    (by simp [operations, Modest, oracle])
  obtain ⟨-, registry, -, sessions, -, memory⟩ := @Invariant.install_ok platform _ prepared
    (reachable_invariant reachable) .calm InstallEnvironment.calm_faultFree (fun _ => rfl) 0
    ⟨[], [⟨0x1000, [0x90, 0x90], [0xC3, 0xC3]⟩]⟩ rfl rfl
  have recorded : first.2.recorded = [⟨0x1000, 2⟩] := by
    rw [System.recorded, registry]
    rfl
  have live : first.2.sessions 1 = some ⟨[], [⟨0x1001, [0x90], [0xCC]⟩]⟩ := by
    rw [sessions]
    rfl
  obtain ⟨succeeds, -, -⟩ := install_ok_iff platform (fun _ => 0x90) prepared reachable .calm
    InstallEnvironment.calm_faultFree (fun _ => rfl) 0 _ rfl
  obtain ⟨alone, refused | ⟨record, member, patch, pending, told, -⟩, -⟩ := install_ok_iff platform (fun _ => 0x90)
    first.2 (reachable.leads (install_leads prepared 0 fun _ => rfl)) .calm InstallEnvironment.calm_faultFree
    (fun _ => rfl) 1 _ live
  · exact absurd ⟨Nat.le_refl _, by decide⟩
      (alone.mp refused ⟨0x1001, [0x90], [0xCC]⟩ (by simp) ⟨0x1000, 2⟩ (by simp [recorded]) 0x1001
        ⟨by decide, by decide⟩)
  · rw [recorded, List.mem_singleton] at member
    obtain rfl := List.mem_singleton.mp pending
    subst member
    refine ⟨succeeds.mpr fun _ _ record none => absurd none List.not_mem_nil, live, ?_, told⟩
    rw [memory]
    rfl

end System

end Patchy
