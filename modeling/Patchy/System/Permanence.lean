import Patchy.System.Model

set_option autoImplicit false

namespace Patchy

namespace System

/-- Links pending patches, the registry and memory, in every state a run can reach. -/
structure Invariant (platform : Platform) (memory : ProcessMemory) (system : System) : Prop where
  registry : system.process.permanentPatchSets.map (·.patches) =
    system.batches.map (·.map PendingPatch.installed)
  formed : ∀ patch ∈ system.committed, patch.WellFormed
  apart : system.committed.Pairwise fun first second => first.installed.Apart second.installed
  sessions : ∀ id session, system.sessions id = some session → session.WellFormed
  mapped : ∀ id session, system.sessions id = some session → ∀ base ∈ session.bases, base ∈ system.mapped
  pages : ∀ id session, system.sessions id = some session → ∀ base ∈ session.bases,
    ∀ range, system.IsSource range → platform.PageApart base range
  contents : ∀ location, (∃ patch ∈ system.committed, patch.installed.Covers location) ∨
      (∀ base ∈ system.mapped, ¬ Memory.Inside base platform.pageSize location) →
    system.process.memory location = WriteOnce.overlay memory (claims system.committed) location
  snapshots : ∀ id session, system.sessions id = some session → ∀ patch ∈ session.pending,
    ∀ location, patch.installed.Covers location →
      (∀ other ∈ system.committed, ¬ other.installed.Covers location) →
      patch.expected[location - patch.address]? = some (system.process.memory location)

theorem Invariant.recorded {platform : Platform} {memory : ProcessMemory} {system : System}
    (invariant : Invariant platform memory system) :
    system.recorded = system.committed.map PendingPatch.installed := by
  rw [System.recorded, committed, List.flatMap_def, invariant.registry, List.map_flatten]

theorem setSession_sessions {system : System} {id other : Nat} {session : Option PatchSession}
    {found : PatchSession} (live : (system.setSession id session).sessions other = some found) :
    (other = id ∧ session = some found) ∨ (other ≠ id ∧ system.sessions other = some found) := by
  by_cases same : other = id
  · subst same
    exact Or.inl ⟨rfl, by simpa [setSession] using live⟩
  · exact Or.inr ⟨same, by simpa [setSession, same] using live⟩

theorem setSession_mapped {system : System} {id : Nat} {session : Option PatchSession}
    (bare : ∀ found, session = some found → found = PatchSession.new) {base : Nat}
    (mapped : (system.setSession id session).Mapped base) : system.Mapped base := by
  refine mapped.imp_left ?_
  rintro ⟨owner, found, alive, member⟩
  rcases setSession_sessions alive with ⟨-, new⟩ | ⟨-, old⟩
  · rw [bare found new] at member
    exact absurd member List.not_mem_nil
  · exact ⟨owner, found, old, member⟩

theorem initial_invariant (platform : Platform) (memory : ProcessMemory) (protection : Nat → Nat) :
    Invariant platform memory (initial memory protection) where
  registry := rfl
  formed := by simp [initial, committed]
  apart := List.Pairwise.nil
  sessions := by simp [initial]
  mapped := by simp [initial]
  pages := by simp [initial]
  contents location _ := rfl
  snapshots := by simp [initial]

theorem Invariant.forget {platform : Platform} {memory : ProcessMemory} {system : System}
    (invariant : Invariant platform memory system) {id : Nat} {session : Option PatchSession}
    (bare : ∀ found, session = some found → found = PatchSession.new) :
    Invariant platform memory (system.setSession id session) where
  registry := invariant.registry
  formed := invariant.formed
  apart := invariant.apart
  sessions other found live := by
    rcases setSession_sessions live with ⟨-, new⟩ | ⟨-, old⟩
    · rw [bare found new]
      exact PatchSession.WellFormed.new
    · exact invariant.sessions other found old
  mapped other found live base member := by
    rcases setSession_sessions live with ⟨-, new⟩ | ⟨-, old⟩
    · rw [bare found new] at member
      exact absurd member (by simp [PatchSession.new, PatchSession.bases])
    · exact invariant.mapped other found old base member
  pages other found live base member range source := by
    have earlier : system.IsSource range := by
      refine source.imp_right ?_
      rintro ⟨owner, session', live, patch, pending, same⟩
      rcases setSession_sessions live with ⟨-, new⟩ | ⟨-, old⟩
      · rw [bare session' new] at pending
        exact absurd pending (by simp [PatchSession.new])
      · exact ⟨owner, session', old, patch, pending, same⟩
    rcases setSession_sessions live with ⟨-, new⟩ | ⟨-, old⟩
    · rw [bare found new] at member
      exact absurd member (by simp [PatchSession.new, PatchSession.bases])
    · exact invariant.pages other found old base member range earlier
  contents := invariant.contents
  snapshots other found live patch member := by
    rcases setSession_sessions live with ⟨-, new⟩ | ⟨-, old⟩
    · rw [bare found new] at member
      exact absurd member (by simp [PatchSession.new])
    · exact invariant.snapshots other found old patch member

theorem isSource_afterPreparation {platform : Platform} {oracle : MappingOracle} {preparation : Preparation}
    {system : System} {id : Nat} {session : PatchSession} {after : Workspace}
    (live : system.sessions id = some session)
    (frame : PatchSession.PreparedFrame platform oracle preparation ⟨session, system.process.memory⟩ after)
    {range : InstalledPatch} (source : (system.afterPreparation id session after).IsSource range) :
    system.IsSource range ∨ range = preparation.source := by
  rcases source with recorded | ⟨owner, found, alive, patch, pending, same⟩
  · exact Or.inl (Or.inl recorded)
  · rcases setSession_sessions alive with ⟨-, new⟩ | ⟨-, old⟩
    · obtain rfl := Option.some.inj new
      obtain ⟨added, grown, aimed, -⟩ := frame.pending
      rw [grown] at pending
      rcases List.mem_append.mp pending with earlier | last
      · exact Or.inl (Or.inr ⟨id, session, live, patch, earlier, same⟩)
      · rw [List.mem_singleton.mp last, aimed] at same
        exact Or.inr same.symm
    · exact Or.inl (Or.inr ⟨owner, found, old, patch, pending, same⟩)

theorem Invariant.sources_apart {platform : Platform} {memory : ProcessMemory} {system : System}
    (invariant : Invariant platform memory system) {oracle : MappingOracle} {preparation : Preparation} {id : Nat}
    {session : PatchSession} {after : Workspace} (live : system.sessions id = some session)
    (admitted : Admissible platform system (.prepare id oracle preparation))
    (frame : PatchSession.PreparedFrame platform oracle preparation ⟨session, system.process.memory⟩ after)
    {base : Nat} (member : base ∈ after.session.bases) {range : InstalledPatch}
    (source : system.IsSource range ∨ range = preparation.source) : platform.PageApart base range := by
  obtain ⟨outside, fresh⟩ := admitted
  obtain ⟨extra, bases, mapped⟩ := frame.bases
  rw [bases] at member
  rcases List.mem_append.mp member with earlier | new
  · rcases source with known | rfl
    · exact invariant.pages id session live base earlier range known
    · exact outside base (Or.inl ⟨id, session, live, earlier⟩)
  · obtain ⟨own, others⟩ := fresh base base (mapped base new)
    rcases source with known | rfl
    · exact others range known
    · exact own

theorem Invariant.prepare {platform : Platform} {memory : ProcessMemory} {system : System}
    (invariant : Invariant platform memory system) {oracle : MappingOracle} {preparation : Preparation} {id : Nat}
    {session : PatchSession} {after : Workspace} (live : system.sessions id = some session)
    (admitted : Admissible platform system (.prepare id oracle preparation))
    (frame : PatchSession.PreparedFrame platform oracle preparation ⟨session, system.process.memory⟩ after) :
    Invariant platform memory (system.afterPreparation id session after) := by
  obtain ⟨added, grown, aimed, snapshot⟩ := frame.pending
  obtain ⟨extra, bases, mapped⟩ := frame.bases
  have tail : after.session.bases.drop session.bases.length = extra := by
    rw [bases, List.drop_left]
  -- A preparation writes on the pages of its session, where no source lies.
  have kept {range : InstalledPatch} (source : system.IsSource range ∨ range = preparation.source)
      {location : Nat} (covers : range.Covers location) :
      after.memory location = system.process.memory location :=
    frame.memory location fun base member inside =>
      invariant.sources_apart live admitted frame member source location inside covers
  have noted : ∀ base ∈ after.session.bases, base ∈ (system.afterPreparation id session after).mapped := by
    intro base member
    rw [bases] at member
    change base ∈ system.mapped ++ after.session.bases.drop session.bases.length
    rw [tail]
    exact List.mem_append.mpr ((List.mem_append.mp member).imp_left (invariant.mapped id session live base))
  constructor
  case registry => exact invariant.registry
  case formed => exact invariant.formed
  case apart => exact invariant.apart
  case sessions =>
    intro other found alive
    rcases setSession_sessions alive with ⟨-, new⟩ | ⟨-, old⟩
    · rw [← Option.some.inj new]
      exact frame.formed (invariant.sessions id session live)
    · exact invariant.sessions other found old
  case mapped =>
    intro other found alive base member
    rcases setSession_sessions alive with ⟨-, new⟩ | ⟨-, old⟩
    · rw [← Option.some.inj new] at member
      exact noted base member
    · exact List.mem_append_left _ (invariant.mapped other found old base member)
  case pages =>
    intro other found alive base member range source
    have source := isSource_afterPreparation live frame source
    rcases setSession_sessions alive with ⟨-, new⟩ | ⟨-, old⟩
    · rw [← Option.some.inj new] at member
      exact invariant.sources_apart live admitted frame member source
    · rcases source with known | rfl
      · exact invariant.pages other found old base member range known
      · exact admitted.1 base (Or.inl ⟨other, found, old, member⟩)
  case contents =>
    intro location where'
    rcases where' with ⟨patch, member, covers⟩ | outside
    · have recorded : system.IsSource patch.installed := by
        refine Or.inl ?_
        rw [invariant.recorded]
        exact List.mem_map_of_mem member
      exact (kept (Or.inl recorded) covers).trans (invariant.contents location (Or.inl ⟨patch, member, covers⟩))
    · have untouched : after.memory location = system.process.memory location :=
        frame.memory location fun base member => outside base (noted base member)
      exact untouched.trans (invariant.contents location
        (Or.inr fun base member => outside base (List.mem_append_left _ member)))
  case snapshots =>
    intro other found alive patch member location covers free
    change patch.expected[location - patch.address]? = some (after.memory location)
    rcases setSession_sessions alive with ⟨-, new⟩ | ⟨-, old⟩
    · obtain rfl := Option.some.inj new
      rw [grown] at member
      rcases List.mem_append.mp member with earlier | last
      · rw [kept (Or.inl (Or.inr ⟨id, session, live, patch, earlier, rfl⟩)) covers]
        exact invariant.snapshots id session live patch earlier location covers free
      -- The new patch has read its snapshot just before.
      · obtain rfl := List.mem_singleton.mp last
        rw [aimed] at covers
        have place : patch.address = preparation.source.address := congrArg InstalledPatch.address aimed
        have within : location - preparation.source.address < preparation.source.size := by
          have inside : Memory.Inside _ _ location := covers
          simp only [Memory.Inside] at inside
          omega
        have back : preparation.source.address + (location - preparation.source.address) = location :=
          Nat.add_sub_cancel' covers.1
        rw [kept (Or.inr rfl) covers, snapshot, place, Memory.readAt_getElem? _ within, back]
    · rw [kept (Or.inl (Or.inr ⟨other, found, old, patch, member, rfl⟩)) covers]
      exact invariant.snapshots other found old patch member location covers free

theorem Invariant.withProcess {platform : Platform} {memory : ProcessMemory} {system : System}
    (invariant : Invariant platform memory system) {process : Process}
    (contents : process.memory = system.process.memory)
    (registry : process.permanentPatchSets = system.process.permanentPatchSets) :
    Invariant platform memory { system with process := process } := by
  obtain ⟨process', sessions, batches, mapped⟩ := system
  obtain ⟨_, protection, _, events⟩ := process
  obtain rfl : _ = process'.memory := contents
  obtain rfl : _ = process'.permanentPatchSets := registry
  exact ⟨invariant.registry, invariant.formed, invariant.apart, invariant.sessions, invariant.mapped,
    invariant.pages, invariant.contents, invariant.snapshots⟩

theorem recorded_formed {platform : Platform} {memory : ProcessMemory} {system : System}
    (invariant : Invariant platform memory system) :
    ∀ record ∈ system.process.permanentPatchSets.flatMap (·.patches), record.WellFormed := by
  intro record member
  have member : record ∈ system.recorded := member
  rw [invariant.recorded, List.mem_map] at member
  obtain ⟨patch, committed, rfl⟩ := member
  exact (invariant.formed patch committed).range

theorem Invariant.clear_apart {platform : Platform} {memory : ProcessMemory} {system : System}
    (invariant : Invariant platform memory system) {session : PatchSession} (formed : session.WellFormed)
    (clear : PatchSession.ensurePatchesDoNotOverlapInstalled system.process.permanentPatchSets session.pending =
      .ok ()) :
    ∀ committed ∈ system.committed, ∀ patch ∈ session.pending, committed.installed.Apart patch.installed := by
  rcases PatchSession.ensurePatchesDoNotOverlapInstalled_cases (recorded_formed invariant) formed.patches with
    ⟨-, apart⟩ | ⟨_, _, _, _, _, refused⟩
  · intro committed member patch pending
    refine apart patch pending committed.installed ?_
    change committed.installed ∈ system.recorded
    rw [invariant.recorded]
    exact List.mem_map_of_mem member
  · rw [clear] at refused
    contradiction

theorem afterInstallation_installed {system : System} {environment : InstallEnvironment} (id : Nat)
    {session : PatchSession} {process : Process}
    (installed : PatchSession.Installed environment session system.process process) :
    (system.afterInstallation id session process).batches = system.batches ++ [session.pending] ∧
      (system.afterInstallation id session process).recorded =
        system.recorded ++ session.pending.map PendingPatch.installed := by
  constructor
  · simp [afterInstallation, installed.registry]
  · simp only [System.recorded, afterInstallation, installed.registry, List.flatMap_append]
    simp [PatchSession.permanentPatchSet, PendingPatch.installed]

theorem Invariant.install {platform : Platform} {memory : ProcessMemory} {system : System}
    (invariant : Invariant platform memory system) {environment : InstallEnvironment} {id : Nat}
    {session : PatchSession} {process : Process} (live : system.sessions id = some session)
    (unraced : environment.Unraced)
    (installed : PatchSession.Installed environment session system.process process) :
    Invariant platform memory (system.afterInstallation id session process) := by
  have formed := invariant.sessions id session live
  have clear := invariant.clear_apart formed installed.clear
  have written : process.memory = WriteOnce.overlay system.process.memory (claims session.pending) := by
    rw [installed.memory, unraced, overlay_claims _ formed.apart]
  obtain ⟨batches, recorded⟩ := afterInstallation_installed id installed
  have committed : (system.afterInstallation id session process).committed = system.committed ++ session.pending := by
    simp [System.committed, batches]
  have source {range : InstalledPatch}
      (known : (system.afterInstallation id session process).IsSource range) : system.IsSource range := by
    rcases known with registered | ⟨owner, found, alive, patch, pending, same⟩
    · rw [recorded] at registered
      rcases List.mem_append.mp registered with earlier | new
      · exact Or.inl earlier
      · obtain ⟨patch, pending, same⟩ := List.mem_map.mp new
        exact Or.inr ⟨id, session, live, patch, pending, same⟩
    · rcases setSession_sessions alive with ⟨-, impossible⟩ | ⟨-, old⟩
      · contradiction
      · exact Or.inr ⟨owner, found, old, patch, pending, same⟩
  constructor
  case registry =>
    rw [batches]
    simp [afterInstallation, installed.registry, invariant.registry, PatchSession.permanentPatchSet,
      PendingPatch.installed]
  case formed =>
    rw [committed]
    intro patch member
    exact (List.mem_append.mp member).elim (invariant.formed patch) (formed.patches patch)
  case apart =>
    rw [committed, List.pairwise_append]
    exact ⟨invariant.apart, formed.apart, clear⟩
  case sessions =>
    intro other found alive
    rcases setSession_sessions alive with ⟨-, impossible⟩ | ⟨-, old⟩
    · contradiction
    · exact invariant.sessions other found old
  case mapped =>
    intro other found alive
    rcases setSession_sessions alive with ⟨-, impossible⟩ | ⟨-, old⟩
    · contradiction
    · exact invariant.mapped other found old
  case pages =>
    intro other found alive base member range known
    rcases setSession_sessions alive with ⟨-, impossible⟩ | ⟨-, old⟩
    · contradiction
    · exact invariant.pages other found old base member range (source known)
  case contents =>
    intro location where'
    change process.memory location = _
    rw [committed, claims_append, ← WriteOnce.overlay_overlay _ (claims_separate clear), written]
    -- A location is written by the new batch or by none but earlier ones.
    cases claimed : claims session.pending location with
    | some value => rw [WriteOnce.overlay_some claimed, WriteOnce.overlay_some claimed]
    | none =>
      rw [WriteOnce.overlay_none claimed, WriteOnce.overlay_none claimed]
      refine invariant.contents location (where'.imp_left ?_)
      rintro ⟨patch, member, covers⟩
      rw [committed] at member
      rcases List.mem_append.mp member with earlier | own
      · exact ⟨patch, earlier, covers⟩
      · exact absurd covers (claims_none_iff.mp claimed patch own)
  case snapshots =>
    intro other found alive patch member location covers free
    rcases setSession_sessions alive with ⟨-, impossible⟩ | ⟨-, old⟩
    · contradiction
    · rw [committed] at free
      change patch.expected[location - patch.address]? = some (process.memory location)
      rw [written, WriteOnce.overlay_none (claims_none_iff.mpr fun own here =>
        free own (List.mem_append_right _ here))]
      exact invariant.snapshots other found old patch member location covers fun earlier here =>
        free earlier (List.mem_append_left _ here)

theorem afterInstallation_refused {system : System} {environment : InstallEnvironment} {id : Nat}
    {session : PatchSession} {process : Process} (unraced : environment.Unraced)
    (refused : PatchSession.Uninstalled environment system.process process) :
    process.memory = system.process.memory ∧
      system.afterInstallation id session process = { system.setSession id none with process := process } := by
  refine ⟨?_, by simp [afterInstallation, refused.registry, setSession]⟩
  rcases refused.memory with same | raced
  · exact same
  · rw [raced, unraced]

theorem afterPreparation_failed {system : System} {id : Nat} {session : PatchSession}
    (live : system.sessions id = some session) :
    system.afterPreparation id session ⟨session, system.process.memory⟩ = system := by
  have same : Function.update system.sessions id (some session) = system.sessions := by
    rw [← live, Function.update_eq_self]
  simp [afterPreparation, setSession, same]

theorem step_invariant {platform : Platform} {memory : ProcessMemory} {system : System}
    (invariant : Invariant platform memory system) {operation : Operation}
    (admitted : Admissible platform system operation) :
    Invariant platform memory (system.step platform operation).2 := by
  cases operation with
  | create id =>
    cases live : system.sessions id with
    | some session => simpa only [step, live] using invariant
    | none =>
      simp only [step, live]
      exact invariant.forget fun found same => (Option.some.inj same).symm
  | drop id => exact invariant.forget fun found same => by contradiction
  | prepare id oracle preparation =>
    cases live : system.sessions id with
    | none => simpa only [step, live] using invariant
    | some session =>
      simp only [step, live]
      rcases PatchSession.preparation_cases platform oracle preparation ⟨session, system.process.memory⟩ with
        ⟨failure, ran⟩ | ⟨patch, after, ran, prepared⟩
      · rwa [ran, afterPreparation_failed live]
      · rw [ran]
        exact invariant.prepare live admitted prepared.frame
  | installPermanently id environment =>
    cases live : system.sessions id with
    | none => simpa only [step, live] using invariant
    | some session =>
      simp only [step, live]
      rcases ran : (session.installPermanently platform environment).exec system.process with ⟨result, process⟩
      rcases PatchSession.install_cases ran with ⟨failure, -, -, refused⟩ | ⟨installed, -⟩
      · obtain ⟨same, state⟩ := @afterInstallation_refused system environment id session process admitted refused
        rw [state]
        have forgotten : Invariant platform memory (system.setSession id none) :=
          invariant.forget fun found same => by contradiction
        exact forgotten.withProcess same refused.registry
      · exact invariant.install live admitted installed

theorem reachable_invariant {platform : Platform} {memory : ProcessMemory} {system : System}
    (reachable : (machine platform memory).Reachable system) : Invariant platform memory system := by
  refine reachable.invariant (Invariant platform memory) ?_ ?_
  · rintro state ⟨protection, rfl⟩
    exact initial_invariant platform memory protection
  · exact fun state operation invariant admitted => step_invariant invariant admitted

def Owns (self : System) (base : Nat) : Option Nat → Prop
  | some id => ∃ session, self.sessions id = some session ∧ base ∈ session.bases
  | none => ∃ set ∈ self.process.permanentPatchSets, base ∈ set.pages

theorem owns_step {platform : Platform} {system : System} {operation : Operation} {base : Nat}
    (owns : (system.step platform operation).2.Owns base none) :
    system.Owns base none ∨ ∃ id session, system.sessions id = some session ∧ base ∈ session.bases := by
  cases operation with
  | create id =>
    cases live : system.sessions id <;> simp only [step, live] at owns <;> exact Or.inl owns
  | drop id => exact Or.inl owns
  | prepare id oracle preparation =>
    cases live : system.sessions id <;> simp only [step, live] at owns <;> exact Or.inl owns
  | installPermanently id environment =>
    cases live : system.sessions id with
    | none =>
      simp only [step, live] at owns
      exact Or.inl owns
    | some session =>
      simp only [step, live] at owns
      obtain ⟨set, member, page⟩ := owns
      rcases ran : (session.installPermanently platform environment).exec system.process with ⟨result, process⟩
      rw [ran] at member
      change set ∈ process.permanentPatchSets at member
      rcases PatchSession.install_cases ran with ⟨-, -, -, refused⟩ | ⟨installed, -⟩
      · exact Or.inl ⟨set, refused.registry ▸ member, page⟩
      · rw [installed.registry] at member
        rcases List.mem_append.mp member with earlier | new
        · exact Or.inl ⟨set, earlier, page⟩
        · rw [List.mem_singleton.mp new] at page
          exact Or.inr ⟨id, session, live, page⟩

theorem snapshots_valid {platform : Platform} {memory : ProcessMemory} {system : System}
    (invariant : Invariant platform memory system) {id : Nat} {session : PatchSession}
    (live : system.sessions id = some session)
    (clear : PatchSession.ensurePatchesDoNotOverlapInstalled system.process.permanentPatchSets session.pending =
      .ok ()) :
    PatchSession.validatePatchSources system.process.memory session.pending = .ok () := by
  have formed := invariant.sessions id session live
  have apart := invariant.clear_apart formed clear
  rw [PatchSession.validatePatchSources_ok_iff]
  intro patch pending
  rw [Memory.readAt_eq_iff]
  intro index within
  have sized := (formed.patches patch pending).sized
  have room : index < patch.replacement.length := by
    rw [← sized]
    exact within
  have covers : patch.installed.Covers (patch.address + index) :=
    ⟨Nat.le_add_right _ _, Nat.add_lt_add_left room _⟩
  have fresh := invariant.snapshots id session live patch pending (patch.address + index) covers
    fun other committed here => (apart other committed patch pending).not_covers here covers
  rw [Nat.add_sub_cancel_left, List.getElem?_eq_getElem within] at fresh
  exact (Option.some.inj fresh).symm

theorem Invariant.install_ok {platform : Platform} {memory : ProcessMemory} {system : System}
    (invariant : Invariant platform memory system) {environment : InstallEnvironment}
    (faultFree : environment.FaultFree) (unraced : environment.Unraced) {id : Nat} {session : PatchSession}
    (live : system.sessions id = some session)
    (clear : PatchSession.ensurePatchesDoNotOverlapInstalled system.process.permanentPatchSets session.pending =
      .ok ()) :
    let after := system.step platform (.installPermanently id environment)
    after.1 = .installed (.ok ()) ∧
      after.2.process.permanentPatchSets = system.process.permanentPatchSets ++ [session.permanentPatchSet] ∧
      after.2.batches = system.batches ++ [session.pending] ∧
      after.2.sessions = Function.update system.sessions id none ∧ after.2.mapped = system.mapped ∧
      after.2.process.memory = overlay system.process.memory session.pending := by
  have valid := snapshots_valid invariant live clear
  obtain ⟨succeeded, installed⟩ := @PatchSession.install_ok platform environment faultFree session system.process
    (invariant.sessions id session live).patches clear valid ((unraced _).symm ▸ valid)
  simp only [step, live, succeeded, true_and]
  refine ⟨installed.registry, (afterInstallation_installed id installed).1, rfl, rfl, ?_⟩
  exact installed.memory.trans (by rw [unraced])

def Modest : Operation → Prop
  | .create _ | .drop _ => True
  | .prepare _ oracle _ => ∀ candidate base, oracle.mapMut candidate ≠ .ok base
  | .installPermanently _ environment => environment.Unraced

theorem modest_step {platform : Platform} {system : System} (bare : ∀ base, ¬ system.Mapped base)
    {operation : Operation} (modest : Modest operation) :
    Admissible platform system operation ∧ ∀ base, ¬ (system.step platform operation).2.Mapped base := by
  constructor
  · cases operation with
    | create id | drop id => trivial
    | prepare id oracle preparation =>
      exact ⟨fun base mapped => absurd mapped (bare base), fun candidate base mapped =>
        absurd mapped (modest candidate base)⟩
    | installPermanently id environment => exact modest
  -- A page is mapped where a live session or the registry has it, and none of the operations gives them one.
  rintro base (⟨other, found, alive, member⟩ | registered)
  · have old (known : system.sessions other = some found) : False := bare base (Or.inl ⟨other, found, known, member⟩)
    cases operation with
    | create id =>
      cases live : system.sessions id with
      | some session => exact old (by simpa only [step, live] using alive)
      | none =>
        simp only [step, live] at alive
        rcases setSession_sessions alive with ⟨-, new⟩ | ⟨-, known⟩
        · rw [← Option.some.inj new] at member
          exact absurd member List.not_mem_nil
        · exact old known
    | drop id =>
      rcases setSession_sessions alive with ⟨-, gone⟩ | ⟨-, known⟩
      · contradiction
      · exact old known
    | prepare id oracle preparation =>
      cases live : system.sessions id with
      | none => exact old (by simpa only [step, live] using alive)
      | some session =>
        simp only [step, live] at alive
        rcases setSession_sessions alive with ⟨-, new⟩ | ⟨-, known⟩
        · rcases PatchSession.preparation_cases platform oracle preparation ⟨session, system.process.memory⟩ with
            ⟨failure, ran⟩ | ⟨patch, after, ran, prepared⟩
          · rw [ran] at new
            rw [← Option.some.inj new] at member
            exact bare base (Or.inl ⟨id, session, live, member⟩)
          · rw [ran] at new
            obtain ⟨extra, bases, mapped⟩ := prepared.frame.bases
            rw [← Option.some.inj new, bases] at member
            rcases List.mem_append.mp member with earlier | fresh
            · exact bare base (Or.inl ⟨id, session, live, earlier⟩)
            · exact modest base base (mapped base fresh)
        · exact old known
    | installPermanently id environment =>
      cases live : system.sessions id with
      | none => exact old (by simpa only [step, live] using alive)
      | some session =>
        simp only [step, live] at alive
        rcases setSession_sessions alive with ⟨-, gone⟩ | ⟨-, known⟩
        · contradiction
        · exact old known
  · rcases owns_step (registered : (system.step platform operation).2.Owns base none) with earlier | own
    · exact bare base (Or.inr earlier)
    · exact bare base (Or.inl own)

theorem modest_reachable (platform : Platform) (memory : ProcessMemory) (protection : Nat → Nat)
    (operations : List Operation) (modest : ∀ operation ∈ operations, Modest operation) :
    (machine platform memory).Reachable
      (operations.foldl (fun system operation => (system.step platform operation).2) (initial memory protection)) := by
  have all : (machine platform memory).Reachable (operations.foldl
      (fun system operation => (system.step platform operation).2) (initial memory protection)) ∧
      ∀ base, ¬ (operations.foldl (fun system operation => (system.step platform operation).2)
        (initial memory protection)).Mapped base := by
    induction operations using List.reverseRecOn with
    | nil =>
      refine ⟨.start ⟨protection, rfl⟩, ?_⟩
      rintro base (⟨id, session, live, -⟩ | ⟨set, member, -⟩)
      · contradiction
      · exact absurd member List.not_mem_nil
    | append_singleton earlier operation ih =>
      obtain ⟨reachable, bare⟩ := ih fun other member => modest other (List.mem_append_left _ member)
      obtain ⟨admitted, later⟩ := @modest_step platform _ bare operation (modest operation (by simp))
      rw [List.foldl_append]
      exact ⟨.step reachable admitted, later⟩
  exact all.1

theorem install_leads {platform : Platform} {memory : ProcessMemory} (system : System) (id : Nat)
    {environment : InstallEnvironment} (unraced : environment.Unraced) :
    (machine platform memory).Leads system (system.step platform (.installPermanently id environment)).2 :=
  .single ⟨.installPermanently id environment, unraced, rfl⟩

theorem step_committed {platform : Platform} {memory : ProcessMemory} {system : System}
    (invariant : Invariant platform memory system) {operation : Operation}
    (admitted : Admissible platform system operation) :
    (system.step platform operation).2.committed = system.committed ∨
      ∃ batch, (system.step platform operation).2.committed = system.committed ++ batch ∧
        ∀ earlier ∈ system.committed, ∀ patch ∈ batch, earlier.installed.Apart patch.installed := by
  cases operation with
  | create id => cases live : system.sessions id <;> exact Or.inl (by simp [step, live, committed, setSession])
  | drop id => exact Or.inl rfl
  | prepare id oracle preparation =>
    cases live : system.sessions id <;>
      exact Or.inl (by simp [step, live, committed, afterPreparation, setSession])
  | installPermanently id environment =>
    cases live : system.sessions id with
    | none => exact Or.inl (by simp [step, live])
    | some session =>
      simp only [step, live]
      rcases ran : (session.installPermanently platform environment).exec system.process with ⟨result, process⟩
      rcases PatchSession.install_cases ran with ⟨-, -, -, refused⟩ | ⟨installed, -⟩
      · exact Or.inl (by simp [afterInstallation, refused.registry, committed, setSession])
      · exact Or.inr ⟨session.pending, by simp [afterInstallation, installed.registry, committed],
          invariant.clear_apart (invariant.sessions id session live) installed.clear⟩

theorem recorded_permanent {platform : Platform} {memory : ProcessMemory} {before after : System}
    (reachable : (machine platform memory).Reachable before) (leads : (machine platform memory).Leads before after)
    {record : InstalledPatch} (member : record ∈ before.recorded) : record ∈ after.recorded := by
  induction leads with
  | refl => exact member
  | @tail middle last early step ih =>
    obtain ⟨operation, admitted, rfl⟩ := step
    have invariant := reachable_invariant (reachable.leads early)
    have next := step_invariant invariant admitted
    rw [invariant.recorded] at ih
    change record ∈ (middle.step platform operation).2.recorded
    rw [next.recorded]
    rcases step_committed invariant admitted with same | ⟨batch, grown, -⟩
    · rwa [same]
    · rw [grown, List.map_append]
      exact List.mem_append_left _ ih

/-- Seen from outside, a run of the system is a run of a write-once store. -/
theorem run_writes_once {platform : Platform} {memory : ProcessMemory} {before after : System}
    (reachable : (machine platform memory).Reachable before) (leads : (machine platform memory).Leads before after) :
    Relation.ReflTransGen WriteOnce.Step (claims before.committed) (claims after.committed) := by
  refine Machine.refines_run (Invariant platform memory) (fun system => claims system.committed) WriteOnce.Step
    (fun state operation invariant admitted => step_invariant invariant admitted) ?_
    (reachable_invariant reachable) leads
  intro state operation invariant admitted
  change WriteOnce.Step (claims state.committed) (claims (state.step platform operation).2.committed)
  rcases step_committed invariant admitted with same | ⟨batch, grown, apart⟩
  · rw [same]
    exact .idle _
  · rw [grown, claims_append]
    exact .claim _ _ (claims_separate apart)

theorem recorded_byte_permanent {platform : Platform} {memory : ProcessMemory} {before after : System}
    (reachable : (machine platform memory).Reachable before) (leads : (machine platform memory).Leads before after)
    {record : InstalledPatch} (member : record ∈ before.recorded) {location : Nat} (covers : record.Covers location) :
    after.process.memory location = before.process.memory location := by
  have earlier := reachable_invariant reachable
  have later := reachable_invariant (reachable.leads leads)
  rw [earlier.recorded, List.mem_map] at member
  obtain ⟨patch, committed, rfl⟩ := member
  cases claimed : claims before.committed location with
  | none => exact absurd covers (claims_none_iff.mp claimed patch committed)
  | some value =>
    have kept := WriteOnce.run_extends (run_writes_once reachable leads) location value claimed
    have owner : ∃ other ∈ after.committed, other.installed.Covers location := by
      by_contra nobody
      push Not at nobody
      rw [claims_none_iff.mpr nobody] at kept
      contradiction
    rw [later.contents location (Or.inl owner), earlier.contents location (Or.inl ⟨patch, committed, covers⟩),
      WriteOnce.overlay_some kept, WriteOnce.overlay_some claimed]

/-- In every reachable state the registry records disjoint ranges, memory is the initial memory with
    the replacements of exactly those ranges laid over it, and that is how the recorded ranges stay. -/
theorem registry_matches_memory (platform : Platform) (memory : ProcessMemory) (system : System)
    (reachable : (machine platform memory).Reachable system) :
    (∀ record ∈ system.recorded, 0 < record.size) ∧
      (system.recorded.Pairwise fun first second =>
        ∀ location, first.Covers location → ¬ second.Covers location) ∧
      system.process.permanentPatchSets.map (·.patches) = system.batches.map (·.map PendingPatch.installed) ∧
      (∀ location, (∃ record ∈ system.recorded, record.Covers location) ∨
          (∀ base ∈ system.mapped, ¬ Memory.Inside base platform.pageSize location) →
        system.process.memory location = WriteOnce.overlay memory (claims system.committed) location) ∧
      ∀ later, (machine platform memory).Leads system later → ∀ record ∈ system.recorded,
        record ∈ later.recorded ∧
          ∀ location, record.Covers location → later.process.memory location = system.process.memory location := by
  have invariant := reachable_invariant reachable
  refine ⟨?_, ?_, invariant.registry, ?_, fun later leads record member => ?_⟩
  · exact fun record member => (recorded_formed invariant record member).nonempty
  · rw [invariant.recorded, List.pairwise_map]
    exact invariant.apart.imp fun apart location => apart.not_covers
  · intro location source
    refine invariant.contents location (source.imp_left ?_)
    rintro ⟨record, member, covers⟩
    rw [invariant.recorded, List.mem_map] at member
    obtain ⟨patch, committed, rfl⟩ := member
    exact ⟨patch, committed, covers⟩
  · exact ⟨recorded_permanent reachable leads member, fun location => recorded_byte_permanent reachable leads member⟩

-- Two sessions overwrite neighbouring bytes. The first is installed, and its bytes stay when the second is.
theorem registry_matches_memory_neighbours :
    let platform : Platform := ⟨0x1000, 0x10000, by decide, by decide⟩
    let oracle : MappingOracle := ⟨fun _ => .ok (), fun _ => .error "no memory"⟩
    let operations : List Operation :=
      [.create 0, .prepare 0 oracle (.overwrite 0x1000 [0xC3, 0xC3]), .create 1,
        .prepare 1 oracle (.overwrite 0x1002 [0xCC])]
    let prepared := operations.foldl (fun system operation => (system.step platform operation).2)
      (initial (fun _ => 0x90) fun _ => 0x20)
    let first := (prepared.step platform (.installPermanently 0 .calm)).2
    let second := (first.step platform (.installPermanently 1 .calm)).2
    second.recorded = [⟨0x1000, 2⟩, ⟨0x1002, 1⟩] ∧
      Memory.readAt second.process.memory 0x1000 4 = [0xC3, 0xC3, 0xCC, 0x90] ∧
      ∀ location, (⟨0x1000, 2⟩ : InstalledPatch).Covers location →
        second.process.memory location = first.process.memory location := by
  intro platform oracle operations prepared first second
  have reachable := modest_reachable platform (fun _ => 0x90) (fun _ => 0x20) operations
    (by simp [operations, Modest, oracle])
  obtain ⟨-, registry, batches, sessions, mapped, -⟩ := @Invariant.install_ok platform _ prepared
    (reachable_invariant reachable) .calm InstallEnvironment.calm_faultFree (fun _ => rfl) 0
    ⟨[], [⟨0x1000, [0x90, 0x90], [0xC3, 0xC3]⟩]⟩ rfl rfl
  have reached : (machine platform fun _ => 0x90).Reachable first :=
    reachable.leads (install_leads prepared 0 fun _ => rfl)
  have leads : (machine platform fun _ => 0x90).Leads first second := install_leads first 1 fun _ => rfl
  have live : first.sessions 1 = some ⟨[], [⟨0x1002, [0x90], [0xCC]⟩]⟩ := by
    change (prepared.step platform _).2.sessions 1 = _
    rw [sessions]
    rfl
  have one : first.process.permanentPatchSets = [⟨[], [⟨0x1000, 2⟩]⟩] := registry
  obtain ⟨-, registry', batches', -, mapped', -⟩ := @Invariant.install_ok platform _ first
    (reachable_invariant reached) .calm InstallEnvironment.calm_faultFree (fun _ => rfl) 1 _ live (by rw [one]; rfl)
  have two : second.process.permanentPatchSets = [⟨[], [⟨0x1000, 2⟩]⟩, ⟨[], [⟨0x1002, 1⟩]⟩] := by
    rw [registry', one]
    rfl
  have committed : second.committed = [⟨0x1000, [0x90, 0x90], [0xC3, 0xC3]⟩, ⟨0x1002, [0x90], [0xCC]⟩] := by
    rw [System.committed, batches', show first.batches = _ from batches]
    rfl
  have unmapped : second.mapped = [] := mapped'.trans mapped
  obtain ⟨-, -, -, contents, -⟩ := registry_matches_memory platform (fun _ => 0x90) second (reached.leads leads)
  obtain ⟨-, -, -, -, stays⟩ := registry_matches_memory platform (fun _ => 0x90) first reached
  have written : second.process.memory = WriteOnce.overlay (fun _ => 0x90) (claims second.committed) := by
    funext location
    exact contents location (Or.inr (by simp [unmapped]))
  refine ⟨by rw [System.recorded, two]; rfl, by rw [written, committed]; decide, ?_⟩
  exact (stays second leads ⟨0x1000, 2⟩ (by simp [System.recorded, one])).2

end System

end Patchy
