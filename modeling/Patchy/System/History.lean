import Patchy.Session.Search
import Patchy.System.Outcome
import Patchy.System.Sessions

set_option autoImplicit false

namespace Patchy

namespace System

def NewPagesApart (platform : Platform) (self : System) : Operation → Prop
  | .prepare _ oracle _ => ∀ candidate base, oracle.mapMut candidate = .ok base → ∀ other, self.Mapped other →
      Memory.Apart base platform.pageSize other platform.pageSize
  | _ => True

theorem Owns.mapped {system : System} {base : Nat} {owner : Option Nat} (owns : system.Owns base owner) :
    system.Mapped base := by
  cases owner with
  | none => exact Or.inr owns
  | some id =>
    obtain ⟨session, live, member⟩ := owns
    exact Or.inl ⟨id, session, live, member⟩

end System

/-- A system together with what its sessions have been asked to prepare: each live one so far, and all those
    whose batches have been recorded. -/
structure History where
  system : System
  made : Nat → List Entry
  installed : List Entry

namespace History

def initial (memory : ProcessMemory) (protection : Nat → Nat) : History :=
  ⟨System.initial memory protection, fun _ => [], []⟩

def step (platform : Platform) (self : History) (operation : Operation) : History :=
  let after := (self.system.step platform operation).2
  match operation with
  | .create id =>
      match self.system.sessions id with
      | some _ => { self with system := after }
      | none => { self with system := after, made := Function.update self.made id [] }
  | .prepare id oracle preparation =>
      match self.system.sessions id with
      | none => { self with system := after }
      | some session =>
          let entry : Entry := ⟨preparation, self.system.process.memory,
            ((preparation.run platform oracle).exec ⟨session, self.system.process.memory⟩).1⟩
          { self with system := after, made := Function.update self.made id (self.made id ++ [entry]) }
  | .drop _ => { self with system := after }
  | .installPermanently id _ =>
      if after.process.permanentPatchSets.length = self.system.process.permanentPatchSets.length then
        { self with system := after }
      else { self with system := after, installed := self.installed ++ self.made id }

def Admissible (platform : Platform) (self : History) (operation : Operation) : Prop :=
  System.Admissible platform self.system operation ∧ self.system.NewPagesApart platform operation

def machine (platform : Platform) (memory : ProcessMemory) : Machine History Operation where
  initial self := ∃ protection, self = initial memory protection
  admits := Admissible platform
  next := step platform

structure Lasting (platform : Platform) (system : System) (entry : Entry) (address : Nat) : Prop where
  jump : ∃ jump expected,
    buildNearJump entry.preparation.source.address address entry.preparation.source.size = .ok jump ∧
      ⟨entry.preparation.source.address, expected, jump⟩ ∈ system.committed
  code : ∃ code page, entry.preparation.CodeAt entry.memory address code ∧
    Memory.readAt system.process.memory address code.length = code ∧ system.Owns page none ∧
      page ≤ address ∧ address + code.length ≤ page + platform.pageSize

theorem Lasting.mono {platform : Platform} {before after : System} {entry : Entry} {address : Nat}
    (lasting : Lasting platform before entry address)
    (committed : ∀ patch ∈ before.committed, patch ∈ after.committed)
    (pages : ∀ base, before.Owns base none → after.Owns base none)
    (kept : ∀ base, before.Owns base none → ∀ location, Memory.Inside base platform.pageSize location →
      after.process.memory location = before.process.memory location) : Lasting platform after entry address := by
  obtain ⟨⟨jump, expected, jumps, member⟩, code, page, meant, stored, owned, low, high⟩ := lasting
  refine ⟨⟨jump, expected, jumps, committed _ member⟩, code, page, meant, ?_, pages page owned, low, high⟩
  refine (Memory.readAt_congr fun location inside => kept page owned location ?_).trans stored
  simp only [Memory.Inside] at inside ⊢
  omega

structure Followed (platform : Platform) (memory : ProcessMemory) (history : History) : Prop where
  system : System.Invariant platform memory history.system
  links : ∀ id session, history.system.sessions id = some session →
    PatchSession.Links platform (history.made id) ⟨session, history.system.process.memory⟩
  separate : ∀ base owner other otherOwner, history.system.Owns base owner → history.system.Owns other otherOwner →
    owner ≠ otherOwner → Memory.Apart base platform.pageSize other platform.pageSize
  sources : ∀ base owner, history.system.Owns base owner → ∀ range, history.system.IsSource range →
    platform.PageApart base range
  lasting : ∀ entry ∈ history.installed, ∀ address, entry.result = .ok ⟨some address⟩ →
    Lasting platform history.system entry address

variable {platform : Platform} {memory : ProcessMemory} {history : History}

theorem initial_followed (protection : Nat → Nat) : Followed platform memory (initial memory protection) where
  system := System.initial_invariant platform memory protection
  links id session live := by simp [initial, System.initial] at live
  separate base owner other otherOwner owns := by
    cases owner <;> simp [initial, System.initial, System.Owns] at owns
  sources base owner owns := by cases owner <;> simp [initial, System.initial, System.Owns] at owns
  lasting entry member := absurd member List.not_mem_nil

theorem Followed.forget (followed : Followed platform memory history) {id : Nat} {session : Option PatchSession}
    {made : Nat → List Entry} (bare : ∀ found, session = some found → found = PatchSession.new)
    (same : ∀ other, other ≠ id → made other = history.made other) (fresh : session.isSome → made id = []) :
    Followed platform memory ⟨history.system.setSession id session, made, history.installed⟩ := by
  have empty {found : PatchSession} (new : session = some found) : found = PatchSession.new := bare found new
  have owned {base : Nat} {owner : Option Nat} (owns : (history.system.setSession id session).Owns base owner) :
      history.system.Owns base owner := by
    cases owner with
    | none => exact owns
    | some other =>
      obtain ⟨found, live, member⟩ := owns
      rcases System.setSession_sessions live with ⟨-, new⟩ | ⟨-, old⟩
      · rw [empty new] at member
        exact absurd member List.not_mem_nil
      · exact ⟨found, old, member⟩
  have source {range : InstalledPatch} (known : (history.system.setSession id session).IsSource range) :
      history.system.IsSource range := by
    refine known.imp_right ?_
    rintro ⟨owner, found, live, patch, pending, same⟩
    rcases System.setSession_sessions live with ⟨-, new⟩ | ⟨-, old⟩
    · rw [empty new] at pending
      exact absurd pending List.not_mem_nil
    · exact ⟨owner, found, old, patch, pending, same⟩
  constructor
  case system => exact followed.system.forget bare
  case links =>
    intro other found live
    rcases System.setSession_sessions live with ⟨rfl, new⟩ | ⟨different, old⟩
    · rw [empty new]
      change PatchSession.Links platform (made other) _
      rw [fresh (by simp [new])]
      exact PatchSession.prepares_links (.start _)
    · change PatchSession.Links platform (made other) _
      rw [same other different]
      exact followed.links other found old
  case separate =>
    intro base owner other otherOwner owns others
    exact followed.separate base owner other otherOwner (owned owns) (owned others)
  case sources =>
    intro base owner owns range known
    exact followed.sources base owner (owned owns) range (source known)
  case lasting =>
    intro entry member address succeeded
    exact (followed.lasting entry member address succeeded).mono (fun _ known => known) (fun _ known => known)
      fun _ _ _ _ => rfl

theorem Followed.withProcess (followed : Followed platform memory history) {process : Process}
    (contents : process.memory = history.system.process.memory)
    (registry : process.permanentPatchSets = history.system.process.permanentPatchSets) :
    Followed platform memory { history with system := { history.system with process := process } } := by
  obtain ⟨⟨process', sessions, batches, mapped⟩, made, installed⟩ := history
  have invariant := followed.system.withProcess contents registry
  obtain ⟨_, protection, _, events⟩ := process
  obtain rfl : _ = process'.memory := contents
  obtain rfl : _ = process'.permanentPatchSets := registry
  refine ⟨invariant, followed.links, ?_, ?_, ?_⟩
  · intro base owner other otherOwner owns others
    refine followed.separate base owner other otherOwner ?_ ?_
    · cases owner <;> exact owns
    · cases otherOwner <;> exact others
  · intro base owner owns
    refine followed.sources base owner ?_
    cases owner <;> exact owns
  · intro entry member address succeeded
    exact (followed.lasting entry member address succeeded).mono (fun _ known => known) (fun _ known => known)
      fun _ _ _ _ => rfl

theorem owns_afterPreparation {oracle : MappingOracle} {preparation : Preparation} {system : System} {id : Nat}
    {session : PatchSession} {after : Workspace} (live : system.sessions id = some session)
    (frame : PatchSession.PreparedFrame platform oracle preparation ⟨session, system.process.memory⟩ after)
    {base : Nat} {owner : Option Nat} (owns : (system.afterPreparation id session after).Owns base owner) :
    system.Owns base owner ∨ owner = some id ∧ oracle.mapMut base = .ok base := by
  cases owner with
  | none => exact Or.inl owns
  | some other =>
    obtain ⟨found, alive, member⟩ := owns
    rcases System.setSession_sessions alive with ⟨rfl, new⟩ | ⟨different, old⟩
    · obtain ⟨extra, bases, mapped⟩ := frame.bases
      rw [← Option.some.inj new, bases] at member
      rcases List.mem_append.mp member with earlier | fresh
      · exact Or.inl ⟨session, live, earlier⟩
      · exact Or.inr ⟨rfl, mapped base fresh⟩
    · exact Or.inl ⟨found, old, member⟩

theorem Followed.preparation_kept (followed : Followed platform memory history) {oracle : MappingOracle}
    {preparation : Preparation} {id : Nat} {session : PatchSession} {after : Workspace}
    (live : history.system.sessions id = some session)
    (fresh : ∀ candidate base, oracle.mapMut candidate = .ok base → ∀ other, history.system.Mapped other →
      Memory.Apart base platform.pageSize other platform.pageSize)
    (frame : PatchSession.PreparedFrame platform oracle preparation ⟨session, history.system.process.memory⟩ after)
    {base : Nat} {owner : Option Nat} (owns : history.system.Owns base owner) (different : owner ≠ some id)
    {location : Nat} (inside : Memory.Inside base platform.pageSize location) :
    after.memory location = history.system.process.memory location := by
  obtain ⟨extra, bases, mapped⟩ := frame.bases
  refine frame.memory location fun own member => ?_
  rw [bases] at member
  rcases List.mem_append.mp member with earlier | new
  · exact (followed.separate base owner own (some id) owns ⟨session, live, earlier⟩ different).not_inside inside
  · exact (fresh own own (mapped own new) base owns.mapped).symm.not_inside inside

theorem Followed.prepare (followed : Followed platform memory history) {oracle : MappingOracle}
    {preparation : Preparation} {id : Nat} {session : PatchSession} (live : history.system.sessions id = some session)
    (admitted : Admissible platform history (.prepare id oracle preparation)) :
    Followed platform memory (history.step platform (.prepare id oracle preparation)) := by
  obtain ⟨allowed, fresh⟩ := admitted
  have links := (followed.links id session live).prepare
    (fun base member => allowed.1 base (Or.inl ⟨id, session, live, member⟩))
    (fun candidate base mapped => ⟨(allowed.2 candidate base mapped).1,
      fun patch pending => (allowed.2 candidate base mapped).2 _ (Or.inr ⟨id, session, live, patch, pending, rfl⟩),
      fun other member => fresh candidate base mapped other (Or.inl ⟨id, session, live, member⟩)⟩)
  have invariant := System.step_invariant followed.system allowed
  simp only [step, live, System.step] at invariant ⊢
  rcases PatchSession.preparation_cases platform oracle preparation ⟨session, history.system.process.memory⟩ with
    ⟨failure, ran⟩ | ⟨patch, after, ran, prepared⟩
  · rw [ran] at links ⊢
    rw [System.afterPreparation_failed live]
    refine ⟨followed.system, fun other found alive => ?_, followed.separate, followed.sources, followed.lasting⟩
    by_cases same : other = id
    · subst same
      obtain rfl := Option.some.inj (live.symm.trans alive)
      simpa using links
    · simpa [same] using followed.links other found alive
  · rw [ran] at links invariant ⊢
    have frame := prepared.frame
    have kept {base : Nat} {owner : Option Nat} (owns : history.system.Owns base owner) (different : owner ≠ some id)
        {location : Nat} (inside : Memory.Inside base platform.pageSize location) :=
      followed.preparation_kept live fresh frame owns different inside
    constructor
    case system => exact invariant
    case links =>
      intro other found alive
      rcases System.setSession_sessions alive with ⟨rfl, new⟩ | ⟨different, old⟩
      · obtain rfl := Option.some.inj new
        change PatchSession.Links platform _ after
        simpa using links
      · have earlier := @PatchSession.Links.interfere platform _ _ after.memory (followed.links other found old)
          fun base member location inside =>
            @kept base (some other) ⟨found, old, member⟩ (by simpa using different) location inside
        change PatchSession.Links platform _ ⟨found, after.memory⟩
        simpa [different] using earlier
    -- Two owners share no page: old ones did not, and a new page is no page of anybody's.
    case separate =>
      intro base owner other otherOwner owns others different
      rcases owns_afterPreparation live frame owns with old | ⟨rfl, mapped⟩ <;>
        rcases owns_afterPreparation live frame others with known | ⟨rfl, placed⟩
      · exact followed.separate base owner other otherOwner old known different
      · exact (fresh other other placed base old.mapped).symm
      · exact fresh base base mapped other known.mapped
      · contradiction
    case sources =>
      intro base owner owns range source
      have source := System.isSource_afterPreparation live frame source
      rcases owns_afterPreparation live frame owns with old | ⟨rfl, mapped⟩
      · rcases source with known | rfl
        · exact followed.sources base owner old range known
        · exact allowed.1 base old.mapped
      · rcases source with known | rfl
        · exact (allowed.2 base base mapped).2 range known
        · exact (allowed.2 base base mapped).1
    case lasting =>
      intro entry member address succeeded
      exact (followed.lasting entry member address succeeded).mono (fun _ known => known) (fun _ known => known)
        fun base owns location inside => kept owns (by simp) inside

section

variable {environment : InstallEnvironment} {id : Nat} {session : PatchSession} {process : Process} {system : System}

theorem owns_afterInstallation (live : system.sessions id = some session)
    (installed : PatchSession.Installed environment session system.process process) {base : Nat} {owner : Option Nat}
    (owns : (system.afterInstallation id session process).Owns base owner) :
    owner ≠ some id ∧ (system.Owns base owner ∨ owner = none ∧ system.Owns base (some id)) := by
  cases owner with
  | none =>
    obtain ⟨set, member, page⟩ := owns
    change set ∈ process.permanentPatchSets at member
    rw [installed.registry] at member
    rcases List.mem_append.mp member with earlier | new
    · exact ⟨by simp, Or.inl ⟨set, earlier, page⟩⟩
    · rw [List.mem_singleton.mp new] at page
      exact ⟨by simp, Or.inr ⟨rfl, session, live, page⟩⟩
  | some other =>
    obtain ⟨found, alive, member⟩ := owns
    rcases System.setSession_sessions alive with ⟨-, impossible⟩ | ⟨different, old⟩
    · contradiction
    · exact ⟨by simpa using different, Or.inl ⟨found, old, member⟩⟩

theorem isSource_afterInstallation (live : system.sessions id = some session)
    (installed : PatchSession.Installed environment session system.process process) {range : InstalledPatch}
    (source : (system.afterInstallation id session process).IsSource range) : system.IsSource range := by
  rcases source with recorded | ⟨owner, found, alive, patch, pending, same⟩
  · obtain ⟨set, member, inside⟩ := List.mem_flatMap.mp recorded
    change set ∈ process.permanentPatchSets at member
    rw [installed.registry] at member
    rcases List.mem_append.mp member with earlier | new
    · exact Or.inl (List.mem_flatMap.mpr ⟨set, earlier, inside⟩)
    · rw [List.mem_singleton.mp new] at inside
      obtain ⟨patch, pending, same⟩ := List.mem_map.mp inside
      exact Or.inr ⟨id, session, live, patch, pending, same⟩
  · rcases System.setSession_sessions alive with ⟨-, impossible⟩ | ⟨-, old⟩
    · contradiction
    · exact Or.inr ⟨owner, found, old, patch, pending, same⟩

theorem committed_afterInstallation
    (installed : PatchSession.Installed environment session system.process process) :
    (system.afterInstallation id session process).committed = system.committed ++ session.pending := by
  simp [System.afterInstallation, installed.registry, System.committed]

theorem Followed.installation_kept (followed : Followed platform memory history)
    (live : history.system.sessions id = some session) (unraced : environment.Unraced)
    (installed : PatchSession.Installed environment session history.system.process process) {base : Nat}
    {owner : Option Nat} (owns : history.system.Owns base owner) {location : Nat}
    (inside : Memory.Inside base platform.pageSize location) :
    process.memory location = history.system.process.memory location := by
  rw [installed.memory, unraced, overlay_outside (followed.system.sessions id session live).apart]
  exact fun patch pending => followed.sources base owner owns patch.installed
    (Or.inr ⟨id, session, live, patch, pending, rfl⟩) location inside

theorem Followed.install (followed : Followed platform memory history)
    (live : history.system.sessions id = some session) (unraced : environment.Unraced)
    (installed : PatchSession.Installed environment session history.system.process process) :
    Followed platform memory ⟨history.system.afterInstallation id session process, history.made,
      history.installed ++ history.made id⟩ := by
  -- Pages change hands: what the registry owns it owned before, or the session did.
  have former {base : Nat} {owner : Option Nat}
      (owns : (history.system.afterInstallation id session process).Owns base owner) :
      ∃ before, history.system.Owns base before ∧ owner ≠ some id ∧
        (before = owner ∨ before = some id ∧ owner = none) := by
    obtain ⟨other, old | ⟨gone, own⟩⟩ := owns_afterInstallation live installed owns
    · exact ⟨owner, old, other, Or.inl rfl⟩
    · exact ⟨some id, own, other, Or.inr ⟨rfl, gone⟩⟩
  have pages {base : Nat} (owns : history.system.Owns base none) :
      (history.system.afterInstallation id session process).Owns base none := by
    obtain ⟨set, member, page⟩ := owns
    refine ⟨set, ?_, page⟩
    change set ∈ process.permanentPatchSets
    rw [installed.registry]
    exact List.mem_append_left _ member
  constructor
  case system => exact followed.system.install live unraced installed
  case links =>
    intro other found alive
    rcases System.setSession_sessions alive with ⟨-, impossible⟩ | ⟨-, old⟩
    · contradiction
    · exact @PatchSession.Links.interfere platform _ _ process.memory (followed.links other found old)
        fun base member location inside =>
          @Followed.installation_kept _ _ _ _ _ _ _ followed live unraced installed base (some other)
            ⟨found, old, member⟩ location inside
  case separate =>
    intro base owner other otherOwner owns others different
    obtain ⟨before, mine, live, same⟩ := former owns
    obtain ⟨earlier, theirs, alive, equal⟩ := former others
    refine followed.separate base before other earlier mine theirs ?_
    grind
  case sources =>
    intro base owner owns range source
    obtain ⟨before, mine, -⟩ := former owns
    exact followed.sources base before mine range (isSource_afterInstallation live installed source)
  case lasting =>
    intro entry member address succeeded
    rcases List.mem_append.mp member with earlier | new
    · refine (followed.lasting entry earlier address succeeded).mono ?_ (fun _ => pages) ?_
      · intro patch known
        rw [committed_afterInstallation installed]
        exact List.mem_append_left _ known
      · exact fun base owns location inside => followed.installation_kept live unraced installed owns inside
    -- A detour of this session becomes a lasting one: its jump is committed now, and its code stays on a page the
    -- registry keeps.
    · have links := followed.links id session live
      obtain ⟨⟨code, meant, stored, page, known, low, high⟩, jump, expected, jumps, pending⟩ :=
        links.linked entry new address succeeded
      have bounded := links.used page known
      have own : history.system.Owns page.mapping (some id) := ⟨session, live, List.mem_map_of_mem known⟩
      have recorded : (history.system.afterInstallation id session process).Owns page.mapping none := by
        refine ⟨session.permanentPatchSet, ?_, List.mem_map_of_mem known⟩
        change _ ∈ process.permanentPatchSets
        rw [installed.registry]
        exact List.mem_append_right _ (List.mem_singleton_self _)
      refine ⟨⟨jump, expected, jumps, ?_⟩, code, page.mapping, meant, ?_, recorded, low, by omega⟩
      · rw [committed_afterInstallation installed]
        exact List.mem_append_right _ pending
      · refine (Memory.readAt_congr fun location inside => ?_).trans stored
        refine followed.installation_kept live unraced installed own ?_
        simp only [Memory.Inside] at inside ⊢
        omega

end

theorem step_followed (followed : Followed platform memory history) {operation : Operation}
    (admitted : Admissible platform history operation) :
    Followed platform memory (history.step platform operation) := by
  cases operation with
  | create id =>
    cases live : history.system.sessions id with
    | some session => simpa only [step, live, System.step] using followed
    | none =>
      simp only [step, live, System.step]
      exact followed.forget (fun found same => (Option.some.inj same).symm)
        (fun other different => Function.update_of_ne different _ _) fun _ => Function.update_self _ _ _
  | drop id => exact followed.forget (fun found same => by contradiction) (fun _ _ => rfl) fun some => by contradiction
  | prepare id oracle preparation =>
    cases live : history.system.sessions id with
    | none => simpa only [step, live, System.step] using followed
    | some session => exact followed.prepare live admitted
  | installPermanently id environment =>
    have unraced : environment.Unraced := admitted.1
    cases live : history.system.sessions id with
    | none => simpa [step, live, System.step] using followed
    | some session =>
      simp only [step, live, System.step]
      rcases ran : (session.installPermanently platform environment).exec history.system.process with ⟨result, process⟩
      rcases PatchSession.install_cases ran with ⟨failure, -, -, refused⟩ | ⟨installed, -⟩
      · obtain ⟨same, state⟩ := @System.afterInstallation_refused history.system environment id session process
          unraced refused
        have forgotten : Followed platform memory
            ⟨history.system.setSession id none, history.made, history.installed⟩ :=
          followed.forget (fun found same => by contradiction) (fun _ _ => rfl) fun some => by contradiction
        rw [state, if_pos (by simp [refused.registry])]
        exact forgotten.withProcess same refused.registry
      · rw [if_neg (by simp [System.afterInstallation, installed.registry])]
        exact followed.install live unraced installed

theorem step_system (platform : Platform) (history : History) (operation : Operation) :
    (history.step platform operation).system = (history.system.step platform operation).2 := by
  cases operation with
  | create id => cases live : history.system.sessions id <;> simp only [step, live]
  | drop id => rfl
  | prepare id oracle preparation => cases live : history.system.sessions id <;> simp only [step, live]
  | installPermanently id environment =>
    simp only [step]
    split <;> rfl

theorem reachable_system (reachable : (machine platform memory).Reachable history) :
    (System.machine platform memory).Reachable history.system := by
  induction reachable with
  | start initial =>
    obtain ⟨protection, rfl⟩ := initial
    exact .start ⟨protection, rfl⟩
  | step _ admitted ih =>
    change (System.machine platform memory).Reachable (step platform _ _).system
    rw [step_system]
    exact .step ih admitted.1

theorem reachable_followed (reachable : (machine platform memory).Reachable history) :
    Followed platform memory history := by
  refine reachable.invariant (Followed platform memory) ?_ fun state operation followed => step_followed followed
  rintro state ⟨protection, rfl⟩
  exact initial_followed protection

theorem committed_bytes {system : System} (invariant : System.Invariant platform memory system) {patch : PendingPatch}
    (member : patch ∈ system.committed) :
    Memory.readAt system.process.memory patch.address patch.replacement.length = patch.replacement := by
  rw [Memory.readAt_eq_iff]
  intro index within
  have covers : patch.installed.Covers (patch.address + index) :=
    ⟨Nat.le_add_right _ _, Nat.add_lt_add_left within _⟩
  rw [invariant.contents _ (Or.inl ⟨patch, member, covers⟩)]
  exact WriteOnce.overlay_some (claims_inside invariant.apart member within)

theorem Lasting.linked {system : System} {entry : Entry} {address : Nat}
    (lasting : Lasting platform system entry address) (invariant : System.Invariant platform memory system) :
    let source := entry.preparation.source
    (∃ displacement : Int, i32Min ≤ displacement ∧ displacement ≤ i32Max ∧
        (source.address : Int) + 5 + displacement = address ∧
        Memory.readAt system.process.memory source.address source.size =
          nearJump :: i32Bytes displacement ++ List.replicate (source.size - 5) 0x90) ∧
      ∃ code, entry.preparation.CodeAt entry.memory address code ∧
        Memory.readAt system.process.memory address code.length = code := by
  intro source
  obtain ⟨⟨jump, expected, jumps, member⟩, code, page, meant, stored, -⟩ := lasting
  refine ⟨?_, code, meant, stored⟩
  obtain ⟨size, displacement, low, high, sum, bytes⟩ := buildNearJump_ok jumps
  refine ⟨displacement, low, high, sum, ?_⟩
  have written := committed_bytes invariant member
  simp only [size] at written
  rw [← bytes]
  exact written

/-! The run of a process whose first session prepares one patch, and installs it while nothing fails. -/

theorem calm_unraced : InstallEnvironment.calm.Unraced := fun _ => rfl

section

variable (platform memory) (id : Nat) (oracle : MappingOracle) (preparation : Preparation)

def firstCreated : History := (initial memory fun _ => 0x20).step platform (.create id)

def firstPrepared : History := (firstCreated platform memory id).step platform (.prepare id oracle preparation)

def firstInstalled : History :=
  (firstPrepared platform memory id oracle preparation).step platform (.installPermanently id .calm)

theorem firstCreated_bare (base : Nat) : ¬ (firstCreated platform memory id).system.Mapped base := by
  rintro (⟨other, session, alive, member⟩ | ⟨set, member, -⟩)
  · rcases System.setSession_sessions alive with ⟨-, new⟩ | ⟨-, old⟩
    · rw [← Option.some.inj new] at member
      exact absurd member List.not_mem_nil
    · contradiction
  · exact absurd member List.not_mem_nil

theorem firstCreated_sourceless (range : InstalledPatch) :
    ¬ (firstCreated platform memory id).system.IsSource range := by
  rintro (recorded | ⟨other, session, alive, patch, pending, -⟩)
  · exact absurd recorded List.not_mem_nil
  · rcases System.setSession_sessions alive with ⟨-, new⟩ | ⟨-, old⟩
    · rw [← Option.some.inj new] at pending
      exact absurd pending List.not_mem_nil
    · contradiction

variable {oracle preparation}

theorem first_admitted
    (outside : ∀ candidate base, oracle.mapMut candidate = .ok base → platform.PageApart base preparation.source) :
    Admissible platform (firstCreated platform memory id) (.prepare id oracle preparation) := by
  refine ⟨⟨?_, ?_⟩, ?_⟩
  · exact fun base mapped => absurd mapped (firstCreated_bare platform memory id base)
  · exact fun candidate base mapped => ⟨outside candidate base mapped, fun range source =>
      absurd source (firstCreated_sourceless platform memory id range)⟩
  · exact fun _ _ _ other mapped => absurd mapped (firstCreated_bare platform memory id other)

theorem firstPrepared_reachable
    (outside : ∀ candidate base, oracle.mapMut candidate = .ok base → platform.PageApart base preparation.source) :
    (machine platform memory).Reachable (firstPrepared platform memory id oracle preparation) :=
  .step (@Machine.Reachable.step _ _ (machine platform memory) _ (.create id) (.start ⟨_, rfl⟩) ⟨trivial, trivial⟩)
    (first_admitted platform memory id outside)

theorem firstCreated_live : (firstCreated platform memory id).system.sessions id = some PatchSession.new := by
  simp [firstCreated, step, initial, System.initial, System.step, System.setSession]

theorem firstPrepared_system {result : Result Patch} {after : Workspace}
    (ran : (preparation.run platform oracle).exec ⟨PatchSession.new, memory⟩ = (result, after)) :
    (firstPrepared platform memory id oracle preparation).system.sessions id = some after.session ∧
      (firstPrepared platform memory id oracle preparation).system.process = ⟨after.memory, fun _ => 0x20, [], []⟩ ∧
        (firstPrepared platform memory id oracle preparation).made id = [⟨preparation, memory, result⟩] ∧
          (firstPrepared platform memory id oracle preparation).installed = [] := by
  have live := firstCreated_live platform memory id
  have process : (firstCreated platform memory id).system.process = ⟨memory, fun _ => 0x20, [], []⟩ := rfl
  have made : (firstCreated platform memory id).made id = [] := Function.update_self _ _ _
  simp only [firstPrepared, step, live, System.step, System.afterPreparation, System.setSession, process, ran, made,
    List.nil_append, Function.update_self, true_and]
  rfl

theorem first_install_ok {result : Result Patch} {after : Workspace}
    (outside : ∀ candidate base, oracle.mapMut candidate = .ok base → platform.PageApart base preparation.source)
    (ran : (preparation.run platform oracle).exec ⟨PatchSession.new, memory⟩ = (result, after)) :
    (after.session.installPermanently platform .calm).exec ⟨after.memory, fun _ => 0x20, [], []⟩ =
        (.ok (), (firstInstalled platform memory id oracle preparation).system.process) ∧
      (firstInstalled platform memory id oracle preparation).system.process.permanentPatchSets =
        [after.session.permanentPatchSet] := by
  obtain ⟨alive, same, -⟩ := firstPrepared_system platform memory id ran
  have followed := (reachable_followed (firstPrepared_reachable platform memory id outside)).system
  rw [← same]
  have patches := (followed.sessions id _ alive).patches
  have clear : PatchSession.ensurePatchesDoNotOverlapInstalled
      (firstPrepared platform memory id oracle preparation).system.process.permanentPatchSets after.session.pending =
        .ok () := by
    rcases PatchSession.ensurePatchesDoNotOverlapInstalled_cases (System.recorded_formed followed) patches with
      ⟨clear, -⟩ | ⟨_, -, record, member, -⟩
    · exact clear
    · simp [same] at member
  have valid := System.snapshots_valid followed alive clear
  obtain ⟨succeeded, installed⟩ := @PatchSession.install_ok platform _ InstallEnvironment.calm_faultFree after.session _
    patches clear valid valid
  have ends : (firstInstalled platform memory id oracle preparation).system.process =
      ((after.session.installPermanently platform .calm).exec
        (firstPrepared platform memory id oracle preparation).system.process).2 := by
    simp only [firstInstalled, step_system, System.step, alive]
    rfl
  rw [ends]
  exact ⟨Prod.ext succeeded rfl, by rw [installed.registry, same, List.nil_append]⟩

theorem firstInstalled_sessions (other : Nat) :
    (firstInstalled platform memory id oracle preparation).system.sessions other = none := by
  have live := firstCreated_live platform memory id
  obtain ⟨alive, -⟩ := @firstPrepared_system platform memory id oracle preparation _ _ rfl
  by_cases same : other = id
  · subst same
    simp [firstInstalled, step_system, System.step, alive, System.afterInstallation, System.setSession]
  · have created : (firstCreated platform memory id).system.sessions other = none := by
      simp [firstCreated, step_system, initial, System.initial, System.step, System.setSession, same]
    have prepared : (firstPrepared platform memory id oracle preparation).system.sessions other = none := by
      simp [firstPrepared, step_system, System.step, live, System.afterPreparation, System.setSession, same, created]
    simp [firstInstalled, step_system, System.step, alive, System.afterInstallation, System.setSession, same, prepared]

theorem first_installation {patch : Patch} {after : Workspace}
    (outside : ∀ candidate base, oracle.mapMut candidate = .ok base → platform.PageApart base preparation.source)
    (ran : (preparation.run platform oracle).exec ⟨PatchSession.new, memory⟩ = (.ok patch, after)) :
    let history := firstInstalled platform memory id oracle preparation
    (machine platform memory).Reachable history ∧ history.installed = [⟨preparation, memory, .ok patch⟩] ∧
      history.system.recorded = [preparation.source] ∧
        ∀ base, history.system.Mapped base → oracle.mapMut base = .ok base := by
  intro history
  obtain ⟨alive, process, made, none⟩ := firstPrepared_system platform memory id ran
  obtain ⟨installed, registry⟩ := first_install_ok platform memory id outside ran
  have longer : history.system.process.permanentPatchSets.length ≠
      (firstPrepared platform memory id oracle preparation).system.process.permanentPatchSets.length := by
    simp [history, registry, process]
  rcases PatchSession.preparation_cases platform oracle preparation ⟨PatchSession.new, memory⟩ with
    ⟨failure, failed⟩ | ⟨same, end', succeeded, effect⟩
  · rw [failed] at ran
    exact absurd (congrArg Prod.fst ran) (by simp)
  obtain ⟨-, rfl⟩ := Prod.mk.inj (ran.symm.trans succeeded)
  obtain ⟨pending, grown, aimed, -⟩ := effect.frame.pending
  obtain ⟨extra, bases, mapped⟩ := effect.frame.bases
  have admitted : Admissible platform (firstPrepared platform memory id oracle preparation)
      (.installPermanently id .calm) := ⟨calm_unraced, trivial⟩
  refine ⟨.step (firstPrepared_reachable platform memory id outside) admitted, ?_, ?_, ?_⟩
  · simp only [history, firstInstalled, step_system] at longer ⊢
    rw [step]
    simp only [if_neg longer, made, none, List.nil_append]
  · rw [System.recorded, registry]
    simp [PatchSession.permanentPatchSet, grown, PatchSession.new, ← aimed, PendingPatch.installed]
  · rintro base (⟨other, session, live, -⟩ | ⟨set, member, page⟩)
    · rw [firstInstalled_sessions] at live
      contradiction
    rw [registry] at member
    rw [List.mem_singleton.mp member] at page
    change base ∈ after.session.bases at page
    rw [bases] at page
    exact mapped base page

end

def pagePlatform : Platform := ⟨0x1000, 0x10000, by decide, by decide⟩

-- There is room for one page, two pages below the end of the source's.
def pageBelow : MappingOracle := ⟨fun _ => .ok (), fun _ => .ok 0x140000000⟩

section

variable {preparation : Preparation} {size : Nat} {build : Builder} {code : List Byte}

theorem pageBelow_outside (source : preparation.source.address = 0x140001000) (candidate base : Nat)
    (mapped : pageBelow.mapMut candidate = .ok base) : pagePlatform.PageApart base preparation.source := by
  intro location inside covers
  obtain rfl : 0x140000000 = base := Except.ok.inj mapped
  simp only [Memory.Inside, pagePlatform] at inside
  simp only [InstalledPatch.Covers, Memory.Inside, source] at covers
  omega

theorem prepared_below (asked : preparation.trampoline memory = some (size, build))
    (source : preparation.source.address = 0x140001000) (room : nearJumpSize ≤ preparation.source.size)
    (short : preparation.source.size ≤ 0x1000) (built : build 0x140000000 = .ok code) (sized : code.length = size)
    (nonempty : size ≠ 0) (small : size ≤ 0x1000) :
    ∃ after, (preparation.run pagePlatform pageBelow).exec ⟨PatchSession.new, memory⟩ =
      (.ok ⟨some 0x140000000⟩, after) := by
  have length := Memory.readAt_length memory 0x140001000 preparation.source.size
  have accepted : PatchSession.new.ensurePatchDoesNotOverlap 0x140001000
      (Memory.readAt memory 0x140001000 preparation.source.size).length = .ok () := by
    rw [PatchSession.ensurePatchDoesNotOverlap_ok_iff PatchSession.WellFormed.new, length]
    simp only [nearJumpSize] at room
    exact ⟨⟨show 0 < preparation.source.size by omega,
      show 0x140001000 + preparation.source.size ≤ usizeMax by simp only [usizeMax]; omega⟩, by simp [PatchSession.new]⟩
  obtain ⟨jump, -, run⟩ := PatchSession.prepareDetour_records (by rwa [length]) accepted
    (PatchSession.allocated_below memory built sized small)
  have whole : (preparation.run pagePlatform pageBelow).exec ⟨PatchSession.new, memory⟩ =
      (PatchSession.prepareDetour pagePlatform pageBelow 0x140001000
        (Memory.readAt memory 0x140001000 preparation.source.size) size build).exec ⟨PatchSession.new, memory⟩ := by
    rw [PatchSession.run_prepareDetour asked room nonempty (by rw [source]; simp only [usizeMax]; omega), source]
  exact ⟨_, whole.trans run⟩

theorem installed_below (asked : preparation.trampoline memory = some (size, build))
    (source : preparation.source.address = 0x140001000) (room : nearJumpSize ≤ preparation.source.size)
    (short : preparation.source.size ≤ 0x1000) (built : build 0x140000000 = .ok code) (sized : code.length = size)
    (nonempty : size ≠ 0) (small : size ≤ 0x1000) :
    ∃ history, (machine pagePlatform memory).Reachable history ∧
      history.installed = [⟨preparation, memory, .ok ⟨some 0x140000000⟩⟩] ∧
        history.system.recorded = [preparation.source] ∧
        ∀ base, history.system.Mapped base → base = 0x140000000 := by
  obtain ⟨after, ran⟩ := prepared_below asked source room short built sized nonempty small
  obtain ⟨reachable, installed, recorded, pages⟩ :=
    first_installation pagePlatform memory 0 (pageBelow_outside source) ran
  exact ⟨_, reachable, installed, recorded, fun base mapped => (Except.ok.inj (pages base mapped)).symm⟩

end

theorem installed_step {entry : Entry} (member : entry ∈ history.installed) (operation : Operation) :
    entry ∈ (history.step platform operation).installed := by
  cases operation <;> simp only [step] <;> (repeat' split) <;> simp [member]

theorem installed_run {entry : Entry} (member : entry ∈ history.installed) (operations : List Operation) :
    entry ∈ (operations.foldl (step platform) history).installed := by
  induction operations generalizing history with
  | nil => exact member
  | cons operation rest ih => exact ih (installed_step member operation)

end History

end Patchy
