import Patchy.Session.Commit
import Patchy.Shared.WriteOnce

set_option autoImplicit false

namespace Patchy

def InstalledPatch.Apart (first second : InstalledPatch) : Prop :=
  Memory.Apart first.address first.size second.address second.size

def InstalledPatch.Covers (self : InstalledPatch) (location : Nat) : Prop :=
  Memory.Inside self.address self.size location

def Platform.PageApart (platform : Platform) (base : Nat) (range : InstalledPatch) : Prop :=
  ∀ location, Memory.Inside base platform.pageSize location → ¬ range.Covers location

structure InstalledPatch.WellFormed (record : InstalledPatch) : Prop where
  nonempty : 0 < record.size
  bounded : record.address + record.size ≤ usizeMax

def PendingPatch.installed (self : PendingPatch) : InstalledPatch := ⟨self.address, self.replacement.length⟩

def PendingPatch.store (self : PendingPatch) : WriteOnce.Store Nat Byte :=
  Memory.cells self.address self.replacement

structure PendingPatch.WellFormed (patch : PendingPatch) : Prop where
  range : patch.installed.WellFormed
  sized : patch.expected.length = patch.replacement.length

structure PatchSession.WellFormed (session : PatchSession) : Prop where
  patches : ∀ patch ∈ session.pending, patch.WellFormed
  apart : session.pending.Pairwise fun first second => first.installed.Apart second.installed

theorem InstalledPatch.Apart.symm {first second : InstalledPatch} (apart : first.Apart second) :
    second.Apart first :=
  Memory.Apart.symm apart

theorem InstalledPatch.Apart.not_covers {first second : InstalledPatch} {location : Nat}
    (apart : first.Apart second) (inside : first.Covers location) : ¬ second.Covers location :=
  Memory.Apart.not_inside apart inside

theorem InstalledPatch.apart_iff {first second : InstalledPatch} (firstFormed : first.WellFormed)
    (secondFormed : second.WellFormed) :
    first.Apart second ↔ ∀ location, first.Covers location → ¬ second.Covers location :=
  Memory.apart_iff firstFormed.nonempty secondFormed.nonempty

theorem store_none_iff {patch : PendingPatch} {location : Nat} :
    patch.store location = none ↔ ¬ patch.installed.Covers location :=
  Memory.cells_none_iff

theorem store_separate {first second : PendingPatch} (apart : first.installed.Apart second.installed) :
    WriteOnce.Separate first.store second.store := by
  intro location
  by_cases inside : first.installed.Covers location
  · exact Or.inr (store_none_iff.mpr (apart.not_covers inside))
  · exact Or.inl (store_none_iff.mpr inside)

def claims (patches : List PendingPatch) : WriteOnce.Store Nat Byte :=
  WriteOnce.merge (patches.map PendingPatch.store)

theorem claims_append (first second : List PendingPatch) :
    claims (first ++ second) = WriteOnce.union (claims first) (claims second) := by
  rw [claims, List.map_append, WriteOnce.merge_append]
  rfl

theorem claims_none_iff {patches : List PendingPatch} {location : Nat} :
    claims patches location = none ↔ ∀ patch ∈ patches, ¬ patch.installed.Covers location := by
  simp [claims, WriteOnce.merge_none_iff, store_none_iff]

theorem stores_separate {patches : List PendingPatch}
    (apart : patches.Pairwise fun first second => first.installed.Apart second.installed) :
    (patches.map PendingPatch.store).Pairwise WriteOnce.Separate :=
  List.pairwise_map.mpr (apart.imp store_separate)

theorem claims_separate {first second : List PendingPatch}
    (apart : ∀ patch ∈ first, ∀ other ∈ second, patch.installed.Apart other.installed) :
    WriteOnce.Separate (claims first) (claims second) := by
  intro location
  by_cases free : claims first location = none
  · exact Or.inl free
  · refine Or.inr (claims_none_iff.mpr fun other member covers => free ?_)
    exact claims_none_iff.mpr fun patch own => (apart patch own other member).symm.not_covers covers

theorem overlay_claims (memory : ProcessMemory) {patches : List PendingPatch}
    (apart : patches.Pairwise fun first second => first.installed.Apart second.installed) :
    overlay memory patches = WriteOnce.overlay memory (claims patches) := by
  rw [claims, ← WriteOnce.foldl_overlay memory (stores_separate apart), List.foldl_map]
  rfl

theorem claims_inside {patches : List PendingPatch}
    (apart : patches.Pairwise fun first second => first.installed.Apart second.installed)
    {patch : PendingPatch} (member : patch ∈ patches) {index : Nat} (within : index < patch.replacement.length) :
    claims patches (patch.address + index) = some patch.replacement[index] :=
  WriteOnce.extends_merge (stores_separate apart) (List.mem_map_of_mem member) _ _
    (Memory.cells_inside within)

theorem readAt_overlay {memory : ProcessMemory} {patches : List PendingPatch}
    (apart : patches.Pairwise fun first second => first.installed.Apart second.installed)
    {patch : PendingPatch} (member : patch ∈ patches) :
    Memory.readAt (overlay memory patches) patch.address patch.replacement.length = patch.replacement := by
  rw [overlay_claims memory apart, Memory.readAt_eq_iff]
  exact fun index within => WriteOnce.overlay_some (claims_inside apart member within)

theorem overlay_outside {memory : ProcessMemory} {patches : List PendingPatch}
    (apart : patches.Pairwise fun first second => first.installed.Apart second.installed) {location : Nat}
    (outside : ∀ patch ∈ patches, ¬ patch.installed.Covers location) :
    overlay memory patches location = memory location := by
  rw [overlay_claims memory apart]
  exact WriteOnce.overlay_none (claims_none_iff.mpr outside)

namespace PatchSession

theorem overlapScan_cases {address size : Nat} {pending : List PendingPatch}
    (formed : ∀ patch ∈ pending, patch.WellFormed) :
    (overlapScan address (address + size) pending = .ok () ∧
        ∀ patch ∈ pending, patch.installed.Apart ⟨address, size⟩) ∨
      ∃ patch ∈ pending, ¬ patch.installed.Apart ⟨address, size⟩ ∧
        overlapScan address (address + size) pending = .err (.overlappingPatch patch.address address) := by
  induction pending with
  | nil => simp [overlapScan]
  | cons patch rest ih =>
    have bounded : checkedAdd patch.address patch.replacement.length =
        some (patch.address + patch.replacement.length) :=
      checkedAdd_some.mpr ⟨rfl, (formed patch List.mem_cons_self).range.bounded⟩
    have later := ih fun other member => formed other (List.mem_cons_of_mem patch member)
    have apart : patch.installed.Apart ⟨address, size⟩ ↔
        ¬ (address < patch.address + patch.replacement.length ∧ patch.address < address + size) := by
      simp only [InstalledPatch.Apart, Memory.Apart, PendingPatch.installed]
      omega
    simp only [overlapScan, bounded, okOr, bind, Except.bind, List.forall_mem_cons, List.exists_mem_cons_iff]
    rw [apart]
    split
    next overlap => simp [overlap]
    next clear => simpa [clear] using later

inductive OverlapAnswer (session : PatchSession) (address size : Nat) : Result Unit → Prop
  | accepted (range : InstalledPatch.WellFormed ⟨address, size⟩)
      (apart : ∀ patch ∈ session.pending, patch.installed.Apart ⟨address, size⟩) :
      OverlapAnswer session address size (.ok ())
  | empty (none : size = 0) : OverlapAnswer session address size (.err .emptyPatch)
  | wraps (beyond : usizeMax < address + size) : OverlapAnswer session address size (.err .addressOverflow)
  | overlaps {patch : PendingPatch} (range : InstalledPatch.WellFormed ⟨address, size⟩)
      (pending : patch ∈ session.pending) (shares : ¬ patch.installed.Apart ⟨address, size⟩) :
      OverlapAnswer session address size (.err (.overlappingPatch patch.address address))

theorem ensurePatchDoesNotOverlap_answers {self : PatchSession} (formed : self.WellFormed) (address size : Nat) :
    OverlapAnswer self address size (self.ensurePatchDoesNotOverlap address size) := by
  simp only [ensurePatchDoesNotOverlap]
  by_cases empty : size = 0
  · simp only [empty, if_true]
    exact .empty rfl
  · simp only [empty, if_false]
    cases stop : checkedAdd address size with
    | none => exact .wraps (checkedAdd_none.mp stop)
    | some sum =>
      obtain ⟨rfl, bounded⟩ := checkedAdd_some.mp stop
      simp only [okOr, bind, Except.bind]
      rcases @overlapScan_cases address size _ formed.patches with ⟨scan, apart⟩ | ⟨patch, pending, shares, scan⟩
      · rw [scan]
        exact .accepted ⟨Nat.pos_of_ne_zero empty, bounded⟩ apart
      · rw [scan]
        exact .overlaps ⟨Nat.pos_of_ne_zero empty, bounded⟩ pending shares

theorem ensurePatchDoesNotOverlap_ok_iff {self : PatchSession} (formed : self.WellFormed)
    {address size : Nat} :
    self.ensurePatchDoesNotOverlap address size = .ok () ↔
      InstalledPatch.WellFormed ⟨address, size⟩ ∧
        ∀ patch ∈ self.pending, patch.installed.Apart ⟨address, size⟩ := by
  have answers := ensurePatchDoesNotOverlap_answers formed address size
  generalize self.ensurePatchDoesNotOverlap address size = answer at answers
  cases answers with
  | accepted range apart => exact iff_of_true rfl ⟨range, apart⟩
  | empty none =>
    simp only [reduceCtorEq, false_iff]
    exact fun accepted => absurd accepted.1.nonempty (by simp [none])
  | wraps beyond =>
    simp only [reduceCtorEq, false_iff]
    exact fun accepted => absurd accepted.1.bounded (Nat.not_le.mpr beyond)
  | overlaps _ pending shares =>
    simp only [reduceCtorEq, false_iff]
    exact fun accepted => shares (accepted.2 _ pending)

theorem WellFormed.new : PatchSession.new.WellFormed := ⟨by simp [PatchSession.new], List.Pairwise.nil⟩

theorem WellFormed.push {self later : PatchSession} (formed : self.WellFormed) {patch : PendingPatch}
    (grown : later.pending = self.pending ++ [patch])
    (accepted : self.ensurePatchDoesNotOverlap patch.installed.address patch.installed.size = .ok ())
    (sized : patch.expected.length = patch.replacement.length) : later.WellFormed := by
  obtain ⟨range, apart⟩ := (ensurePatchDoesNotOverlap_ok_iff formed).mp accepted
  constructor
  · intro other member
    rw [grown] at member
    rcases List.mem_append.mp member with earlier | new
    · exact formed.patches other earlier
    · rw [List.mem_singleton.mp new]
      exact ⟨range, sized⟩
  · rw [grown, List.pairwise_append]
    exact ⟨formed.apart, List.pairwise_singleton _ _, fun earlier member new here => by
      rw [List.mem_singleton.mp here]
      exact apart earlier member⟩

theorem installedScan_cases {patch : PendingPatch} {installed : List InstalledPatch}
    (formed : ∀ record ∈ installed, record.WellFormed) :
    (installedScan patch (patch.address + patch.replacement.length) installed = .ok () ∧
        ∀ record ∈ installed, record.Apart patch.installed) ∨
      ∃ record ∈ installed, ¬ record.Apart patch.installed ∧
        installedScan patch (patch.address + patch.replacement.length) installed =
          .err (.overlappingPatch record.address patch.address) := by
  induction installed with
  | nil => simp [installedScan]
  | cons record rest ih =>
    have bounded : checkedAdd record.address record.size = some (record.address + record.size) :=
      checkedAdd_some.mpr ⟨rfl, (formed record List.mem_cons_self).bounded⟩
    have later := ih fun other member => formed other (List.mem_cons_of_mem record member)
    have apart : record.Apart patch.installed ↔
        ¬ (patch.address < record.address + record.size ∧
          record.address < patch.address + patch.replacement.length) := by
      simp only [InstalledPatch.Apart, Memory.Apart, PendingPatch.installed]
      omega
    simp only [installedScan, bounded, okOr, bind, Except.bind, List.forall_mem_cons, List.exists_mem_cons_iff]
    rw [apart]
    split
    next overlap => simp [overlap]
    next clear => simpa [clear] using later

theorem ensurePatchesDoNotOverlapInstalled_cases {sets : List PermanentPatchSet} {pending : List PendingPatch}
    (formed : ∀ record ∈ sets.flatMap (·.patches), record.WellFormed)
    (ranges : ∀ patch ∈ pending, patch.WellFormed) :
    (ensurePatchesDoNotOverlapInstalled sets pending = .ok () ∧
        ∀ patch ∈ pending, ∀ record ∈ sets.flatMap (·.patches), record.Apart patch.installed) ∨
      ∃ patch ∈ pending, ∃ record ∈ sets.flatMap (·.patches), ¬ record.Apart patch.installed ∧
        ensurePatchesDoNotOverlapInstalled sets pending =
          .err (.overlappingPatch record.address patch.address) := by
  induction pending with
  | nil => simp [ensurePatchesDoNotOverlapInstalled]
  | cons patch rest ih =>
    have bounded : checkedAdd patch.address patch.replacement.length =
        some (patch.address + patch.replacement.length) :=
      checkedAdd_some.mpr ⟨rfl, (ranges patch List.mem_cons_self).range.bounded⟩
    have later := ih fun other member => ranges other (List.mem_cons_of_mem patch member)
    rcases @installedScan_cases patch _ formed with ⟨scan, apart⟩ | ⟨record, member, overlap, scan⟩
    · rcases later with ⟨rest, clear⟩ | ⟨other, own, record, member, overlap, reported⟩
      · refine Or.inl ⟨?_, List.forall_mem_cons.mpr ⟨apart, clear⟩⟩
        simpa [ensurePatchesDoNotOverlapInstalled, bounded, okOr, scan, bind, Except.bind] using rest
      · refine Or.inr ⟨other, List.mem_cons_of_mem patch own, record, member, overlap, ?_⟩
        simpa [ensurePatchesDoNotOverlapInstalled, bounded, okOr, scan, bind, Except.bind] using reported
    · refine Or.inr ⟨patch, List.mem_cons_self, record, member, overlap, ?_⟩
      simp [ensurePatchesDoNotOverlapInstalled, bounded, okOr, scan, bind, Except.bind]

theorem validatePatchSources_ok_iff {memory : ProcessMemory} {pending : List PendingPatch} :
    validatePatchSources memory pending = .ok () ↔
      ∀ patch ∈ pending, Memory.readAt memory patch.address patch.expected.length = patch.expected := by
  induction pending with
  | nil => simp [validatePatchSources]
  | cons patch rest ih =>
    simp only [validatePatchSources, List.forall_mem_cons]
    split
    next changed => simp [changed]
    next same => simp [ih, not_not.mp same]

end PatchSession

end Patchy
