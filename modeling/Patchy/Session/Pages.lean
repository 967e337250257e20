import Patchy.Session.Overlap

set_option autoImplicit false

namespace Patchy

structure InstallEnvironment.FaultFree (environment : InstallEnvironment) : Prop where
  makeExec : ∀ index, environment.makeExec index = none
  flushPage : ∀ index, environment.flushPage index = none
  protect : ∀ page, environment.protect page = none
  flushPatch : ∀ index, environment.flushPatch index = none
  restore : ∀ page, environment.restore page = none

def InstallEnvironment.calm : InstallEnvironment :=
  ⟨fun _ => none, fun _ => none, fun _ => none, fun memory => memory, fun _ => none, fun _ => none⟩

theorem InstallEnvironment.calm_faultFree : calm.FaultFree :=
  ⟨fun _ => rfl, fun _ => rfl, fun _ => rfl, fun _ => rfl, fun _ => rfl⟩

namespace PatchSession

theorem page_between_iff {page first last pageSize : Nat} (positive : 0 < pageSize) (aligned : page % pageSize = 0) :
    alignDown first pageSize ≤ page ∧ page ≤ alignDown last pageSize ↔ first < page + pageSize ∧ page ≤ last := by
  have low := alignDown_le first pageSize
  have high : first < alignDown first pageSize + pageSize := lt_alignDown_add positive
  rw [le_alignDown_iff positive aligned]
  refine and_congr_left fun _ => ⟨fun below => by omega, fun covered => ?_⟩
  by_contra above
  have gap := aligned_gap aligned (alignDown_mod first pageSize) (Nat.not_le.mp above)
  omega

theorem pageWalk_ok (platform : Platform) {lastPage page : Nat} {pages : Finset Nat}
    (ordered : page ≤ lastPage) (bounded : lastPage ≤ usizeMax) (pageAligned : page % platform.pageSize = 0)
    (lastAligned : lastPage % platform.pageSize = 0) :
    ∃ collected, pageWalk platform lastPage page pages = .ok collected ∧
      ∀ address, address ∈ collected ↔ address ∈ pages ∨
        address % platform.pageSize = 0 ∧ page ≤ address ∧ address ≤ lastPage := by
  have positive := platform.pageSize_pos
  obtain ⟨count, distance⟩ : ∃ count, lastPage = page + platform.pageSize * count := by
    obtain ⟨count, same⟩ := Nat.dvd_of_mod_eq_zero (Nat.sub_mod_eq_zero_of_mod_eq
      (lastAligned.trans pageAligned.symm))
    exact ⟨count, by omega⟩
  -- Induction on the number of pages that are left to walk.
  induction count generalizing page pages with
  | zero =>
    obtain rfl : lastPage = page := by simpa using distance
    refine ⟨insert lastPage pages, by rw [pageWalk, if_pos rfl], fun address => ?_⟩
    rw [Finset.mem_insert, or_comm]
    refine or_congr_right ⟨?_, fun inside => Nat.le_antisymm inside.2.2 inside.2.1⟩
    rintro rfl
    exact ⟨lastAligned, Nat.le_refl _, Nat.le_refl _⟩
  | succ count ih =>
    rw [Nat.mul_succ] at distance
    have short : page + platform.pageSize ≤ lastPage := by omega
    have advanced : checkedAdd page platform.pageSize = some (page + platform.pageSize) :=
      checkedAdd_some.mpr ⟨rfl, short.trans bounded⟩
    obtain ⟨collected, walked, member⟩ := @ih (page + platform.pageSize) (insert page pages) short
      (by simpa using pageAligned) (by omega)
    refine ⟨collected, ?_, fun address => ?_⟩
    · rw [pageWalk, if_neg (by omega)]
      split
      next stuck => simp [advanced] at stuck
      next next same =>
        obtain rfl := Option.some.inj (advanced.symm.trans same)
        exact walked
    · rw [member, Finset.mem_insert]
      -- No aligned address lies between a page and the next one.
      have split : address = page ∨
          (address % platform.pageSize = 0 ∧ page + platform.pageSize ≤ address ∧ address ≤ lastPage) ↔
          address % platform.pageSize = 0 ∧ page ≤ address ∧ address ≤ lastPage := by
        constructor
        · rintro (rfl | ⟨aligned, low, high⟩)
          · exact ⟨pageAligned, Nat.le_refl _, ordered⟩
          · exact ⟨aligned, by omega, high⟩
        · rintro ⟨aligned, low, high⟩
          rcases Nat.eq_or_lt_of_le low with rfl | above
          · exact Or.inl rfl
          · exact Or.inr ⟨aligned, aligned_gap pageAligned aligned above, high⟩
      rw [← split]
      tauto

theorem sourcePages_ok (platform : Platform) {patches : List PendingPatch} {pages : Finset Nat}
    (formed : ∀ patch ∈ patches, patch.WellFormed) :
    ∃ collected, sourcePages platform patches pages = .ok collected ∧
      ∀ address, address ∈ collected ↔ address ∈ pages ∨ ∃ patch ∈ patches,
        address % platform.pageSize = 0 ∧ patch.address < address + platform.pageSize ∧
          address < patch.address + patch.replacement.length := by
  induction patches generalizing pages with
  | nil => exact ⟨pages, rfl, by simp⟩
  | cons patch rest ih =>
    have positive := platform.pageSize_pos
    obtain ⟨nonempty, bounded⟩ : 0 < patch.replacement.length ∧
        patch.address + patch.replacement.length ≤ usizeMax :=
      ⟨(formed patch List.mem_cons_self).range.nonempty, (formed patch List.mem_cons_self).range.bounded⟩
    have offset : checkedSub patch.replacement.length 1 = some (patch.replacement.length - 1) :=
      checkedSub_some.mpr ⟨nonempty, rfl⟩
    have lastByte : checkedAdd patch.address (patch.replacement.length - 1) =
        some (patch.address + (patch.replacement.length - 1)) := checkedAdd_some.mpr ⟨rfl, by omega⟩
    have ordered : alignDown patch.address platform.pageSize ≤
        alignDown (patch.address + (patch.replacement.length - 1)) platform.pageSize := by
      have covered := (page_between_iff positive (alignDown_mod patch.address platform.pageSize)).mpr
        ⟨lt_alignDown_add positive, (alignDown_le _ _).trans (Nat.le_add_right _ (patch.replacement.length - 1))⟩
      exact covered.2
    have reach : alignDown (patch.address + (patch.replacement.length - 1)) platform.pageSize ≤ usizeMax :=
      (alignDown_le _ _).trans (by omega)
    obtain ⟨walked, walk, walkedMember⟩ := @pageWalk_ok platform _ _ pages ordered reach (alignDown_mod _ _)
      (alignDown_mod _ _)
    obtain ⟨collected, rest, member⟩ := @ih walked fun other later =>
      formed other (List.mem_cons_of_mem patch later)
    refine ⟨collected, ?_, fun address => ?_⟩
    · simp [sourcePages, offset, lastByte, okOr, walk, bind, Except.bind, rest]
    · rw [member, walkedMember, List.exists_mem_cons_iff, or_assoc]
      have shares : address % platform.pageSize = 0 ∧ alignDown patch.address platform.pageSize ≤ address ∧
            address ≤ alignDown (patch.address + (patch.replacement.length - 1)) platform.pageSize ↔
          address % platform.pageSize = 0 ∧ patch.address < address + platform.pageSize ∧
            address < patch.address + patch.replacement.length := by
        refine and_congr_right fun aligned => ?_
        rw [page_between_iff positive aligned]
        omega
      rw [shares]

section

variable {platform : Platform} {environment : InstallEnvironment} (faultFree : environment.FaultFree)
  {self : PatchSession} {process : Process}

include faultFree

theorem refusal_of_faultFree (formed : ∀ patch ∈ self.pending, patch.WellFormed) {failure : Failure}
    (refusal : Refusal platform environment self process failure) :
    ensurePatchesDoNotOverlapInstalled process.permanentPatchSets self.pending = .error failure ∨
      ensurePatchesDoNotOverlapInstalled process.permanentPatchSets self.pending = .ok () ∧
        (validatePatchSources process.memory self.pending = .error failure ∨
          validatePatchSources (environment.race process.memory) self.pending = .error failure) := by
  cases refusal with
  | sealing own failed => simp [faultFree.makeExec] at failed
  | pageFlush own failed => simp [faultFree.flushPage] at failed
  | overlap found => exact Or.inl found
  | changed clear found => exact Or.inr ⟨clear, Or.inl found⟩
  | pages found =>
    obtain ⟨pages, covered, -⟩ := @sourcePages_ok platform self.pending ∅ formed
    rw [covered] at found
    contradiction
  | protection own failed => simp [faultFree.protect] at failed
  | raced clear found => exact Or.inr ⟨clear, Or.inr found⟩
  | restoring own failed => simp [faultFree.restore] at failed

theorem not_late_of_faultFree {failure : Failure} : ¬ LateFailure platform environment self failure := by
  rintro (⟨-, failed⟩ | ⟨-, failed⟩)
  · simp [faultFree.flushPatch] at failed
  · simp [faultFree.restore] at failed

theorem install_ok (formed : ∀ patch ∈ self.pending, patch.WellFormed)
    (clear : ensurePatchesDoNotOverlapInstalled process.permanentPatchSets self.pending = .ok ())
    (validated : validatePatchSources process.memory self.pending = .ok ())
    (revalidated : validatePatchSources (environment.race process.memory) self.pending = .ok ()) :
    ((installPermanently platform environment self).exec process).1 = .ok () ∧
      Installed environment self process ((installPermanently platform environment self).exec process).2 := by
  rcases ran : (installPermanently platform environment self).exec process with ⟨result, after⟩
  rcases install_cases ran with ⟨failure, -, refusal, -⟩ | ⟨installed, rfl | ⟨failure, -, late⟩⟩
  · have refused := refusal_of_faultFree faultFree formed refusal
    simp [clear, validated, revalidated] at refused
  · exact ⟨rfl, installed⟩
  · exact absurd late (not_late_of_faultFree faultFree)

end

end PatchSession

end Patchy
