import Mathlib.Data.List.Forall2
import Patchy.Session.Preparation
import Patchy.Shared.Relational

set_option autoImplicit false

namespace Patchy

/-- The same patch, but for the snapshot of a range that is not `trusted`. -/
structure PendingPatch.Alike (trusted : InstalledPatch → Prop) (first second : PendingPatch) : Prop where
  address : first.address = second.address
  replacement : first.replacement = second.replacement
  sized : first.expected.length = second.expected.length
  expected : trusted first.installed → first.expected = second.expected

structure PatchSession.Alike (trusted : InstalledPatch → Prop) (first second : PatchSession) : Prop where
  pages : first.pages = second.pages
  pending : List.Forall₂ (PendingPatch.Alike trusted) first.pending second.pending

structure Process.Alike (region : Nat → Prop) (first second : Process) : Prop where
  protection : first.protection = second.protection
  registry : first.permanentPatchSets = second.permanentPatchSets
  events : first.events = second.events
  memory : ∀ location, region location → first.memory location = second.memory location

structure Workspace.Alike (trusted : InstalledPatch → Prop) (region : Nat → Prop) (first second : Workspace) :
    Prop where
  session : first.session.Alike trusted second.session
  memory : ∀ location, region location → first.memory location = second.memory location

structure CodesAlike (region : Nat → Prop) (first second : List Byte) : Prop where
  length : first.length = second.length
  same : (∃ location, region location) → first = second

def BuildersAlike (region : Nat → Prop) (first second : Builder) : Prop :=
  ∀ address, Procedure.Answers (CodesAlike region) (first address) (second address)

theorem PendingPatch.Alike.installed {trusted : InstalledPatch → Prop} {first second : PendingPatch}
    (alike : first.Alike trusted second) : first.installed = second.installed := by
  simp only [PendingPatch.installed, alike.address, alike.replacement]

theorem PendingPatch.Alike.refl (trusted : InstalledPatch → Prop) (patch : PendingPatch) : patch.Alike trusted patch :=
  ⟨rfl, rfl, rfl, fun _ => rfl⟩

theorem PendingPatch.Alike.eq {trusted : InstalledPatch → Prop} {first second : PendingPatch}
    (alike : first.Alike trusted second) (known : trusted first.installed) : first = second := by
  have same := alike.expected known
  obtain ⟨address, expected, replacement⟩ := first
  obtain ⟨rfl, rfl, -, -⟩ := alike
  obtain rfl : expected = second.expected := same
  rfl

theorem PendingPatch.Alike.mono {trusted fewer : InstalledPatch → Prop} {first second : PendingPatch}
    (alike : first.Alike trusted second) (weaker : ∀ range, fewer range → trusted range) : first.Alike fewer second :=
  ⟨alike.address, alike.replacement, alike.sized, fun known => alike.expected (weaker _ known)⟩

theorem Process.Alike.refl (region : Nat → Prop) (process : Process) : process.Alike region process :=
  ⟨rfl, rfl, rfl, fun _ _ => rfl⟩

theorem BuildersAlike.refl (region : Nat → Prop) (build : Builder) : BuildersAlike region build build := by
  intro address
  cases build address with
  | error failure => exact .error failure
  | ok code => exact .ok ⟨rfl, fun _ => rfl⟩

theorem copyFromSlice_alike {region : Nat → Prop} {first second : List Byte} (alike : CodesAlike region first second)
    (start stop : Nat) (source : List Byte) :
    Procedure.Answers (CodesAlike region) (copyFromSlice first start stop source)
      (copyFromSlice second start stop source) := by
  simp only [copyFromSlice, alike.length]
  split
  next => exact .ok ⟨by simp [alike.length], fun some => by rw [alike.same some]⟩
  next => exact .error _

namespace PatchSession

theorem Alike.refl (trusted : InstalledPatch → Prop) (session : PatchSession) : session.Alike trusted session :=
  ⟨rfl, List.forall₂_same.mpr fun patch _ => .refl trusted patch⟩

theorem Alike.mono {trusted fewer : InstalledPatch → Prop} {first second : PatchSession}
    (alike : first.Alike trusted second) (weaker : ∀ range, fewer range → trusted range) : first.Alike fewer second :=
  ⟨alike.pages, alike.pending.imp fun _ _ same => same.mono weaker⟩

theorem Alike.fewer {trusted fewer : InstalledPatch → Prop} {first second : Option PatchSession}
    (alike : Option.Rel (PatchSession.Alike trusted) first second) (weaker : ∀ range, fewer range → trusted range) :
    Option.Rel (PatchSession.Alike fewer) first second := by
  cases alike with
  | none => exact .none
  | some same => exact .some (same.mono weaker)

theorem pending_twin {trusted : InstalledPatch → Prop} {first second : List PendingPatch}
    (alike : List.Forall₂ (PendingPatch.Alike trusted) first second) {patch : PendingPatch} (member : patch ∈ second) :
    ∃ twin ∈ first, twin.Alike trusted patch := by
  induction alike with
  | nil => exact absurd member List.not_mem_nil
  | cons head _ ih =>
    rcases List.mem_cons.mp member with rfl | later
    · exact ⟨_, List.mem_cons_self, head⟩
    · obtain ⟨twin, known, same⟩ := ih later
      exact ⟨twin, List.mem_cons_of_mem _ known, same⟩

theorem overlapScan_alike {trusted : InstalledPatch → Prop} {first second : List PendingPatch}
    (alike : List.Forall₂ (PendingPatch.Alike trusted) first second) (address stop : Nat) :
    overlapScan address stop first = overlapScan address stop second := by
  induction alike with
  | nil => rfl
  | cons head _ ih => simp only [overlapScan, head.address, head.replacement, ih]

theorem ensurePatchesDoNotOverlapInstalled_alike {trusted : InstalledPatch → Prop} {first second : List PendingPatch}
    (alike : List.Forall₂ (PendingPatch.Alike trusted) first second) (sets : List PermanentPatchSet) :
    ensurePatchesDoNotOverlapInstalled sets first = ensurePatchesDoNotOverlapInstalled sets second := by
  have scan {patch other : PendingPatch} (same : patch.Alike trusted other) (stop : Nat)
      (installed : List InstalledPatch) : installedScan patch stop installed = installedScan other stop installed := by
    induction installed with
    | nil => rfl
    | cons record rest ih => simp only [installedScan, same.address, ih]
  induction alike with
  | nil => rfl
  | cons head _ ih =>
    simp only [ensurePatchesDoNotOverlapInstalled, head.address, head.replacement, scan head, ih]

theorem Alike.eq {trusted : InstalledPatch → Prop} {first second : PatchSession} (alike : first.Alike trusted second)
    (known : ∀ patch ∈ first.pending, trusted patch.installed) : first = second := by
  obtain ⟨pages, pending⟩ := first
  obtain ⟨otherPages, others⟩ := second
  obtain ⟨rfl, together⟩ := alike
  simp only [mk.injEq, true_and]
  change List.Forall₂ _ pending others at together
  induction together with
  | nil => rfl
  | cons head _ ih =>
    exact congrArg₂ _ (head.eq (known _ List.mem_cons_self)) (ih fun patch member =>
      known patch (List.mem_cons_of_mem _ member))

theorem Alike.ensurePatchDoesNotOverlap {trusted : InstalledPatch → Prop} {first second : PatchSession}
    (alike : first.Alike trusted second) (address size : Nat) :
    first.ensurePatchDoesNotOverlap address size = second.ensurePatchDoesNotOverlap address size := by
  simp only [PatchSession.ensurePatchDoesNotOverlap, overlapScan_alike alike.pending]

theorem callBuilder_alike {region : Nat → Prop} {first second : List Byte} (alike : CodesAlike region first second)
    (jumpDisplacement continuation : Nat) :
    BuildersAlike region (callBuilder first jumpDisplacement continuation)
      (callBuilder second jumpDisplacement continuation) := by
  intro address
  simp only [callBuilder, alike.length]
  refine (Procedure.Answers.refl _).bind fun next _ same => ?_
  subst same
  refine (Procedure.Answers.refl _).bind fun displacement _ same => ?_
  subst same
  exact copyFromSlice_alike alike _ _ _

section

variable {trusted : InstalledPatch → Prop} {region : Nat → Prop} {build other : Builder} (platform : Platform)
  (oracle : MappingOracle)

theorem copyIntoMapping_related {code otherCode : List Byte} (alike : CodesAlike region code otherCode)
    (mapping start stop : Nat) :
    Procedure.Related (Workspace.Alike trusted region) Eq (copyIntoMapping platform mapping start stop code)
      (copyIntoMapping platform mapping start stop otherCode) := by
  simp only [copyIntoMapping, alike.length]
  split
  next =>
    refine Procedure.related_modify fun first second together => ⟨together.session, fun location known => ?_⟩
    rw [alike.same ⟨location, known⟩]
    simp only [Memory.writeAt, together.memory location known]
  next => exact Procedure.related_throw _

theorem setPages_related (pages : List MutableCodePage) :
    Procedure.Related (Workspace.Alike trusted region) Eq (setPages pages) (setPages pages) :=
  Procedure.related_modify fun _ _ together => ⟨⟨rfl, together.session.pending⟩, together.memory⟩

theorem allocateInPages_related (builders : BuildersAlike region build other) (hookNextInstruction size : Nat)
    (visited pages : List MutableCodePage) :
    Procedure.Related (Workspace.Alike trusted region) Eq
      (allocateInPages platform hookNextInstruction size build visited pages)
      (allocateInPages platform hookNextInstruction size other visited pages) := by
  induction pages generalizing visited with
  | nil => exact Procedure.related_pure rfl
  | cons page rest ih =>
    simp only [allocateInPages]
    cases slotRange page.used size platform.pageSize with
    | none => exact ih _
    | some range =>
      refine (Procedure.related_ofExcept (.refl _)).bind fun address _ same => ?_
      subst same
      cases relativeOffset hookNextInstruction address with
      | error failure => exact ih _
      | ok displacement =>
        have built := builders address
        generalize build address = answer at built
        generalize other address = otherAnswer at built
        cases built with
        | error failure =>
          rcases failure with error | _
          · cases error <;> first | exact ih _ | exact Procedure.related_throw _
          · exact Procedure.related_throw _
        | ok alike =>
          simp only [alike.length]
          refine (Procedure.related_ofExcept (.refl _)).bind fun _ _ _ => ?_
          refine (copyIntoMapping_related platform alike _ _ _).bind fun _ _ _ => ?_
          exact (setPages_related _).bind fun _ _ _ => Procedure.related_pure rfl

theorem tryAllocatePage_related (builders : BuildersAlike region build other) (candidate hookNextInstruction size : Nat)
    (lastError : Option String) :
    Procedure.Related (Workspace.Alike trusted region) Eq
      (tryAllocatePage platform oracle candidate hookNextInstruction size build lastError)
      (tryAllocatePage platform oracle candidate hookNextInstruction size other lastError) := by
  simp only [tryAllocatePage]
  cases oracle.options candidate with
  | error error => exact Procedure.related_throw _
  | ok done =>
    cases oracle.mapMut candidate with
    | error error => exact Procedure.related_pure rfl
    | ok actual =>
      by_cases moved : actual ≠ candidate
      · simp only [if_pos moved]
        exact Procedure.related_pure rfl
      · simp only [if_neg moved]
        cases relativeOffset hookNextInstruction actual with
        | error failure => exact Procedure.related_pure rfl
        | ok displacement =>
          have built := builders actual
          generalize build actual = answer at built
          generalize other actual = otherAnswer at built
          cases built with
          | error failure =>
            rcases failure with error | _
            · cases error <;> first | exact Procedure.related_pure rfl | exact Procedure.related_throw _
            · exact Procedure.related_throw _
          | ok alike =>
            simp only [alike.length]
            refine (Procedure.related_ofExcept (.refl _)).bind fun _ _ _ => ?_
            refine (copyIntoMapping_related platform alike _ _ _).bind fun _ _ _ => ?_
            refine Procedure.related_get_bind fun first second together => ?_
            rw [together.session.pages]
            exact (setPages_related _).bind fun _ _ _ => Procedure.related_pure rfl

theorem tryCandidates_related (builders : BuildersAlike region build other) (hook hookNextInstruction size : Nat)
    (candidates : List Nat) (lastError : Option String) :
    Procedure.Related (Workspace.Alike trusted region) Eq
      (tryCandidates platform oracle hook hookNextInstruction size build candidates lastError)
      (tryCandidates platform oracle hook hookNextInstruction size other candidates lastError) := by
  induction candidates generalizing lastError with
  | nil => exact Procedure.related_throw _
  | cons candidate rest ih =>
    simp only [tryCandidates]
    refine (tryAllocatePage_related platform oracle builders _ _ _ _).bind fun found _ same => ?_
    subst same
    rcases found with ⟨_ | address, lastError⟩
    · exact ih _
    · exact Procedure.related_pure rfl

theorem allocateTrampoline_related (builders : BuildersAlike region build other) (hook size : Nat) :
    Procedure.Related (Workspace.Alike trusted region) Eq (allocateTrampoline platform oracle hook size build)
      (allocateTrampoline platform oracle hook size other) := by
  simp only [allocateTrampoline]
  split
  next => exact Procedure.related_throw _
  next =>
    refine (Procedure.related_ofExcept (.refl _)).bind fun next _ same => ?_
    subst same
    refine Procedure.related_get_bind fun first second together => ?_
    rw [together.session.pages]
    refine (allocateInPages_related platform builders _ _ _ _).bind fun found _ same => ?_
    subst same
    cases found with
    | some address => exact Procedure.related_pure rfl
    | none =>
      simp only [allocateTrampolinePage]
      refine (Procedure.related_ofExcept (.refl _)).bind fun next _ same => ?_
      subst same
      refine (Procedure.related_ofExcept (.refl _)).bind fun bounds _ same => ?_
      subst same
      refine (Procedure.related_ofExcept (.refl _)).bind fun candidates _ same => ?_
      subst same
      exact tryCandidates_related platform oracle builders _ _ _ _ _

theorem pushPending_related {first second : PendingPatch} (alike : first.Alike trusted second) :
    Procedure.Related (Workspace.Alike trusted region) Eq (pushPending first) (pushPending second) :=
  Procedure.related_modify fun _ _ together =>
    ⟨⟨together.session.pages, List.rel_append together.session.pending (.cons alike .nil)⟩, together.memory⟩

theorem prepareDetour_related {address : Nat} {overwritten otherOverwritten : List Byte}
    (length : overwritten.length = otherOverwritten.length)
    (same : trusted ⟨address, overwritten.length⟩ → overwritten = otherOverwritten)
    (builders : BuildersAlike region build other) (size : Nat) :
    Procedure.Related (Workspace.Alike trusted region) Eq
      (prepareDetour platform oracle address overwritten size build)
      (prepareDetour platform oracle address otherOverwritten size other) := by
  simp only [prepareDetour]
  refine Procedure.related_get_bind fun first second together => ?_
  rw [together.session.ensurePatchDoesNotOverlap, length]
  refine (Procedure.related_ofExcept (.refl _)).bind fun _ _ _ => ?_
  refine (allocateTrampoline_related platform oracle builders _ _).bind fun trampolineAddress _ equal => ?_
  subst equal
  cases jumps : buildNearJump address trampolineAddress otherOverwritten.length with
  | error failure => exact Procedure.related_throw _
  | ok jump =>
    have alike : PendingPatch.Alike trusted ⟨address, overwritten, jump⟩ ⟨address, otherOverwritten, jump⟩ := by
      refine ⟨rfl, rfl, length, fun known => same ?_⟩
      simpa only [PendingPatch.installed, (buildNearJump_ok jumps).1, length] using known
    exact (pushPending_related alike).bind fun _ _ _ => Procedure.related_pure rfl

section

variable {first second : Workspace} {address size : Nat} (together : Workspace.Alike trusted region first second)
  (same : trusted ⟨address, size⟩ → Memory.readAt first.memory address size = Memory.readAt second.memory address size)
  (known : ∀ location, region location → trusted ⟨address, size⟩)

include together same

theorem detourWith_related (trampolineSize : Nat) (build : Builder) :
    Procedure.Answers Eq ((detourWith platform oracle address size trampolineSize build).exec first).1
        ((detourWith platform oracle address size trampolineSize build).exec second).1 ∧
      Workspace.Alike trusted region ((detourWith platform oracle address size trampolineSize build).exec first).2
        ((detourWith platform oracle address size trampolineSize build).exec second).2 := by
  by_cases small : size < nearJumpSize
  · simp only [detourWith, if_pos small, Procedure.exec_throw]
    exact ⟨.error _, together⟩
  · by_cases empty : trampolineSize = 0
    · simp only [detourWith, if_neg small, if_pos empty, Procedure.exec_throw]
      exact ⟨.error _, together⟩
    · simp only [detourWith, if_neg small, if_neg empty, exec_readSource_bind]
      exact prepareDetour_related platform oracle (by simp) (by simpa using same) (.refl region build) _ together

theorem overwrite_related (data : List Byte) (sized : data.length = size) :
    Procedure.Answers Eq ((overwrite address data).exec first).1 ((overwrite address data).exec second).1 ∧
      Workspace.Alike trusted region ((overwrite address data).exec first).2
        ((overwrite address data).exec second).2 := by
  subst sized
  by_cases empty : data.isEmpty
  · simp only [overwrite, if_pos empty, Procedure.exec_throw]
    exact ⟨.error _, together⟩
  · simp only [overwrite, if_neg empty, exec_readSource_bind]
    have alike : PendingPatch.Alike trusted ⟨address, Memory.readAt first.memory address data.length, data⟩
        ⟨address, Memory.readAt second.memory address data.length, data⟩ := ⟨rfl, rfl, by simp, same⟩
    have scan : Procedure.Related (Workspace.Alike trusted region) Eq
        (do
          Procedure.ofExcept ((← get).session.ensurePatchDoesNotOverlap address data.length)
          pushPending ⟨address, Memory.readAt first.memory address data.length, data⟩
          return ⟨none⟩ : SessionM Patch)
        (do
          Procedure.ofExcept ((← get).session.ensurePatchDoesNotOverlap address data.length)
          pushPending ⟨address, Memory.readAt second.memory address data.length, data⟩
          return ⟨none⟩) := by
      refine Procedure.related_get_bind fun one other alone => ?_
      rw [alone.session.ensurePatchDoesNotOverlap]
      refine (Procedure.related_ofExcept (.refl _)).bind fun _ _ _ => ?_
      exact (pushPending_related alike).bind fun _ _ _ => Procedure.related_pure rfl
    exact scan together

include known

theorem patchCall_related (function : Nat) (saveOverwritten : Bool) (allowReturn : ReturnType) :
    Procedure.Answers Eq ((patchCall platform oracle address function size saveOverwritten allowReturn).exec first).1
        ((patchCall platform oracle address function size saveOverwritten allowReturn).exec second).1 ∧
      Workspace.Alike trusted region
        ((patchCall platform oracle address function size saveOverwritten allowReturn).exec first).2
        ((patchCall platform oracle address function size saveOverwritten allowReturn).exec second).2 := by
  by_cases small : size < nearJumpSize
  · simp only [patchCall, if_pos small, Procedure.exec_throw]
    exact ⟨.error _, together⟩
  · simp only [patchCall, if_neg small, exec_readSource_bind]
    have codes : CodesAlike region
        (callPrefix (Memory.readAt first.memory address size) function saveOverwritten allowReturn)
        (callPrefix (Memory.readAt second.memory address size) function saveOverwritten allowReturn) := by
      refine ⟨by simp only [callPrefix]; split <;> simp, ?_⟩
      rintro ⟨location, inside⟩
      rw [same (known location inside)]
    have whole : CodesAlike region
        (callPrefix (Memory.readAt first.memory address size) function saveOverwritten allowReturn ++
          [nearJump, 0, 0, 0, 0])
        (callPrefix (Memory.readAt second.memory address size) function saveOverwritten allowReturn ++
          [nearJump, 0, 0, 0, 0]) :=
      ⟨by simp [codes.length], fun some => by rw [codes.same some]⟩
    cases stop : checkedAdd address size with
    | none => exact ⟨.error _, together⟩
    | some continuation =>
      have length : (Memory.readAt first.memory address size).length =
          (Memory.readAt second.memory address size).length := by
        simp
      simp only [okOr, Procedure.exec_bind, Procedure.exec_ofExcept]
      rw [codes.length, whole.length]
      exact prepareDetour_related platform oracle length (by simpa using same) (callBuilder_alike whole _ _) _ together

end

theorem run_related {preparation : Preparation} {first second : Workspace}
    (together : Workspace.Alike trusted region first second)
    (same : trusted preparation.source → Memory.readAt first.memory preparation.source.address preparation.source.size =
      Memory.readAt second.memory preparation.source.address preparation.source.size)
    (known : ∀ location, region location → trusted preparation.source) :
    ((preparation.run platform oracle).exec first).1 = ((preparation.run platform oracle).exec second).1 ∧
      Workspace.Alike trusted region ((preparation.run platform oracle).exec first).2
        ((preparation.run platform oracle).exec second).2 := by
  refine And.imp_left Procedure.Answers.eq ?_
  cases preparation with
  | overwrite address data => exact overwrite_related together same data rfl
  | patchCall address function size saveOverwritten allowReturn =>
    exact patchCall_related platform oracle together same known function saveOverwritten allowReturn
  | detour address size code => exact detourWith_related platform oracle together same _ _
  | detourTrampoline address size trampoline =>
    simp only [Preparation.run, detourTrampoline]
    split
    next => exact ⟨.error _, together⟩
    next => exact detourWith_related platform oracle together same _ _
  | detourWith address size trampolineSize build => exact detourWith_related platform oracle together same _ _

end

theorem run_outside (platform : Platform) (oracle : MappingOracle) (preparation : Preparation) (before : Workspace)
    {location : Nat} (outside : ∀ base ∈ ((preparation.run platform oracle).exec before).2.session.bases,
      ¬ Memory.Inside base platform.pageSize location) :
    ((preparation.run platform oracle).exec before).2.memory location = before.memory location := by
  rcases preparation_cases platform oracle preparation before with ⟨failure, ran⟩ | ⟨patch, workspace, ran, prepared⟩
  · rw [ran]
  · rw [ran] at outside ⊢
    exact prepared.frame.memory location outside

section

variable {region : Nat → Prop} {environment : InstallEnvironment}

theorem virtualProtect_related (fails : Nat → Option String) (site : ProtectionSite) (page flags : Nat) :
    Procedure.Related (Process.Alike region) Eq (virtualProtect fails site page flags)
      (virtualProtect fails site page flags) := by
  intro first second alike
  cases failed : fails page <;>
    simp only [virtualProtect, failed, record, Procedure.exec_bind, Procedure.exec_get, Procedure.exec_modify,
      Procedure.exec_pure, alike.protection, alike.events]
  · exact ⟨.ok rfl, rfl, alike.registry, rfl, alike.memory⟩
  · exact ⟨.ok rfl, rfl, alike.registry, rfl, alike.memory⟩

theorem sealPages_related {states : Process → Process → Prop} (index : Nat) (pages : List MutableCodePage) :
    Procedure.Related states Eq (sealPages environment index pages)
      (sealPages environment index pages) := by
  induction pages generalizing index with
  | nil => exact Procedure.related_pure rfl
  | cons page rest ih =>
    simp only [sealPages]
    split
    next => exact Procedure.related_throw _
    next =>
      refine (ih (index + 1)).bind fun executable _ same => ?_
      subst same
      exact Procedure.related_pure rfl

theorem flushAll_related {states : Process → Process → Prop} (fails : Nat → Option String) (index : Nat)
    (addresses : List Nat) :
    Procedure.Related states Eq (flushAll fails index addresses) (flushAll fails index addresses) := by
  induction addresses generalizing index with
  | nil => exact Procedure.related_pure rfl
  | cons address rest ih =>
    simp only [flushAll]
    split
    next => exact Procedure.related_throw _
    next => exact ih (index + 1)

theorem sealPages_anywhere (pages : List MutableCodePage) (process other : Process) :
    (sealPages environment 0 pages).exec other = (((sealPages environment 0 pages).exec process).1, other) :=
  Procedure.ReadOnly.exec_anywhere (sealPages_readOnly _ _ _) (sealPages_related _ _) process other

theorem flushAll_anywhere (fails : Nat → Option String) (addresses : List Nat) (process other : Process) :
    (flushAll fails 0 addresses).exec other = (((flushAll fails 0 addresses).exec process).1, other) :=
  Procedure.ReadOnly.exec_anywhere (flushAll_readOnly _ _ _) (flushAll_related _ _ _) process other

theorem validatePatchSources_alike {first second : ProcessMemory} {pending : List PendingPatch}
    (agree : ∀ patch ∈ pending, ∀ location, Memory.Inside patch.address patch.expected.length location →
      first location = second location) :
    validatePatchSources first pending = validatePatchSources second pending := by
  induction pending with
  | nil => rfl
  | cons patch rest ih =>
    have read := Memory.readAt_congr (agree patch List.mem_cons_self)
    simp only [validatePatchSources, read, ih fun other member => agree other (List.mem_cons_of_mem _ member)]

end

end PatchSession

end Patchy
