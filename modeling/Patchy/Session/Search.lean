import Patchy.Session.Candidates
import Patchy.Session.Reachable

set_option autoImplicit false

namespace Patchy

structure NextSlot (platform : Platform) (size : Nat) (page : MutableCodePage) (start : Nat) : Prop where
  free : page.used ≤ start
  aligned : start % trampolineAlignment = 0
  least : ∀ other, page.used ≤ other → other % trampolineAlignment = 0 → start ≤ other
  fits : start + size ≤ platform.pageSize

structure Usable (hook : Nat) (build : Builder) (address : Nat) : Prop where
  reachable : ∃ displacement, relativeOffset (hook + nearJumpSize) address = .ok displacement
  exits : ∀ next destination, build address ≠ .error (.error (.relativeJumpOutOfRange next destination))

structure UsablePage (platform : Platform) (hook size : Nat) (build : Builder) (page : MutableCodePage)
    (address : Nat) : Prop where
  slot : ∃ start, NextSlot platform size page start ∧ address = page.mapping + start
  usable : Usable hook build address

structure UsableBase (platform : Platform) (oracle : MappingOracle) (hook : Nat) (build : Builder)
    (base : Nat) : Prop where
  aligned : base % platform.allocationGranularity = 0
  fits : base + (platform.pageSize - 1) ≤ usizeMax
  mapped : oracle.mapMut base = .ok base
  usable : Usable hook build base

def Cooperative (size : Nat) (build : Builder) : Prop :=
  ∀ address, (∃ code, build address = .ok code ∧ code.length = size) ∨
    ∃ next destination, build address = .error (.error (.relativeJumpOutOfRange next destination))

theorem slotRange_iff {platform : Platform} (word : platform.pageSize ≤ usizeMax) {size : Nat}
    {page : MutableCodePage} {range : SlotRange} :
    slotRange page.used size platform.pageSize = some range ↔
      NextSlot platform size page range.start ∧ range.stop = range.start + size := by
  have positive : 0 < trampolineAlignment := by decide
  rw [slotRange_eq_some, checkedAdd_some]
  constructor
  · rintro ⟨up, ⟨sum, -⟩, fits⟩
    obtain ⟨low, aligned, least⟩ := (alignUp_iff positive (by omega)).mp up
    exact ⟨⟨low, aligned, least, by omega⟩, sum.symm⟩
  · rintro ⟨⟨free, aligned, least, fits⟩, stop⟩
    exact ⟨(alignUp_iff positive (by omega)).mpr ⟨free, aligned, least⟩, ⟨stop.symm, by omega⟩, by omega⟩

namespace PatchSession

theorem tryPlace_usable {size : Nat} {build : Builder} (cooperative : Cooperative size build) (hook address : Nat) :
    (¬ Usable hook build address ∧ tryPlace (hook + nearJumpSize) size build address = none) ∨
      ∃ code, Usable hook build address ∧ tryPlace (hook + nearJumpSize) size build address = some (.ok code) := by
  cases reach : relativeOffset (hook + nearJumpSize) address with
  | error failure =>
    refine Or.inl ⟨fun usable => ?_, by simp [tryPlace, reach]⟩
    obtain ⟨displacement, reachable⟩ := usable.reachable
    simp [reach] at reachable
  | ok displacement =>
    rcases cooperative address with ⟨code, built, sized⟩ | ⟨next, destination, stuck⟩
    · exact Or.inr ⟨code, ⟨⟨displacement, reach⟩, by simp [built]⟩,
        tryPlace_ok.mpr ⟨⟨displacement, reach⟩, built, sized⟩⟩
    · exact Or.inl ⟨fun usable => usable.exits next destination stuck, by simp [tryPlace, reach, stuck]⟩

section Searching

variable {platform : Platform} {hook size : Nat} {build : Builder} (word : platform.pageSize ≤ usizeMax)
  (positive : 0 < size) (cooperative : Cooperative size build)

include word positive cooperative in
theorem allocateInPages_step {visited rest : List MutableCodePage} {page : MutableCodePage} {before : Workspace}
    (inSpace : page.mapping + (platform.pageSize - 1) ≤ usizeMax) :
    (∃ address code, UsablePage platform hook size build page address ∧
        (allocateInPages platform (hook + nearJumpSize) size build visited (page :: rest)).exec before =
          (.ok (some address), ⟨{ before.session with pages :=
            visited ++ ⟨page.mapping, address - page.mapping + size⟩ :: rest },
            Memory.writeAt before.memory address code⟩)) ∨
      (∀ address, ¬ UsablePage platform hook size build page address) ∧
        (allocateInPages platform (hook + nearJumpSize) size build visited (page :: rest)).exec before =
          (allocateInPages platform (hook + nearJumpSize) size build (visited ++ [page]) rest).exec before := by
  rw [allocateInPages_cons]
  cases fits : slotRange page.used size platform.pageSize with
  | none =>
    refine Or.inr ⟨?_, rfl⟩
    rintro address ⟨⟨start, next, -⟩, -⟩
    have found := (@slotRange_iff platform word size page ⟨start, start + size⟩).mpr ⟨next, rfl⟩
    simp [fits] at found
  | some range =>
    obtain ⟨next, stop⟩ := (slotRange_iff word).mp fits
    have room := next.fits
    have sum : checkedAdd page.mapping range.start = some (page.mapping + range.start) :=
      checkedAdd_some.mpr ⟨rfl, by omega⟩
    simp only [sum]
    rcases tryPlace_usable cooperative hook (page.mapping + range.start) with
      ⟨useless, answer⟩ | ⟨code, usable, answer⟩
    · refine Or.inr ⟨?_, by simp only [answer]⟩
      rintro address ⟨⟨start, other, rfl⟩, usable⟩
      have below := next.least start other.free other.aligned
      have above := other.least range.start next.free next.aligned
      exact useless (Nat.le_antisymm above below ▸ usable)
    · refine Or.inl ⟨page.mapping + range.start, code, ⟨⟨range.start, next, rfl⟩, usable⟩, ?_⟩
      simp only [answer, Nat.add_sub_cancel_left, stop]

include word positive cooperative in
theorem allocateInPages_search {visited pages : List MutableCodePage} {before : Workspace}
    (inSpace : ∀ page ∈ pages, page.mapping + (platform.pageSize - 1) ≤ usizeMax) :
    (∃ passed page rest address code, pages = passed ++ page :: rest ∧
        UsablePage platform hook size build page address ∧
        (∀ earlier ∈ passed, ∀ other, ¬ UsablePage platform hook size build earlier other) ∧
        (allocateInPages platform (hook + nearJumpSize) size build visited pages).exec before =
          (.ok (some address), ⟨{ before.session with pages :=
            visited ++ passed ++ ⟨page.mapping, address - page.mapping + size⟩ :: rest },
            Memory.writeAt before.memory address code⟩)) ∨
      (∀ page ∈ pages, ∀ address, ¬ UsablePage platform hook size build page address) ∧
        (allocateInPages platform (hook + nearJumpSize) size build visited pages).exec before =
          (.ok none, before) := by
  induction pages generalizing visited with
  | nil => exact Or.inr ⟨by simp, rfl⟩
  | cons page rest ih =>
    obtain ⟨here, later⟩ := List.forall_mem_cons.mp inSpace
    rcases @allocateInPages_step platform hook size build word positive cooperative visited rest page before here with
      ⟨address, code, usable, run⟩ | ⟨useless, skip⟩
    · exact Or.inl ⟨[], page, rest, address, code, rfl, usable, by simp, by simpa using run⟩
    · rw [skip]
      rcases @ih (visited ++ [page]) later with
        ⟨passed, found, rest, address, code, rfl, usable, skipped, run⟩ | ⟨none, run⟩
      · refine Or.inl ⟨page :: passed, found, rest, address, code, rfl, usable, ?_, by simpa using run⟩
        exact List.forall_mem_cons.mpr ⟨useless, skipped⟩
      · exact Or.inr ⟨List.forall_mem_cons.mpr ⟨useless, none⟩, run⟩

def Serves (oracle : MappingOracle) (hook : Nat) (build : Builder) (candidate : Nat) : Prop :=
  oracle.mapMut candidate = .ok candidate ∧ Usable hook build candidate

include cooperative in
theorem tryCandidates_step {oracle : MappingOracle} (options : ∀ candidate, oracle.options candidate = .ok ())
    (small : size ≤ platform.pageSize) (candidate : Nat) (rest : List Nat) (lastError : Option String)
    (before : Workspace) :
    (∃ code, Serves oracle hook build candidate ∧
        (tryCandidates platform oracle hook (hook + nearJumpSize) size build (candidate :: rest) lastError).exec
            before =
          (.ok candidate, ⟨{ before.session with pages := before.session.pages ++ [⟨candidate, size⟩] },
            Memory.writeAt before.memory candidate code⟩)) ∨
      ¬ Serves oracle hook build candidate ∧ ∃ reason,
        (tryCandidates platform oracle hook (hook + nearJumpSize) size build (candidate :: rest) lastError).exec
            before =
          (tryCandidates platform oracle hook (hook + nearJumpSize) size build rest (some reason)).exec before := by
  obtain ⟨reason, run⟩ := tryCandidates_cons platform oracle hook (hook + nearJumpSize) build candidate rest lastError
    before small
  rw [run]
  simp only [options]
  by_cases mapped : oracle.mapMut candidate = .ok candidate
  · simp only [mapped, if_true]
    rcases tryPlace_usable cooperative hook candidate with ⟨useless, answer⟩ | ⟨code, usable, answer⟩
    · exact Or.inr ⟨fun serves => useless serves.2, reason, by simp only [answer]⟩
    · exact Or.inl ⟨code, ⟨mapped, usable⟩, by simp only [answer]⟩
  · exact Or.inr ⟨fun serves => mapped serves.1, reason, by simp only [mapped, if_false]⟩

include cooperative in
theorem tryCandidates_search {oracle : MappingOracle} (options : ∀ candidate, oracle.options candidate = .ok ())
    (small : size ≤ platform.pageSize) {candidates : List Nat} {lastError : Option String} {before : Workspace} :
    (∃ passed candidate rest code, candidates = passed ++ candidate :: rest ∧
        Serves oracle hook build candidate ∧ (∀ other ∈ passed, ¬ Serves oracle hook build other) ∧
        (tryCandidates platform oracle hook (hook + nearJumpSize) size build candidates lastError).exec before =
          (.ok candidate, ⟨{ before.session with pages := before.session.pages ++ [⟨candidate, size⟩] },
            Memory.writeAt before.memory candidate code⟩)) ∨
      (∀ candidate ∈ candidates, ¬ Serves oracle hook build candidate) ∧ ∃ reason,
        (tryCandidates platform oracle hook (hook + nearJumpSize) size build candidates lastError).exec before =
          (.error (.error (.noMemoryCave hook reason)), before) := by
  induction candidates generalizing lastError with
  | nil => exact Or.inr ⟨by simp, lastError, rfl⟩
  | cons candidate rest ih =>
    rcases tryCandidates_step cooperative options small candidate rest lastError before with
      ⟨code, serves, run⟩ | ⟨useless, reason, skip⟩
    · exact Or.inl ⟨[], candidate, rest, code, rfl, serves, by simp, run⟩
    · rw [skip]
      rcases @ih (some reason) with ⟨passed, found, rest, code, rfl, serves, skipped, run⟩ | ⟨none, text, run⟩
      · exact Or.inl ⟨candidate :: passed, found, rest, code, rfl, serves,
          List.forall_mem_cons.mpr ⟨useless, skipped⟩, run⟩
      · exact Or.inr ⟨List.forall_mem_cons.mpr ⟨useless, none⟩, text, run⟩

include cooperative in
theorem allocateTrampolinePage_search {oracle : MappingOracle} (word : platform.pageSize ≤ usizeMax)
    (options : ∀ candidate, oracle.options candidate = .ok ()) (small : size ≤ platform.pageSize)
    (limited : platform.allocationGranularity ≤ 2 ^ 31) (inAddressSpace : hook + nearJumpSize ≤ usizeMax)
    (rounds : (alignUp hook platform.allocationGranularity).isSome) {before : Workspace} :
    (∃ base code, UsableBase platform oracle hook build base ∧
        (∀ other, UsableBase platform oracle hook build other → other = base ∨ Nearer hook base other) ∧
        (allocateTrampolinePage platform oracle hook size build).exec before =
          (.ok base, ⟨{ before.session with pages := before.session.pages ++ [⟨base, size⟩] },
            Memory.writeAt before.memory base code⟩)) ∨
      (∀ base, ¬ UsableBase platform oracle hook build base) ∧ ∃ reason,
        (allocateTrampolinePage platform oracle hook size build).exec before =
          (.error (.error (.noMemoryCave hook reason)), before) := by
  have next : checkedAdd hook nearJumpSize = some (hook + nearJumpSize) := checkedAdd_some.mpr ⟨rfl, inAddressSpace⟩
  have serves (base : Nat) : UsableBase platform oracle hook build base ↔
      PageBase (hook + nearJumpSize) platform.pageSize platform.allocationGranularity base ∧
        Serves oracle hook build base := by
    constructor
    · rintro ⟨aligned, fits, mapped, usable⟩
      exact ⟨⟨aligned, usable.reachable, fits⟩, mapped, usable⟩
    · rintro ⟨place, mapped, usable⟩
      exact ⟨place.aligned, place.fits, mapped, usable⟩
  -- Without a window no page fits anywhere; within it every base is tried, the nearest first.
  cases bounds : candidateBounds (hook + nearJumpSize) platform.pageSize platform.allocationGranularity with
  | error failure =>
    obtain ⟨rfl, nowhere⟩ := candidateBounds_error platform.granularity_pos limited inAddressSpace word bounds
    refine Or.inr ⟨fun base usable => nowhere base ((serves base).mp usable).1, none, ?_⟩
    simp [allocateTrampolinePage, next, okOr, bounds, Procedure.exec_bind]
  | ok window =>
    obtain ⟨minimum, maximum⟩ := window
    obtain ⟨aligned, -, -, -, -⟩ := candidateBounds_ok platform.granularity_pos bounds
    obtain ⟨candidates, created⟩ := @CandidateAddresses.new_total hook minimum maximum _ platform.granularity_pos
      aligned rounds
    have search := candidates_bounded bounds created
    have run : (allocateTrampolinePage platform oracle hook size build).exec before =
        (tryCandidates platform oracle hook (hook + nearJumpSize) size build candidates.collect none).exec
          before := by
      simp only [allocateTrampolinePage, next, okOr, bounds, created, Procedure.exec_bind, Procedure.exec_ofExcept]
    rw [run]
    rcases @tryCandidates_search platform hook size build cooperative oracle options small candidates.collect none
      before with ⟨passed, candidate, rest, code, split, served, skipped, found⟩ | ⟨none, reason, failed⟩
    · refine Or.inl ⟨candidate, code, (serves candidate).mpr ⟨?_, served⟩, fun other usable => ?_, found⟩
      · exact (search.members candidate).mp (by simp [split])
      · obtain ⟨place, serving⟩ := (serves other).mp usable
        exact search.first split skipped place serving
    · refine Or.inr ⟨fun base usable => ?_, reason, failed⟩
      obtain ⟨place, serving⟩ := (serves base).mp usable
      exact none base ((search.members base).mpr place) serving

end Searching

/-- The oracle, asked only where a whole page lies below the end of the address space. -/
def within (platform : Platform) (oracle : MappingOracle) : MappingOracle :=
  { oracle with
    mapMut := fun base =>
      if base + (platform.pageSize - 1) ≤ usizeMax then oracle.mapMut base else .error "" }

theorem tryCandidates_within {platform : Platform} {oracle : MappingOracle} {hook hookNextInstruction size : Nat}
    {build : Builder} {candidates : List Nat} {lastError : Option String}
    (inSpace : ∀ candidate ∈ candidates, candidate + (platform.pageSize - 1) ≤ usizeMax) :
    tryCandidates platform (within platform oracle) hook hookNextInstruction size build candidates lastError =
      tryCandidates platform oracle hook hookNextInstruction size build candidates lastError := by
  induction candidates generalizing lastError with
  | nil => rfl
  | cons candidate rest ih =>
    obtain ⟨here, later⟩ := List.forall_mem_cons.mp inSpace
    have same : tryAllocatePage platform (within platform oracle) candidate hookNextInstruction size build lastError =
        tryAllocatePage platform oracle candidate hookNextInstruction size build lastError := by
      simp only [tryAllocatePage, within, here, if_true]
    simp only [tryCandidates, same, ih later]

theorem allocateTrampoline_within (platform : Platform) (oracle : MappingOracle) (hook size : Nat) (build : Builder) :
    allocateTrampoline platform (within platform oracle) hook size build =
      allocateTrampoline platform oracle hook size build := by
  have pages : allocateTrampolinePage platform (within platform oracle) hook size build =
      allocateTrampolinePage platform oracle hook size build := by
    simp only [allocateTrampolinePage]
    refine Procedure.ofExcept_congr fun next found => ?_
    obtain ⟨rfl, -⟩ := checkedAdd_some.mp (okOr_ok.mp found)
    refine Procedure.ofExcept_congr fun window bounds => Procedure.ofExcept_congr fun candidates created => ?_
    have search := candidates_bounded bounds created
    exact tryCandidates_within fun candidate member => ((search.members candidate).mp member).fits
  simp only [allocateTrampoline, pages]

theorem run_within (platform : Platform) (oracle : MappingOracle) (preparation : Preparation) :
    preparation.run platform (within platform oracle) = preparation.run platform oracle := by
  cases preparation <;>
    simp only [Preparation.run, patchCall, detour, detourTrampoline, detourWith, prepareDetour,
      allocateTrampoline_within]

def InSpace (platform : Platform) (session : PatchSession) : Prop :=
  ∀ base ∈ session.bases, base + (platform.pageSize - 1) ≤ usizeMax

theorem reachable_inSpace {platform : Platform} {workspace : Workspace}
    (reachable : (preparing platform).Reachable workspace) : InSpace platform workspace.session := by
  refine reachable.invariant (fun workspace => InSpace platform workspace.session) ?_ ?_
  · intro workspace initial
    have fresh : workspace.session = new := initial
    simp [fresh, InSpace, new, bases]
  · intro workspace move inSpace _
    cases move with
    | interfere memory => exact inSpace
    | prepare oracle preparation =>
      change InSpace platform ((preparation.run platform oracle).exec workspace).2.session
      rw [← run_within]
      rcases preparation_cases platform (within platform oracle) preparation workspace with
        ⟨failure, ran⟩ | ⟨patch, after, ran, prepared⟩
      · rwa [ran]
      · rw [ran]
        obtain ⟨extra, bases, mapped⟩ := prepared.frame.bases
        intro base member
        rw [bases] at member
        rcases List.mem_append.mp member with earlier | new
        · exact inSpace base earlier
        · have answered := mapped base new
          simp only [within] at answered
          split at answered
          next fits => exact fits
          next => contradiction

/-- The allocator finds a place for a slot if there is one: on the first page that has it, in order of creation, and
    otherwise at the nearest base a page can be mapped at. -/
theorem allocateTrampoline_complete (platform : Platform) (oracle : MappingOracle) (before : Workspace)
    (hook size : Nat) (build : Builder) (reachable : (preparing platform).Reachable before)
    (word : platform.pageSize ≤ usizeMax) (limited : platform.allocationGranularity ≤ 2 ^ 31)
    (inAddressSpace : hook + nearJumpSize ≤ usizeMax)
    (rounds : (alignUp hook platform.allocationGranularity).isSome) (positive : 0 < size)
    (small : size ≤ platform.pageSize) (cooperative : Cooperative size build)
    (options : ∀ candidate, oracle.options candidate = .ok ()) :
    match (allocateTrampoline platform oracle hook size build).exec before with
    | (.ok address, after) =>
        (∃ passed page rest, before.session.pages = passed ++ page :: rest ∧
          UsablePage platform hook size build page address ∧
          (∀ earlier ∈ passed, ∀ other, ¬ UsablePage platform hook size build earlier other) ∧
          after.session.pages = passed ++ ⟨page.mapping, address - page.mapping + size⟩ :: rest ∧
          ∀ other, (allocateTrampoline platform other hook size build).exec before = (.ok address, after)) ∨
        ((∀ page ∈ before.session.pages, ∀ other, ¬ UsablePage platform hook size build page other) ∧
          UsableBase platform oracle hook build address ∧
          (∀ other, UsableBase platform oracle hook build other → other = address ∨ Nearer hook address other) ∧
          after.session.pages = before.session.pages ++ [⟨address, size⟩])
    | (.error failure, after) =>
        (∃ reason, failure = .error (.noMemoryCave hook reason)) ∧ after = before ∧
          (∀ page ∈ before.session.pages, ∀ other, ¬ UsablePage platform hook size build page other) ∧
          ∀ base, ¬ UsableBase platform oracle hook build base := by
  have next : checkedAdd hook nearJumpSize = some (hook + nearJumpSize) := checkedAdd_some.mpr ⟨rfl, inAddressSpace⟩
  have fits : ¬ platform.pageSize < size := Nat.not_lt.mpr small
  have inSpace : ∀ page ∈ before.session.pages, page.mapping + (platform.pageSize - 1) ≤ usizeMax :=
    fun page member => reachable_inSpace reachable page.mapping (List.mem_map_of_mem member)
  -- Existing pages come first, and only if none of them serves a fresh one is mapped.
  rcases @allocateInPages_search platform hook size build word positive cooperative [] before.session.pages before
    inSpace with ⟨passed, page, rest, address, code, split, usable, skipped, found⟩ | ⟨none, missed⟩
  · have run (other : MappingOracle) : (allocateTrampoline platform other hook size build).exec before =
        (.ok address, ⟨{ before.session with pages :=
          passed ++ ⟨page.mapping, address - page.mapping + size⟩ :: rest },
          Memory.writeAt before.memory address code⟩) := by
      simp only [allocateTrampoline, fits, if_false, next, okOr, Procedure.exec_bind, Procedure.exec_ofExcept,
        Procedure.exec_get, found, Procedure.exec_pure, List.nil_append]
    rw [run]
    exact Or.inl ⟨passed, page, rest, split, usable, skipped, rfl, run⟩
  · have run : (allocateTrampoline platform oracle hook size build).exec before =
        (allocateTrampolinePage platform oracle hook size build).exec before := by
      simp only [allocateTrampoline, fits, if_false, next, okOr, Procedure.exec_bind, Procedure.exec_ofExcept,
        Procedure.exec_get, missed]
    rw [run]
    rcases @allocateTrampolinePage_search platform hook size build cooperative oracle word options small limited
      inAddressSpace rounds before with ⟨base, code, usable, nearest, found⟩ | ⟨nowhere, reason, failed⟩
    · rw [found]
      exact Or.inr ⟨none, usable, nearest, rfl⟩
    · rw [failed]
      exact ⟨⟨reason, rfl⟩, rfl, none, nowhere⟩

-- The first page of a session goes to the nearest base that is free.
theorem allocateTrampoline_complete_first_page :
    let platform : Platform := ⟨0x1000, 0x10000, by decide, by decide⟩
    let oracle : MappingOracle := ⟨fun _ => .ok (), fun _ => .ok 0x140000000⟩
    let ret : Builder := fun _ => .ok [0xC3]
    UsableBase platform oracle 0x140001000 ret 0x140000000 ∧
      ∀ other, UsableBase platform oracle 0x140001000 ret other →
        other = 0x140000000 ∨ Nearer 0x140001000 0x140000000 other := by
  intro platform oracle ret
  have found := allocateTrampoline_complete platform oracle ⟨new, fun _ => 0x90⟩ 0x140001000 1 ret (.start rfl)
    (by decide) (by decide) (by decide) (by decide) (by decide) (by decide)
    (fun _ => Or.inl ⟨[0xC3], rfl, rfl⟩) fun _ => rfl
  have run : (allocateTrampoline platform oracle 0x140001000 1 ret).exec ⟨new, fun _ => 0x90⟩ = _ :=
    allocated_below _ rfl rfl (by decide)
  rw [run] at found
  rcases found with ⟨passed, page, rest, split, -⟩ | ⟨-, usable, nearest, -⟩
  · simp [new] at split
  · exact ⟨usable, nearest⟩

end PatchSession

end Patchy
