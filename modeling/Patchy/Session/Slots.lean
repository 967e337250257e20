import Mathlib.Data.List.Pairwise
import Patchy.Session.Allocation

set_option autoImplicit false

namespace Patchy

structure SlotRequest where
  hook : Nat
  size : Nat
  build : Builder
  result : Result Nat

namespace PatchSession

/-- The session has answered the requests of the list, and others may have written outside its pages between
    them. A mapping is aligned and shares nothing with the pages already mapped. -/
inductive Allocates (platform : Platform) : List SlotRequest → Workspace → Prop
  | start (memory : ProcessMemory) : Allocates platform [] ⟨new, memory⟩
  | interfere {log : List SlotRequest} {workspace : Workspace} (memory : ProcessMemory)
      (before : Allocates platform log workspace)
      (kept : ∀ base ∈ workspace.session.bases, ∀ location, Memory.Inside base platform.pageSize location →
        memory location = workspace.memory location) :
      Allocates platform log { workspace with memory := memory }
  | allocate {log : List SlotRequest} {workspace : Workspace} (oracle : MappingOracle) (hook size : Nat)
      (build : Builder) (before : Allocates platform log workspace) (positive : 0 < size)
      (fresh : ∀ candidate base, oracle.mapMut candidate = .ok base → base % trampolineAlignment = 0 ∧
        ∀ other ∈ workspace.session.bases, Memory.Apart base platform.pageSize other platform.pageSize) :
      Allocates platform
        (log ++ [⟨hook, size, build, ((allocateTrampoline platform oracle hook size build).exec workspace).1⟩])
        ((allocateTrampoline platform oracle hook size build).exec workspace).2

def Holds (workspace : Workspace) (address : Nat) (code : List Byte) : Prop :=
  Memory.readAt workspace.memory address code.length = code ∧
    ∃ page ∈ workspace.session.pages, page.mapping ≤ address ∧ address + code.length ≤ page.mapping + page.used

theorem Slot.bases {platform : Platform} {oracle : MappingOracle} {size address : Nat}
    {pages later : List MutableCodePage} (slot : Slot platform oracle size pages address later) :
    ∃ base extra, later.map (·.mapping) = pages.map (·.mapping) ++ extra ∧ base ∈ later.map (·.mapping) ∧
      (∀ fresh ∈ extra, oracle.mapMut fresh = .ok fresh) ∧ base ≤ address ∧
      address + size ≤ base + platform.pageSize := by
  cases slot with
  | existing place fits =>
    obtain ⟨-, -, stop, capacity⟩ := slotRange_some fits
    rename_i visited rest page range
    refine ⟨page.mapping, [], by simp [place], by simp, by simp, by omega, by omega⟩
  | fresh mapped fits => exact ⟨address, [address], by simp, by simp, by simpa using mapped, Nat.le_refl _, by omega⟩

theorem Slot.keeps {platform : Platform} {oracle : MappingOracle} {size address : Nat}
    {pages later : List MutableCodePage} (slot : Slot platform oracle size pages address later)
    (used : ∀ page ∈ pages, page.used ≤ platform.pageSize)
    (apart : pages.Pairwise fun first second =>
      Memory.Apart first.mapping platform.pageSize second.mapping platform.pageSize)
    (fresh : ∀ base, oracle.mapMut base = .ok base → ∀ page ∈ pages,
      Memory.Apart page.mapping platform.pageSize base platform.pageSize) :
    (∀ page ∈ later, page.used ≤ platform.pageSize) ∧
      (later.Pairwise fun first second =>
        Memory.Apart first.mapping platform.pageSize second.mapping platform.pageSize) ∧
      (∃ page ∈ later, page.mapping ≤ address ∧ address + size ≤ page.mapping + page.used) ∧
      ∀ page ∈ pages, (∃ kept ∈ later, kept.mapping = page.mapping ∧ page.used ≤ kept.used) ∧
        ∀ start length, page.mapping ≤ start → start + length ≤ page.mapping + page.used →
          Memory.Apart start length address size := by
  -- A fresh page shares nothing with the others; on an existing page the slot begins where the used part ends.
  cases slot with
  | fresh mapped fits =>
    refine ⟨?_, ?_, ⟨⟨address, size⟩, by simp, Nat.le_refl _, Nat.le_refl _⟩, ?_⟩
    · intro page member
      rcases List.mem_append.mp member with earlier | new
      · exact used page earlier
      · rw [List.mem_singleton.mp new]
        exact fits
    · rw [List.pairwise_append]
      exact ⟨apart, List.pairwise_singleton _ _, fun page member new here => by
        rw [List.mem_singleton.mp here]
        exact fresh address mapped page member⟩
    · intro page member
      refine ⟨⟨page, List.mem_append_left _ member, rfl, Nat.le_refl _⟩, fun start length low high => ?_⟩
      have away := fresh address mapped page member
      have bounded := used page member
      simp only [Memory.Apart] at away ⊢
      omega
  | existing place fits =>
    rename_i visited rest page range
    obtain ⟨low, -, stop, capacity⟩ := slotRange_some fits
    subst place
    obtain ⟨visitedApart, restApart, across⟩ := List.pairwise_append.mp apart
    obtain ⟨pageApart, restApart⟩ := List.pairwise_cons.mp restApart
    refine ⟨?_, ?_, ⟨⟨page.mapping, range.stop⟩, by simp, Nat.le_add_right _ _, by simp only; omega⟩, ?_⟩
    · intro other member
      rcases List.mem_append.mp member with earlier | later
      · exact used other (List.mem_append_left _ earlier)
      · rcases List.mem_cons.mp later with rfl | later
        · exact capacity
        · exact used other (List.mem_append_right _ (List.mem_cons_of_mem page later))
    · rw [List.pairwise_append, List.pairwise_cons]
      refine ⟨visitedApart, ⟨pageApart, restApart⟩, fun earlier member other later => ?_⟩
      rcases List.mem_cons.mp later with rfl | later
      · exact across earlier member page List.mem_cons_self
      · exact across earlier member other (List.mem_cons_of_mem page later)
    · have elsewhere {other : MutableCodePage} (bounded : other.used ≤ platform.pageSize)
          (away : Memory.Apart other.mapping platform.pageSize page.mapping platform.pageSize) (start length : Nat)
          (from' : other.mapping ≤ start) (to' : start + length ≤ other.mapping + other.used) :
          Memory.Apart start length (page.mapping + range.start) size := by
        simp only [Memory.Apart] at away ⊢
        omega
      intro other member
      rcases List.mem_append.mp member with earlier | later
      · exact ⟨⟨other, List.mem_append_left _ earlier, rfl, Nat.le_refl _⟩,
          elsewhere (used other member) (across other earlier page List.mem_cons_self)⟩
      · rcases List.mem_cons.mp later with rfl | later
        · refine ⟨⟨⟨other.mapping, range.stop⟩, by simp, rfl, by simp only; omega⟩, fun start length from' to' => ?_⟩
          simp only [Memory.Apart]
          omega
        · exact ⟨⟨other, List.mem_append_right _ (List.mem_cons_of_mem _ later), rfl, Nat.le_refl _⟩,
            elsewhere (used other member) (pageApart other later).symm⟩

theorem Placed.keeps {platform : Platform} {oracle : MappingOracle} {hookNextInstruction size address : Nat}
    {build : Builder} {before after : Workspace}
    (placed : Placed platform oracle hookNextInstruction size build before after address)
    (used : ∀ page ∈ before.session.pages, page.used ≤ platform.pageSize)
    (apart : before.session.pages.Pairwise fun first second =>
      Memory.Apart first.mapping platform.pageSize second.mapping platform.pageSize)
    (fresh : ∀ base, oracle.mapMut base = .ok base → ∀ other ∈ before.session.bases,
      Memory.Apart base platform.pageSize other platform.pageSize) :
    (∀ page ∈ after.session.pages, page.used ≤ platform.pageSize) ∧
      (after.session.pages.Pairwise fun first second =>
        Memory.Apart first.mapping platform.pageSize second.mapping platform.pageSize) ∧
      (∃ code, build address = .ok code ∧ code.length = size ∧ Holds after address code) ∧
      ∀ start code, Holds before start code →
        Holds after start code ∧ Memory.Apart start code.length address size := by
  obtain ⟨code, built, sized, written⟩ := placed.code
  obtain ⟨laterUsed, laterApart, own, old⟩ := placed.slot.keeps used apart fun base mapped page member =>
    (fresh base mapped page.mapping (List.mem_map_of_mem member)).symm
  refine ⟨laterUsed, laterApart, ⟨code, built, sized, ?_, sized ▸ own⟩, ?_⟩
  · rw [written, Memory.readAt_writeAt_same]
  · rintro start contents ⟨stored, page, known, low, high⟩
    obtain ⟨⟨kept, member, base, more⟩, elsewhere⟩ := old page known
    have separate := elsewhere start contents.length low high
    refine ⟨⟨?_, kept, member, by omega, by omega⟩, separate⟩
    rw [written, Memory.readAt_writeAt_apart _ (sized ▸ separate)]
    exact stored

theorem Holds.interfere {platform : Platform} {workspace : Workspace} {memory : ProcessMemory} {address : Nat}
    {code : List Byte} (holds : Holds workspace address code)
    (used : ∀ page ∈ workspace.session.pages, page.used ≤ platform.pageSize)
    (kept : ∀ base ∈ workspace.session.bases, ∀ location, Memory.Inside base platform.pageSize location →
      memory location = workspace.memory location) :
    Holds { workspace with memory := memory } address code := by
  obtain ⟨stored, page, member, low, high⟩ := holds
  refine ⟨(Memory.readAt_congr fun location inside => ?_).trans stored, page, member, low, high⟩
  refine kept page.mapping (List.mem_map_of_mem member) location ?_
  have bounded := used page member
  simp only [Memory.Inside] at inside ⊢
  omega

theorem Slot.aligned {platform : Platform} {oracle : MappingOracle} {size address : Nat}
    {pages later : List MutableCodePage} (slot : Slot platform oracle size pages address later)
    (mappings : ∀ page ∈ pages, page.mapping % trampolineAlignment = 0)
    (fresh : ∀ base, oracle.mapMut base = .ok base → base % trampolineAlignment = 0) :
    address % trampolineAlignment = 0 := by
  cases slot with
  | existing place fits =>
    rename_i visited rest page range
    obtain ⟨-, start, -, -⟩ := slotRange_some fits
    have mapping := mappings page (by simp [place])
    rw [Nat.add_mod, mapping, start, Nat.zero_mod]
  | fresh mapped fits => exact fresh address mapped

theorem tryPlace_panic {hookNextInstruction size address : Nat} {build : Builder}
    (answer : tryPlace hookNextInstruction size build address = some (.error .panic)) :
    build address = .error .panic := by
  simp only [tryPlace] at answer
  cases reach : relativeOffset hookNextInstruction address with
  | error failure => simp [reach] at answer
  | ok displacement =>
    cases built : build address with
    | error failure =>
      rcases failure with error | _
      · cases error <;> simp [reach, built] at answer
      · rfl
    | ok code =>
      by_cases sized : size = code.length <;>
        simp [reach, built, validateTrampolineSize, sized, Except.map] at answer

theorem allocateInPages_panic {platform : Platform} {hookNextInstruction size : Nat} {build : Builder}
    {visited pages : List MutableCodePage} {before after : Workspace}
    (run : (allocateInPages platform hookNextInstruction size build visited pages).exec before =
      (.error .panic, after)) : ∃ address, build address = .error .panic := by
  induction pages generalizing visited with
  | nil => simp [allocateInPages] at run
  | cons page rest ih =>
    rw [allocateInPages_cons] at run
    cases fits : slotRange page.used size platform.pageSize with
    | none =>
      simp only [fits] at run
      exact ih run
    | some range =>
      cases sum : checkedAdd page.mapping range.start with
      | none => simp [fits, sum] at run
      | some address =>
        simp only [fits, sum] at run
        rcases answer : tryPlace hookNextInstruction size build address with _ | failure | code
        · simp only [answer] at run
          exact ih run
        · simp only [answer, Prod.mk.injEq, Except.error.injEq] at run
          exact ⟨address, tryPlace_panic (answer.trans (by rw [run.1]))⟩
        · simp [answer] at run

theorem tryCandidates_panic {platform : Platform} {oracle : MappingOracle} {hook hookNextInstruction size : Nat}
    {build : Builder} {candidates : List Nat} {lastError : Option String} {before after : Workspace}
    (small : size ≤ platform.pageSize)
    (run : (tryCandidates platform oracle hook hookNextInstruction size build candidates lastError).exec before =
      (.error .panic, after)) : ∃ address, build address = .error .panic := by
  induction candidates generalizing lastError with
  | nil => simp [tryCandidates] at run
  | cons candidate rest ih =>
    obtain ⟨reason, same⟩ :=
      tryCandidates_cons platform oracle hook hookNextInstruction build candidate rest lastError before small
    rw [same] at run
    cases options : oracle.options candidate with
    | error error => simp [options] at run
    | ok done =>
      by_cases mapped : oracle.mapMut candidate = .ok candidate
      · simp only [options, mapped, if_true] at run
        rcases answer : tryPlace hookNextInstruction size build candidate with _ | failure | code
        · simp only [answer] at run
          exact ih run
        · simp only [answer, Prod.mk.injEq, Except.error.injEq] at run
          exact ⟨candidate, tryPlace_panic (answer.trans (by rw [run.1]))⟩
        · simp [answer] at run
      · simp only [options, mapped, if_false] at run
        exact ih run

theorem candidateBounds_total (nextInstruction pageSize granularity : Nat) :
    candidateBounds nextInstruction pageSize granularity ≠ .error .panic := by
  intro failed
  simp only [candidateBounds] at failed
  cases room : checkedSub usizeMax (pageSize - 1) with
  | none => simp [room, okOr, bind, Except.bind] at failed
  | some mappingBase =>
    cases up : alignUp (max ((nextInstruction : Int) + i32Min) 0).toNat granularity with
    | none => simp [room, up, okOr, bind, Except.bind] at failed
    | some least =>
      simp only [room, up, okOr, bind, Except.bind] at failed
      split at failed <;> simp at failed

theorem candidates_new_total {hook minimum maximum granularity : Nat} (positive : 0 < granularity) :
    CandidateAddresses.new hook minimum maximum granularity positive ≠ .error .panic := by
  intro failed
  cases up : alignUp (max hook minimum) granularity <;>
    simp [CandidateAddresses.new, up, okOr, bind, Except.bind, pure, Except.pure] at failed

theorem allocateTrampoline_panic {platform : Platform} {oracle : MappingOracle} {hook size : Nat} {build : Builder}
    {before after : Workspace}
    (run : (allocateTrampoline platform oracle hook size build).exec before = (.error .panic, after)) :
    ∃ address, build address = .error .panic := by
  simp only [allocateTrampoline] at run
  by_cases large : platform.pageSize < size
  · simp [large] at run
  · simp only [large, if_false] at run
    rcases Procedure.ofExcept_cases run with ⟨failure, failed, same, -⟩ | ⟨hookNextInstruction, -, run⟩
    · simp [← same] at failed
    · rw [Procedure.exec_get_bind] at run
      rcases Procedure.bind_error run with failed | ⟨found, middle, -, run⟩
      · exact allocateInPages_panic failed
      · cases found with
        | some address => simp at run
        | none =>
          simp only [allocateTrampolinePage] at run
          rcases Procedure.ofExcept_cases run with ⟨failure, failed, same, -⟩ | ⟨hookNextInstruction, -, run⟩
          · simp [← same] at failed
          · rcases Procedure.ofExcept_cases run with ⟨failure, failed, same, -⟩ | ⟨bounds, -, run⟩
            · obtain rfl := Except.error.inj same
              exact absurd failed (candidateBounds_total _ _ _)
            · rcases Procedure.ofExcept_cases run with ⟨failure, failed, same, -⟩ | ⟨candidates, -, run⟩
              · obtain rfl := Except.error.inj same
                exact absurd failed (candidates_new_total _)
              · exact tryCandidates_panic (Nat.not_lt.mp large) run

structure Slotted (workspace : Workspace) (request : SlotRequest) (address : Nat) : Prop where
  aligned : address % trampolineAlignment = 0
  reachable : ∃ displacement, relativeOffset (request.hook + nearJumpSize) address = .ok displacement
  code : ∃ code, request.build address = .ok code ∧ code.length = request.size ∧ Holds workspace address code

def SeparateSlots (first second : SlotRequest) : Prop :=
  ∀ address other, first.result = .ok address → second.result = .ok other →
    Memory.Apart address first.size other second.size

structure SlotsKept (platform : Platform) (log : List SlotRequest) (workspace : Workspace) : Prop where
  mappings : ∀ page ∈ workspace.session.pages, page.mapping % trampolineAlignment = 0
  used : ∀ page ∈ workspace.session.pages, page.used ≤ platform.pageSize
  pages : workspace.session.pages.Pairwise fun first second =>
    Memory.Apart first.mapping platform.pageSize second.mapping platform.pageSize
  positive : ∀ request ∈ log, 0 < request.size
  slotted : ∀ request ∈ log, ∀ address, request.result = .ok address → Slotted workspace request address
  separate : log.Pairwise SeparateSlots
  panics : ∀ request ∈ log, request.result = .error .panic → ∃ address, request.build address = .error .panic

theorem Slotted.mono {before after : Workspace} {request : SlotRequest} {address : Nat}
    (slotted : Slotted before request address)
    (holds : ∀ code, Holds before address code → Holds after address code) : Slotted after request address := by
  obtain ⟨aligned, reachable, code, built, sized, stored⟩ := slotted
  exact ⟨aligned, reachable, code, built, sized, holds code stored⟩

theorem SlotsKept.interfere {platform : Platform} {log : List SlotRequest} {workspace : Workspace}
    {memory : ProcessMemory} (slots : SlotsKept platform log workspace)
    (kept : ∀ base ∈ workspace.session.bases, ∀ location, Memory.Inside base platform.pageSize location →
      memory location = workspace.memory location) :
    SlotsKept platform log { workspace with memory := memory } :=
  ⟨slots.mappings, slots.used, slots.pages, slots.positive, fun request member address same =>
    (slots.slotted request member address same).mono fun _ holds => holds.interfere slots.used kept,
    slots.separate, slots.panics⟩

theorem SlotsKept.allocate {platform : Platform} {log : List SlotRequest} {workspace : Workspace}
    (slots : SlotsKept platform log workspace) {oracle : MappingOracle} {hook size : Nat} {build : Builder}
    (positive : 0 < size)
    (fresh : ∀ candidate base, oracle.mapMut candidate = .ok base → base % trampolineAlignment = 0 ∧
      ∀ other ∈ workspace.session.bases, Memory.Apart base platform.pageSize other platform.pageSize) :
    SlotsKept platform
      (log ++ [⟨hook, size, build, ((allocateTrampoline platform oracle hook size build).exec workspace).1⟩])
      ((allocateTrampoline platform oracle hook size build).exec workspace).2 := by
  have ends := allocateTrampoline_ends platform oracle hook size build workspace
  rcases ran : (allocateTrampoline platform oracle hook size build).exec workspace with ⟨result, after⟩
  rw [ran] at ends
  have sizes : ∀ request ∈ log ++ [⟨hook, size, build, result⟩], 0 < request.size := by
    intro request member
    rcases List.mem_append.mp member with earlier | new
    · exact slots.positive request earlier
    · rwa [List.mem_singleton.mp new]
  have panics : ∀ request ∈ log ++ [⟨hook, size, build, result⟩], request.result = .error .panic →
      ∃ address, request.build address = .error .panic := by
    intro request member panicked
    rcases List.mem_append.mp member with earlier | new
    · exact slots.panics request earlier panicked
    · obtain rfl := List.mem_singleton.mp new
      exact allocateTrampoline_panic (ran.trans (Prod.ext panicked rfl))
  -- A request that fails leaves the workspace as it was.
  cases result with
  | error failure =>
    obtain rfl : after = workspace := ends
    refine ⟨slots.mappings, slots.used, slots.pages, sizes, fun request member address same => ?_, ?_, panics⟩
    · rcases List.mem_append.mp member with earlier | new
      · exact slots.slotted request earlier address same
      · rw [List.mem_singleton.mp new] at same
        contradiction
    · refine List.pairwise_append.mpr ⟨slots.separate, List.pairwise_singleton _ _, ?_⟩
      intro earlier _ request new address other _ same
      rw [List.mem_singleton.mp new] at same
      contradiction
  | ok slot =>
    have placed : Placed platform oracle (hook + nearJumpSize) size build workspace after slot := ends
    obtain ⟨used, pages, new, old⟩ :=
      placed.keeps slots.used slots.pages fun base mapped => (fresh base base mapped).2
    have aligned := Slot.aligned placed.slot slots.mappings fun base mapped => (fresh base base mapped).1
    have mappings : ∀ page ∈ after.session.pages, page.mapping % trampolineAlignment = 0 := by
      obtain ⟨-, extra, bases, -, mapped, -, -⟩ := Slot.bases placed.slot
      intro page member
      have known := @List.mem_map_of_mem _ _ _ _ MutableCodePage.mapping member
      rw [bases] at known
      rcases List.mem_append.mp known with earlier | new
      · obtain ⟨before, member, same⟩ := List.mem_map.mp earlier
        rw [← same]
        exact slots.mappings before member
      · exact (fresh _ _ (mapped page.mapping new)).1
    refine ⟨mappings, used, pages, sizes, fun request member address same => ?_, ?_, panics⟩
    · rcases List.mem_append.mp member with earlier | last
      · exact (slots.slotted request earlier address same).mono fun code holds => (old address code holds).1
      · obtain rfl := List.mem_singleton.mp last
        obtain rfl : slot = address := by simpa using same
        exact ⟨aligned, placed.reachable, new⟩
    · refine List.pairwise_append.mpr ⟨slots.separate, List.pairwise_singleton _ _, ?_⟩
      -- An earlier slot lies within what its page had used, and the new one does not.
      intro earlier member request last address other first second
      obtain rfl := List.mem_singleton.mp last
      obtain rfl : slot = other := by simpa using second
      obtain ⟨code, -, length, holds⟩ := (slots.slotted earlier member address first).code
      exact length ▸ (old address code holds).2

theorem allocates_slots {platform : Platform} {log : List SlotRequest} {workspace : Workspace}
    (allocates : Allocates platform log workspace) : SlotsKept platform log workspace := by
  induction allocates with
  | start memory => exact ⟨by simp [new], by simp [new], List.Pairwise.nil, by simp, by simp, List.Pairwise.nil,
      by simp⟩
  | interfere memory before kept ih => exact ih.interfere kept
  | allocate oracle hook size build before positive fresh ih => exact ih.allocate positive fresh

/-- Slots are aligned, lie within one page each and within reach of their hooks, share no byte, and hold the code
    built for them whatever the allocator does later; and it never indexes a page out of bounds. -/
theorem slots_never_collide (platform : Platform) (log : List SlotRequest) (workspace : Workspace)
    (allocates : Allocates platform log workspace) :
    (∀ request ∈ log, ∀ address, request.result = .ok address →
      address % 16 = 0 ∧
      (∃ page ∈ workspace.session.pages,
        page.mapping ≤ address ∧ address + request.size ≤ page.mapping + platform.pageSize) ∧
      (∀ page ∈ workspace.session.pages, Memory.Inside page.mapping platform.pageSize address →
        address + request.size ≤ page.mapping + page.used) ∧
      (∃ displacement, relativeOffset (request.hook + nearJumpSize) address = .ok displacement) ∧
      ∃ code, request.build address = .ok code ∧ code.length = request.size ∧
        Memory.readAt workspace.memory address request.size = code) ∧
    (log.Pairwise fun first second => ∀ address other, first.result = .ok address → second.result = .ok other →
      Memory.Apart address first.size other second.size) ∧
    (∀ page ∈ workspace.session.pages, page.used ≤ platform.pageSize) ∧
    ∀ request ∈ log, request.result = .error .panic → ∃ address, request.build address = .error .panic := by
  have slots := allocates_slots allocates
  refine ⟨?_, slots.separate, slots.used, slots.panics⟩
  intro request member address answered
  obtain ⟨aligned, reachable, code, built, sized, stored, page, known, low, high⟩ :=
    slots.slotted request member address answered
  have positive := slots.positive request member
  have capacity := slots.used page known
  rw [sized] at high stored
  refine ⟨aligned, ⟨page, known, low, by omega⟩, ?_, reachable, code, built, sized, stored⟩
  intro other mine inside
  by_cases same : other = page
  · rwa [same]
  · have symmetric : Std.Symm fun first second : MutableCodePage =>
        Memory.Apart first.mapping platform.pageSize second.mapping platform.pageSize :=
      ⟨fun _ _ => Memory.Apart.symm⟩
    have apart := slots.pages.forall mine known same
    simp only [Memory.Apart] at apart
    simp only [Memory.Inside] at inside
    omega

-- A builder that works on the page below the hook gets that page.
theorem allocated_below (memory : ProcessMemory) {size : Nat} {build : Builder} {code : List Byte}
    (built : build 0x140000000 = .ok code) (sized : code.length = size) (small : size ≤ 0x1000) :
    let platform : Platform := ⟨0x1000, 0x10000, by decide, by decide⟩
    let oracle : MappingOracle := ⟨fun _ => .ok (), fun _ => .ok 0x140000000⟩
    (allocateTrampoline platform oracle 0x140001000 size build).exec ⟨new, memory⟩ =
      (.ok 0x140000000, ⟨⟨[⟨0x140000000, size⟩], []⟩, Memory.writeAt memory 0x140000000 code⟩) := by
  intro platform oracle
  have bounds : candidateBounds 0x140001005 platform.pageSize platform.allocationGranularity =
    .ok (0xC0010000, 0x1C0000000) := by decide
  have candidates : CandidateAddresses.new 0x140001000 0xC0010000 0x1C0000000 platform.allocationGranularity
      platform.granularity_pos =
        .ok ⟨0x140001000, 0xC0010000, 0x1C0000000, 0x10000, some 0x140000000, some 0x140010000, by decide⟩ := by
    simp [CandidateAddresses.new, alignDown, alignUp, checkedAdd, usizeMax, okOr, bind, Except.bind, pure,
      Except.pure, platform]
  obtain ⟨rest, step⟩ : ∃ rest, CandidateAddresses.next
      ⟨0x140001000, 0xC0010000, 0x1C0000000, 0x10000, some 0x140000000, some 0x140010000, by decide⟩ =
        some (0x140000000, rest) := by
    simp [CandidateAddresses.next, CandidateAddresses.absDiff, CandidateAddresses.takeLower]
  have nearest := CandidateAddresses.collect_next step
  have fits : ¬ platform.pageSize < size := Nat.not_lt.mpr small
  simp [allocateTrampoline, allocateTrampolinePage, allocateInPages, fits, small, bounds, candidates, nearest,
    checkedAdd, nearJumpSize, usizeMax, okOr, Procedure.exec_bind, new, tryCandidates, tryAllocatePage,
    relativeOffset, i32Min, i32Max, validateTrampolineSize, copyIntoMapping, setPages, oracle, built, sized,
    platform]

-- Two hooks share a page; the first slot keeps its byte.
theorem slots_never_collide_on_one_page :
    let platform : Platform := ⟨0x1000, 0x10000, by decide, by decide⟩
    let oracle : MappingOracle := ⟨fun _ => .ok (), fun _ => .ok 0x140000000⟩
    let ret : Builder := fun _ => .ok [0xC3]
    let first := (allocateTrampoline platform oracle 0x140001000 1 ret).exec ⟨new, fun _ => 0x90⟩
    let second :=
      (allocateTrampoline platform ⟨fun _ => .error "", fun _ => .error ""⟩ 0x140002000 1 ret).exec first.2
    first.1 = .ok 0x140000000 ∧ second.1 = .ok 0x140000010 ∧ Memory.Apart 0x140000000 1 0x140000010 1 ∧
      Memory.readAt second.2.memory 0x140000000 1 = [0xC3] := by
  intro platform oracle ret first second
  have firstRun : first =
      (.ok 0x140000000, ⟨⟨[⟨0x140000000, 1⟩], []⟩, Memory.writeAt (fun _ => 0x90) 0x140000000 [0xC3]⟩) :=
    allocated_below _ rfl rfl (by decide)
  have secondRun : second.1 = .ok 0x140000010 := by
    simp only [second, firstRun]
    rfl
  have started : Allocates platform [⟨0x140001000, 1, ret, first.1⟩] first.2 := by
    refine .allocate oracle 0x140001000 1 ret (.start _) (by decide) ?_
    rintro candidate base ⟨⟩
    exact ⟨by decide, by simp [new, bases]⟩
  have allocates : Allocates platform [⟨0x140001000, 1, ret, first.1⟩, ⟨0x140002000, 1, ret, second.1⟩] second.2 :=
    .allocate _ 0x140002000 1 ret started (by decide) (by rintro candidate base ⟨⟩)
  obtain ⟨slots, apart, -, -⟩ := slots_never_collide platform _ second.2 allocates
  have separate := List.rel_of_pairwise_cons apart List.mem_cons_self 0x140000000 0x140000010 (by rw [firstRun])
    secondRun
  obtain ⟨-, -, -, -, code, built, -, held⟩ := slots _ List.mem_cons_self 0x140000000 (by rw [firstRun])
  obtain rfl : [0xC3] = code := Except.ok.inj built
  exact ⟨by rw [firstRun], secondRun, separate, held⟩

end PatchSession

end Patchy
