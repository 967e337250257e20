import Patchy.Core.Patch

set_option autoImplicit false

namespace Patchy

theorem slotRange_eq_some {used size capacity : Nat} {range : SlotRange} :
    slotRange used size capacity = some range ↔ alignUp used trampolineAlignment = some range.start ∧
      checkedAdd range.start size = some range.stop ∧ range.stop ≤ capacity := by
  obtain ⟨start, stop⟩ := range
  simp only [slotRange, bind, Option.bind_eq_some_iff, Option.ite_none_right_eq_some, Option.some.injEq,
    SlotRange.mk.injEq]
  constructor
  · rintro ⟨_, up, _, sum, fits, rfl, rfl⟩
    exact ⟨up, sum, fits⟩
  · rintro ⟨up, sum, fits⟩
    exact ⟨start, up, stop, sum, fits, rfl, rfl⟩

theorem slotRange_some {used size capacity : Nat} {range : SlotRange}
    (found : slotRange used size capacity = some range) :
    used ≤ range.start ∧ range.start % trampolineAlignment = 0 ∧ range.stop = range.start + size ∧
      range.stop ≤ capacity := by
  obtain ⟨up, sum, fits⟩ := slotRange_eq_some.mp found
  obtain ⟨low, -, aligned⟩ := alignUp_some (by decide) up
  exact ⟨low, aligned, (checkedAdd_some.mp sum).1.symm, fits⟩

namespace PatchSession

def bases (self : PatchSession) : List Nat := self.pages.map (·.mapping)

inductive Slot (platform : Platform) (oracle : MappingOracle) (size : Nat) (pages : List MutableCodePage) :
    Nat → List MutableCodePage → Prop
  | existing {visited rest : List MutableCodePage} {page : MutableCodePage} {range : SlotRange}
      (place : pages = visited ++ page :: rest) (fits : slotRange page.used size platform.pageSize = some range) :
      Slot platform oracle size pages (page.mapping + range.start)
        (visited ++ ⟨page.mapping, range.stop⟩ :: rest)
  | fresh {address : Nat} (mapped : oracle.mapMut address = .ok address) (fits : size ≤ platform.pageSize) :
      Slot platform oracle size pages address (pages ++ [⟨address, size⟩])

structure Placed (platform : Platform) (oracle : MappingOracle) (hookNextInstruction size : Nat) (build : Builder)
    (before after : Workspace) (address : Nat) : Prop where
  reachable : ∃ displacement, relativeOffset hookNextInstruction address = .ok displacement
  slot : Slot platform oracle size before.session.pages address after.session.pages
  code : ∃ code, build address = .ok code ∧ code.length = size ∧
    after.memory = Memory.writeAt before.memory address code
  pending : after.session.pending = before.session.pending

theorem validateTrampolineSize_ok {expected actual : Nat} :
    validateTrampolineSize expected actual = .ok () ↔ expected = actual := by
  simp only [validateTrampolineSize]
  split <;> simp_all

def Ends {α : Type} (placed : α → Workspace → Prop) (before : Workspace) :
    Result (Option α) × Workspace → Prop
  | (.error _, after) | (.ok none, after) => after = before
  | (.ok (some value), after) => placed value after

theorem copyIntoMapping_exec {platform : Platform} {mapping start stop : Nat} {code : List Byte}
    {before : Workspace} (ordered : start ≤ stop) (fits : stop ≤ platform.pageSize)
    (sized : stop - start = code.length) :
    (copyIntoMapping platform mapping start stop code).exec before =
      (.ok (), { before with memory := Memory.writeAt before.memory (mapping + start) code }) := by
  simp [copyIntoMapping, ordered, fits, sized]

def tryPlace (hookNextInstruction size : Nat) (build : Builder) (address : Nat) : Option (Result (List Byte)) :=
  match relativeOffset hookNextInstruction address with
  | .error _ => none
  | .ok _ =>
    match build address with
    | .error (.error (.relativeJumpOutOfRange _ _)) => none
    | .error failure => some (.error failure)
    | .ok code => some ((validateTrampolineSize size code.length).map fun _ => code)

theorem tryPlace_ok {hookNextInstruction size address : Nat} {build : Builder} {code : List Byte} :
    tryPlace hookNextInstruction size build address = some (.ok code) ↔
      (∃ displacement, relativeOffset hookNextInstruction address = .ok displacement) ∧
        build address = .ok code ∧ code.length = size := by
  simp only [tryPlace]
  cases relativeOffset hookNextInstruction address with
  | error failure => simp
  | ok displacement =>
    cases build address with
    | error failure =>
      rcases failure with error | _
      · cases error <;> simp
      · simp
    | ok built =>
      by_cases sized : size = built.length
      · simp [validateTrampolineSize, sized, Except.map]
        rintro rfl
        rfl
      · simp only [validateTrampolineSize, sized, if_false, Except.map, Option.some.injEq, reduceCtorEq, false_iff]
        rintro ⟨-, same, length⟩
        exact sized (by rw [Except.ok.inj same, length])

theorem allocateInPages_cons (platform : Platform) (hookNextInstruction size : Nat) (build : Builder)
    (visited : List MutableCodePage) (page : MutableCodePage) (rest : List MutableCodePage) (before : Workspace) :
    (allocateInPages platform hookNextInstruction size build visited (page :: rest)).exec before =
      let skip := (allocateInPages platform hookNextInstruction size build (visited ++ [page]) rest).exec before
      match slotRange page.used size platform.pageSize with
      | none => skip
      | some range =>
        match checkedAdd page.mapping range.start with
        | none => (Result.err .addressOverflow, before)
        | some address =>
          match tryPlace hookNextInstruction size build address with
          | none => skip
          | some (.error failure) => (.error failure, before)
          | some (.ok code) => (.ok (some address),
              ⟨{ before.session with pages := visited ++ ⟨page.mapping, range.stop⟩ :: rest },
                Memory.writeAt before.memory address code⟩) := by
  rw [allocateInPages]
  cases fits : slotRange page.used size platform.pageSize with
  | none => rfl
  | some range =>
    obtain ⟨-, -, stop, capacity⟩ := slotRange_some fits
    cases sum : checkedAdd page.mapping range.start with
    | none => simp [sum, okOr, Procedure.exec_bind]
    | some address =>
      obtain ⟨rfl, -⟩ := checkedAdd_some.mp sum
      simp only [sum, okOr, Procedure.exec_bind, Procedure.exec_ofExcept, tryPlace]
      -- A page out of reach, for the hook or for the code, is passed over; any other failure ends the search.
      cases reach : relativeOffset hookNextInstruction (page.mapping + range.start) with
      | error failure => rfl
      | ok displacement =>
        cases built : build (page.mapping + range.start) with
        | error failure =>
          rcases failure with error | _
          · cases error <;> rfl
          · rfl
        | ok code =>
          by_cases sized : size = code.length
          · have copied := @copyIntoMapping_exec platform page.mapping range.start range.stop code before
              (by omega) capacity (by omega)
            simp only [validateTrampolineSize_ok.mpr sized, Procedure.exec_bind, Procedure.exec_ofExcept, copied,
              setPages, Procedure.exec_modify, Procedure.exec_pure, Except.map]
          · simp [validateTrampolineSize, sized, Procedure.exec_bind, Except.map]

theorem tryAllocatePage_exec (platform : Platform) (oracle : MappingOracle)
    (candidate hookNextInstruction : Nat) {size : Nat} (build : Builder) (lastError : Option String)
    (before : Workspace) (small : size ≤ platform.pageSize) :
    ∃ reason, (tryAllocatePage platform oracle candidate hookNextInstruction size build lastError).exec before =
      match oracle.options candidate with
      | .error error => (Result.err (.mapping error), before)
      | .ok () =>
        if oracle.mapMut candidate = .ok candidate then
          match tryPlace hookNextInstruction size build candidate with
          | none => (.ok (none, some reason), before)
          | some (.error failure) => (.error failure, before)
          | some (.ok code) => (.ok (some candidate, lastError),
              ⟨{ before.session with pages := before.session.pages ++ [⟨candidate, size⟩] },
                Memory.writeAt before.memory candidate code⟩)
        else (.ok (none, some reason), before) := by
  simp only [tryAllocatePage]
  cases options : oracle.options candidate with
  | error error => exact ⟨"", rfl⟩
  | ok done =>
    cases mapped : oracle.mapMut candidate with
    | error error => exact ⟨error, rfl⟩
    | ok actual =>
      by_cases placed : actual = candidate
      · subst placed
        simp only [ne_eq, not_true_eq_false, if_false, if_true, tryPlace]
        cases reach : relativeOffset hookNextInstruction actual with
        | error failure => exact ⟨_, rfl⟩
        | ok displacement =>
          cases built : build actual with
          | error failure =>
            rcases failure with error | _
            · cases error with
              | relativeJumpOutOfRange => exact ⟨_, rfl⟩
              | _ => exact ⟨"", rfl⟩
            · exact ⟨"", rfl⟩
          | ok code =>
            by_cases sized : size = code.length
            · have copied := @copyIntoMapping_exec platform actual 0 size code before
                (Nat.zero_le size) small (by omega)
              simp only [validateTrampolineSize_ok.mpr sized, Procedure.exec_bind, Procedure.exec_ofExcept, copied,
                setPages, Procedure.exec_modify, Procedure.exec_get, Procedure.exec_pure, Except.map]
              exact ⟨"", rfl⟩
            · exact ⟨"", by simp [validateTrampolineSize, sized, Procedure.exec_bind, Except.map]⟩
      · simp [placed]

theorem allocateInPages_ends (platform : Platform) (oracle : MappingOracle) (hookNextInstruction size : Nat)
    (build : Builder) (visited pages : List MutableCodePage) (before : Workspace)
    (split : before.session.pages = visited ++ pages) :
    Ends (fun address after => Placed platform oracle hookNextInstruction size build before after address) before
      ((allocateInPages platform hookNextInstruction size build visited pages).exec before) := by
  induction pages generalizing visited with
  | nil => exact rfl
  | cons page rest ih =>
    have skip := ih (visited ++ [page]) (by simpa using split)
    rw [allocateInPages_cons]
    cases fits : slotRange page.used size platform.pageSize with
    | none => exact skip
    | some range =>
      cases sum : checkedAdd page.mapping range.start with
      | none => simp [sum, Ends]
      | some address =>
        obtain ⟨rfl, -⟩ := checkedAdd_some.mp sum
        simp only [sum]
        rcases answer : tryPlace hookNextInstruction size build (page.mapping + range.start) with
          _ | failure | code
        · exact skip
        · exact rfl
        · obtain ⟨reachable, built, sized⟩ := tryPlace_ok.mp answer
          exact ⟨reachable, .existing split fits, ⟨code, built, sized, rfl⟩, rfl⟩

theorem tryCandidates_cons (platform : Platform) (oracle : MappingOracle) (hook hookNextInstruction : Nat)
    {size : Nat} (build : Builder) (candidate : Nat) (rest : List Nat) (lastError : Option String)
    (before : Workspace) (small : size ≤ platform.pageSize) :
    ∃ reason,
      (tryCandidates platform oracle hook hookNextInstruction size build (candidate :: rest) lastError).exec before =
        let skip :=
          (tryCandidates platform oracle hook hookNextInstruction size build rest (some reason)).exec before
        match oracle.options candidate with
        | .error error => (Result.err (.mapping error), before)
        | .ok () =>
          if oracle.mapMut candidate = .ok candidate then
            match tryPlace hookNextInstruction size build candidate with
            | none => skip
            | some (.error failure) => (.error failure, before)
            | some (.ok code) => (.ok candidate,
                ⟨{ before.session with pages := before.session.pages ++ [⟨candidate, size⟩] },
                  Memory.writeAt before.memory candidate code⟩)
          else skip := by
  obtain ⟨reason, run⟩ :=
    tryAllocatePage_exec platform oracle candidate hookNextInstruction build lastError before small
  refine ⟨reason, ?_⟩
  rw [tryCandidates, Procedure.exec_bind, run]
  cases options : oracle.options candidate with
  | error error => rfl
  | ok done =>
    by_cases mapped : oracle.mapMut candidate = .ok candidate
    · simp only [mapped, if_true]
      rcases tryPlace hookNextInstruction size build candidate with _ | failure | code <;> rfl
    · simp only [mapped, if_false]

theorem tryCandidates_ends (platform : Platform) (oracle : MappingOracle) {hook hookNextInstruction size : Nat}
    (build : Builder) (candidates : List Nat) (lastError : Option String) (before : Workspace)
    (small : size ≤ platform.pageSize) :
    match (tryCandidates platform oracle hook hookNextInstruction size build candidates lastError).exec before with
    | (.error _, after) => after = before
    | (.ok address, after) => Placed platform oracle hookNextInstruction size build before after address := by
  induction candidates generalizing lastError with
  | nil => exact rfl
  | cons candidate rest ih =>
    obtain ⟨reason, run⟩ :=
      tryCandidates_cons platform oracle hook hookNextInstruction build candidate rest lastError before small
    rw [run]
    cases options : oracle.options candidate with
    | error error => exact rfl
    | ok done =>
      by_cases mapped : oracle.mapMut candidate = .ok candidate
      · simp only [mapped, if_true]
        rcases answer : tryPlace hookNextInstruction size build candidate with _ | failure | code
        · exact ih (some reason)
        · exact rfl
        · obtain ⟨reachable, built, sized⟩ := tryPlace_ok.mp answer
          exact ⟨reachable, .fresh mapped small, ⟨code, built, sized, rfl⟩, rfl⟩
      · simp only [mapped, if_false]
        exact ih (some reason)

theorem allocateTrampolinePage_ends (platform : Platform) (oracle : MappingOracle) {hook size : Nat}
    (build : Builder) (before : Workspace) (small : size ≤ platform.pageSize) :
    match (allocateTrampolinePage platform oracle hook size build).exec before with
    | (.error _, after) => after = before
    | (.ok address, after) => Placed platform oracle (hook + nearJumpSize) size build before after address := by
  simp only [allocateTrampolinePage]
  cases next : checkedAdd hook nearJumpSize with
  | none => exact rfl
  | some hookNextInstruction =>
    obtain ⟨rfl, -⟩ := checkedAdd_some.mp next
    cases bounds : candidateBounds (hook + nearJumpSize) platform.pageSize platform.allocationGranularity with
    | error failure => simp [okOr, bounds, Procedure.exec_bind]
    | ok range =>
      cases candidates : CandidateAddresses.new hook range.1 range.2 platform.allocationGranularity
        platform.granularity_pos with
      | error failure => simp [okOr, bounds, candidates, Procedure.exec_bind]
      | ok candidates' =>
        simp only [okOr, bounds, candidates, Procedure.exec_bind, Procedure.exec_ofExcept]
        exact tryCandidates_ends platform oracle build candidates'.collect none before small

theorem allocateTrampoline_ends (platform : Platform) (oracle : MappingOracle) (hook size : Nat)
    (build : Builder) (before : Workspace) :
    match (allocateTrampoline platform oracle hook size build).exec before with
    | (.error _, after) => after = before
    | (.ok address, after) => Placed platform oracle (hook + nearJumpSize) size build before after address := by
  simp only [allocateTrampoline]
  by_cases large : platform.pageSize < size
  · simp [large]
  · have small : size ≤ platform.pageSize := Nat.not_lt.mp large
    simp only [large, if_false]
    cases next : checkedAdd hook nearJumpSize with
    | none => simp [okOr, Procedure.exec_bind]
    | some hookNextInstruction =>
      obtain ⟨rfl, -⟩ := checkedAdd_some.mp next
      have searched := allocateInPages_ends platform oracle (hook + nearJumpSize) size build [] before.session.pages
        before rfl
      simp only [okOr, Procedure.exec_bind, Procedure.exec_ofExcept, Procedure.exec_get]
      rcases answer : (allocateInPages platform (hook + nearJumpSize) size build [] before.session.pages).exec
        before with ⟨failure | found | address, after⟩
      · simpa [answer, Ends] using searched
      · rw [answer] at searched
        obtain rfl : after = before := searched
        exact allocateTrampolinePage_ends platform oracle build after small
      · rw [answer] at searched
        exact searched

end PatchSession

end Patchy
