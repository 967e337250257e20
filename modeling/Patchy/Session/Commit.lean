import Patchy.Core.Install

set_option autoImplicit false

namespace Patchy

structure Untouched (before after : Process) : Prop where
  memory : after.memory = before.memory
  registry : after.permanentPatchSets = before.permanentPatchSets

theorem Untouched.refl (process : Process) : Untouched process process := ⟨rfl, rfl⟩

theorem Untouched.trans {first second third : Process} (early : Untouched first second)
    (late : Untouched second third) : Untouched first third :=
  ⟨late.memory.trans early.memory, late.registry.trans early.registry⟩

def overlay (memory : ProcessMemory) (patches : List PendingPatch) : ProcessMemory :=
  patches.foldl (fun memory patch => Memory.writeAt memory patch.address patch.replacement) memory

namespace PatchSession

theorem sealPages_readOnly (environment : InstallEnvironment) (index : Nat) (pages : List MutableCodePage) :
    (sealPages environment index pages).ReadOnly := by
  induction pages generalizing index with
  | nil => exact Procedure.readOnly_pure _
  | cons page rest ih =>
    simp only [sealPages]
    split
    · exact Procedure.readOnly_throw _
    · exact (ih (index + 1)).bind fun _ => Procedure.readOnly_pure _

theorem sealPages_throws (environment : InstallEnvironment) (index : Nat) (pages : List MutableCodePage) :
    (sealPages environment index pages).Throws fun failure =>
      ∃ position page error, pages[position]? = some page ∧ environment.makeExec (index + position) = some error ∧
        failure = .error (.mapping error) := by
  induction pages generalizing index with
  | nil => exact Procedure.throws_pure _
  | cons page rest ih =>
    simp only [sealPages]
    split
    next error failed => exact Procedure.throws_throw ⟨0, page, error, rfl, failed, rfl⟩
    next =>
      intro before after failure run
      rcases Procedure.bind_error run with run | ⟨executable, middle, -, run⟩
      · obtain ⟨position, later, error, member, failed, reason⟩ := ih (index + 1) run
        exact ⟨position + 1, later, error, member, by rwa [Nat.add_right_comm] at failed, reason⟩
      · simp at run

theorem sealPages_ok {environment : InstallEnvironment} {index : Nat} {pages : List MutableCodePage}
    {before after : Process} {executable : List Nat}
    (run : (sealPages environment index pages).exec before = (.ok executable, after)) :
    executable = pages.map (·.mapping) := by
  induction pages generalizing index executable after with
  | nil =>
    simp only [sealPages, Procedure.exec_pure, Prod.mk.injEq, Except.ok.injEq] at run
    simp [← run.1]
  | cons page rest ih =>
    simp only [sealPages] at run
    split at run
    · simp at run
    · obtain ⟨later, middle, sealed, run⟩ := Procedure.bind_ok run
      simp only [Procedure.exec_pure, Prod.mk.injEq, Except.ok.injEq] at run
      simp [← run.1, ih sealed]

theorem flushAll_readOnly (fails : Nat → Option String) (index : Nat) (addresses : List Nat) :
    (flushAll fails index addresses).ReadOnly := by
  induction addresses generalizing index with
  | nil => exact Procedure.readOnly_pure _
  | cons address rest ih =>
    simp only [flushAll]
    split
    · exact Procedure.readOnly_throw _
    · exact ih (index + 1)

theorem flushAll_throws (fails : Nat → Option String) (index : Nat) (addresses : List Nat) :
    (flushAll fails index addresses).Throws fun failure =>
      ∃ position address error, addresses[position]? = some address ∧ fails (index + position) = some error ∧
        failure = .error (.instructionCache address error) := by
  induction addresses generalizing index with
  | nil => exact Procedure.throws_pure _
  | cons address rest ih =>
    simp only [flushAll]
    split
    next error failed => exact Procedure.throws_throw ⟨0, address, error, rfl, failed, rfl⟩
    next =>
      intro before after failure run
      obtain ⟨position, address, error, member, failed, reason⟩ := ih (index + 1) run
      exact ⟨position + 1, address, error, member, by rwa [Nat.add_right_comm] at failed, reason⟩

theorem virtualProtect_untouched (fails : Nat → Option String) (site : ProtectionSite) (page flags : Nat) :
    (virtualProtect fails site page flags).Preserves Untouched := by
  intro process
  cases failed : fails page <;> exact ⟨by simp [virtualProtect, failed, record, Procedure.exec_bind],
    by simp [virtualProtect, failed, record, Procedure.exec_bind]⟩

theorem virtualProtect_error {fails : Nat → Option String} {site : ProtectionSite} {page flags : Nat}
    {before after : Process} {error : String}
    (run : (virtualProtect fails site page flags).exec before = (.ok (.error error), after)) :
    fails page = some error := by
  cases failed : fails page with
  | none => simp [virtualProtect, failed, record, Procedure.exec_bind] at run
  | some reason =>
    simp only [virtualProtect, failed, record, Procedure.exec_bind, Procedure.exec_modify, Procedure.exec_pure,
      Prod.mk.injEq, Except.ok.injEq, Except.error.injEq] at run
    rw [run.1]

theorem virtualProtect_throws (fails : Nat → Option String) (site : ProtectionSite)
    (page flags : Nat) : (virtualProtect fails site page flags).Throws fun _ => False := by
  intro before after failure run
  cases failed : fails page <;> simp [virtualProtect, failed, record, Procedure.exec_bind] at run

theorem restoreLoop_untouched (environment : InstallEnvironment) (protections : List SourceProtection)
    (firstError : Option PatchError) : (restoreLoop environment protections firstError).Preserves Untouched := by
  induction protections generalizing firstError with
  | nil => exact (Procedure.readOnly_pure _).preserves Untouched.refl
  | cons protection rest ih =>
    refine (virtualProtect_untouched _ _ _ _).bind Untouched.trans fun answer => ?_
    cases answer <;> exact ih _

def RestoreFailed (environment : InstallEnvironment) (opened : Nat → Prop) (failure : PatchError) : Prop :=
  ∃ page error, opened page ∧ environment.restore page = some error ∧ failure = .protection page error

theorem restoreLoop_ok {environment : InstallEnvironment} {opened : Nat → Prop} {protections : List SourceProtection}
    {firstError : Option PatchError} {before after : Process} {found : Option PatchError}
    (saved : ∀ protection ∈ protections, opened protection.address)
    (earlier : ∀ error ∈ firstError, RestoreFailed environment opened error)
    (run : (restoreLoop environment protections firstError).exec before = (.ok found, after)) :
    ∀ error ∈ found, RestoreFailed environment opened error := by
  induction protections generalizing firstError before with
  | nil =>
    simp only [restoreLoop, Procedure.exec_pure, Prod.mk.injEq, Except.ok.injEq] at run
    rwa [← run.1]
  | cons protection rest ih =>
    obtain ⟨own, others⟩ := List.forall_mem_cons.mp saved
    obtain ⟨answer, middle, called, run⟩ := Procedure.bind_ok run
    cases answer with
    | ok old => exact ih others earlier run
    | error reason =>
      refine ih others ?_ run
      intro error member
      cases firstError with
      | some first => exact earlier error (by simpa using member)
      | none =>
        obtain rfl : _ = error := by simpa using member
        exact ⟨_, reason, own, virtualProtect_error called, rfl⟩

theorem restoreLoop_throws (environment : InstallEnvironment)
    (protections : List SourceProtection) (firstError : Option PatchError) :
    (restoreLoop environment protections firstError).Throws fun _ => False := by
  induction protections generalizing firstError with
  | nil => exact Procedure.throws_pure _
  | cons protection rest ih =>
    refine (virtualProtect_throws _ _ _ _).bind fun answer => ?_
    cases answer <;> exact ih _

theorem restorePatchSources_untouched (environment : InstallEnvironment) (protections : List SourceProtection) :
    (restorePatchSources environment protections).Preserves Untouched := by
  refine (restoreLoop_untouched _ _ _).bind Untouched.trans fun found => ?_
  cases found
  · exact (Procedure.readOnly_pure _).preserves Untouched.refl
  · exact (Procedure.readOnly_throw _).preserves Untouched.refl

theorem restorePatchSources_throws (environment : InstallEnvironment) {opened : Nat → Prop}
    {protections : List SourceProtection} (saved : ∀ protection ∈ protections, opened protection.address) :
    (restorePatchSources environment protections).Throws fun failure =>
      ∃ error, RestoreFailed environment opened error ∧ failure = .error error := by
  intro before after failure run
  rcases Procedure.bind_error run with failed | ⟨found, middle, restored, failed⟩
  · exact (restoreLoop_throws _ _ _ failed).elim
  · cases found with
    | none => simp at failed
    | some error =>
      have reason := restoreLoop_ok (by simpa using saved) (by simp) restored error rfl
      exact ⟨error, reason, by simpa [eq_comm] using (congrArg Prod.fst failed)⟩

theorem protectLoop_untouched (environment : InstallEnvironment) (pages : List Nat)
    (protections : List SourceProtection) : (protectLoop environment pages protections).Preserves Untouched := by
  induction pages generalizing protections with
  | nil => exact (Procedure.readOnly_pure _).preserves Untouched.refl
  | cons page rest ih =>
    refine (virtualProtect_untouched _ _ _ _).bind Untouched.trans fun answer => ?_
    cases answer with
    | error reason =>
      exact (restorePatchSources_untouched _ _).bind Untouched.trans fun _ =>
        (Procedure.readOnly_throw _).preserves Untouched.refl
    | ok old => exact ih _

section

variable (environment : InstallEnvironment) {opened : Nat → Prop} {pages : List Nat}
  {protections : List SourceProtection} (listed : ∀ page ∈ pages, opened page)
  (saved : ∀ protection ∈ protections, opened protection.address)

include listed saved

theorem protectLoop_throws :
    (protectLoop environment pages protections).Throws fun failure =>
      (∃ page error, opened page ∧ environment.protect page = some error ∧
        failure = .error (.protection page error)) ∨
        ∃ error, RestoreFailed environment opened error ∧ failure = .error error := by
  induction pages generalizing protections with
  | nil => exact Procedure.throws_pure _
  | cons page rest ih =>
    obtain ⟨own, others⟩ := List.forall_mem_cons.mp listed
    intro before after failure run
    rcases Procedure.bind_error run with failed | ⟨answer, middle, called, run⟩
    · exact (virtualProtect_throws _ _ _ _ failed).elim
    · cases answer with
      | ok old => exact ih others (List.forall_mem_append.mpr ⟨saved, by simpa using own⟩) run
      | error reason =>
        rcases Procedure.bind_error run with failed | ⟨_, _, _, failed⟩
        · exact Or.inr (restorePatchSources_throws _ saved failed)
        · exact Or.inl ⟨page, reason, own, virtualProtect_error called,
            by simpa [eq_comm] using (congrArg Prod.fst failed)⟩

theorem protectLoop_opened {before after : Process} {result : List SourceProtection}
    (run : (protectLoop environment pages protections).exec before = (.ok result, after)) :
    ∀ protection ∈ result, opened protection.address := by
  induction pages generalizing protections before with
  | nil =>
    obtain ⟨same, -⟩ := Prod.mk.inj run
    obtain rfl := Except.ok.inj same
    exact saved
  | cons page rest ih =>
    obtain ⟨own, others⟩ := List.forall_mem_cons.mp listed
    obtain ⟨answer, middle, called, run⟩ := Procedure.bind_ok run
    cases answer with
    | ok old => exact ih others (List.forall_mem_append.mpr ⟨saved, by simpa using own⟩) run
    | error reason =>
      obtain ⟨_, _, _, failed⟩ := Procedure.bind_ok run
      simp at failed

end

theorem copyReplacements_exec (patches : List PendingPatch) (process : Process) :
    ∃ events, (copyReplacements patches).exec process =
      (.ok (), { process with memory := overlay process.memory patches, events := events }) := by
  induction patches generalizing process with
  | nil => exact ⟨process.events, rfl⟩
  | cons patch rest ih =>
    obtain ⟨events, run⟩ := ih
      { process with
        memory := Memory.writeAt process.memory patch.address patch.replacement
        events := process.events ++ [.copy patch.address patch.replacement] }
    refine ⟨events, ?_⟩
    simp only [copyReplacements, record, Procedure.exec_bind, Procedure.exec_modify]
    exact run

def permanentPatchSet (self : PatchSession) : PermanentPatchSet :=
  ⟨self.pages.map (·.mapping), self.pending.map fun patch => ⟨patch.address, patch.replacement.length⟩⟩

def Opens (platform : Platform) (session : PatchSession) (page : Nat) : Prop :=
  ∃ pages, sourcePages platform session.pending ∅ = .ok pages ∧ page ∈ pages

inductive Refusal (platform : Platform) (environment : InstallEnvironment) (session : PatchSession)
    (process : Process) : Failure → Prop
  | sealing {index : Nat} {page : MutableCodePage} {error : String} (own : session.pages[index]? = some page)
      (failed : environment.makeExec index = some error) :
      Refusal platform environment session process (.error (.mapping error))
  | pageFlush {index : Nat} {page : MutableCodePage} {error : String} (own : session.pages[index]? = some page)
      (failed : environment.flushPage index = some error) :
      Refusal platform environment session process (.error (.instructionCache page.mapping error))
  | overlap {failure : Failure}
      (found : ensurePatchesDoNotOverlapInstalled process.permanentPatchSets session.pending = .error failure) :
      Refusal platform environment session process failure
  | changed {failure : Failure}
      (clear : ensurePatchesDoNotOverlapInstalled process.permanentPatchSets session.pending = .ok ())
      (found : validatePatchSources process.memory session.pending = .error failure) :
      Refusal platform environment session process failure
  | pages {failure : Failure} (found : sourcePages platform session.pending ∅ = .error failure) :
      Refusal platform environment session process failure
  | protection {page : Nat} {error : String} (own : session.Opens platform page)
      (failed : environment.protect page = some error) :
      Refusal platform environment session process (.error (.protection page error))
  | raced {failure : Failure}
      (clear : ensurePatchesDoNotOverlapInstalled process.permanentPatchSets session.pending = .ok ())
      (found : validatePatchSources (environment.race process.memory) session.pending = .error failure) :
      Refusal platform environment session process failure
  | restoring {page : Nat} {error : String} (own : session.Opens platform page)
      (failed : environment.restore page = some error) :
      Refusal platform environment session process (.error (.protection page error))

/-- The two steps that can still fail once a batch is committed. -/
inductive LateFailure (platform : Platform) (environment : InstallEnvironment) (session : PatchSession) : Failure → Prop
  | patchFlush {index : Nat} {patch : PendingPatch} {error : String}
      (pending : session.pending[index]? = some patch) (failed : environment.flushPatch index = some error) :
      LateFailure platform environment session (.error (.instructionCache patch.address error))
  | restoring {page : Nat} {error : String} (own : session.Opens platform page)
      (failed : environment.restore page = some error) :
      LateFailure platform environment session (.error (.protection page error))

structure Uninstalled (environment : InstallEnvironment) (before after : Process) : Prop where
  memory : after.memory = before.memory ∨ after.memory = environment.race before.memory
  registry : after.permanentPatchSets = before.permanentPatchSets

structure Installed (environment : InstallEnvironment) (session : PatchSession) (before after : Process) :
    Prop where
  clear : ensurePatchesDoNotOverlapInstalled before.permanentPatchSets session.pending = .ok ()
  validated : validatePatchSources before.memory session.pending = .ok ()
  revalidated : validatePatchSources (environment.race before.memory) session.pending = .ok ()
  memory : after.memory = overlay (environment.race before.memory) session.pending
  registry : after.permanentPatchSets = before.permanentPatchSets ++ [session.permanentPatchSet]

theorem uninstalled_of_untouched {environment : InstallEnvironment} {before after : Process}
    (untouched : Untouched before after) : Uninstalled environment before after :=
  ⟨Or.inl untouched.memory, untouched.registry⟩

theorem protectPatchSources_untouched (platform : Platform) (environment : InstallEnvironment)
    (patches : List PendingPatch) : (protectPatchSources platform environment patches).Preserves Untouched :=
  ((Procedure.readOnly_ofExcept _).preserves Untouched.refl).bind Untouched.trans fun _ =>
    protectLoop_untouched _ _ _

theorem protectPatchSources_refused {platform : Platform} {environment : InstallEnvironment}
    {self : PatchSession} {process before after : Process} {failure : Failure}
    (run : (protectPatchSources platform environment self.pending).exec before = (.error failure, after)) :
    Refusal platform environment self process failure := by
  rcases Procedure.bind_error run with failed | ⟨pages, middle, collected, failed⟩
  · exact .pages (congrArg Prod.fst failed)
  · have listed : ∀ page ∈ pages.sort (· ≤ ·), self.Opens platform page := fun page member =>
      ⟨pages, congrArg Prod.fst collected, (Finset.mem_sort _).mp member⟩
    rcases protectLoop_throws _ listed (by simp) failed with
      ⟨page, error, own, site, rfl⟩ | ⟨_, ⟨page, error, own, site, rfl⟩, rfl⟩
    · exact .protection own site
    · exact .restoring own site

theorem protectPatchSources_opened {platform : Platform} {environment : InstallEnvironment}
    {self : PatchSession} {before after : Process} {protections : List SourceProtection}
    (run : (protectPatchSources platform environment self.pending).exec before = (.ok protections, after)) :
    ∀ protection ∈ protections, self.Opens platform protection.address := by
  obtain ⟨pages, middle, collected, run⟩ := Procedure.bind_ok run
  have listed : ∀ page ∈ pages.sort (· ≤ ·), self.Opens platform page := fun page member =>
    ⟨pages, congrArg Prod.fst collected, (Finset.mem_sort _).mp member⟩
  exact protectLoop_opened _ listed (by simp) run

theorem flushPatches_late {platform : Platform} {environment : InstallEnvironment} {self : PatchSession}
    {before after : Process} {failure : Failure}
    (run : (flushAll environment.flushPatch 0 (self.pending.map (·.address))).exec before =
      (.error failure, after)) : LateFailure platform environment self failure := by
  obtain ⟨position, address, error, member, failed, rfl⟩ := flushAll_throws _ _ _ run
  rw [List.getElem?_map, Option.map_eq_some_iff] at member
  obtain ⟨patch, pending, rfl⟩ := member
  exact .patchFlush pending (by simpa using failed)

/-- What `install_permanently` does behind its last check. -/
def commitBatch (environment : InstallEnvironment) (self : PatchSession) (protections : List SourceProtection) :
    ProcessM Unit := do
  copyReplacements self.pending
  let instructionCacheResult ←
    Procedure.attempt (flushAll environment.flushPatch 0 (self.pending.map (·.address)))
  let protectionResult ← Procedure.attempt (restorePatchSources environment protections)
  Procedure.ofExcept instructionCacheResult
  Procedure.ofExcept protectionResult

theorem commit_cases {platform : Platform} {environment : InstallEnvironment} {self : PatchSession}
    {protections : List SourceProtection} {before after : Process} {result : Result Unit}
    (opened : ∀ protection ∈ protections, self.Opens platform protection.address)
    (run : (commitBatch environment self protections).exec before = (result, after)) :
    after.memory = overlay before.memory self.pending ∧ after.permanentPatchSets = before.permanentPatchSets ∧
      (result = .ok () ∨ ∃ failure, result = .error failure ∧ LateFailure platform environment self failure) := by
  obtain ⟨events, copied⟩ := copyReplacements_exec self.pending before
  rw [commitBatch, Procedure.exec_bind, copied] at run
  rcases flushed : (flushAll environment.flushPatch 0 (self.pending.map (·.address))).exec
    { before with memory := overlay before.memory self.pending, events := events } with ⟨flushes, middle⟩
  rcases restored : (restorePatchSources environment protections).exec middle with ⟨restores, last⟩
  have kept : middle = { before with memory := overlay before.memory self.pending, events := events } := by
    have readOnly := flushAll_readOnly environment.flushPatch 0 (self.pending.map (·.address))
      { before with memory := overlay before.memory self.pending, events := events }
    rwa [flushed] at readOnly
  have untouched := (restorePatchSources_untouched environment protections).of_run restored
  rw [kept] at untouched
  simp only [Procedure.exec_bind, Procedure.exec_attempt, flushed, restored, Procedure.exec_ofExcept] at run
  cases flushes with
  | error failure =>
    obtain ⟨rfl, rfl⟩ := Prod.mk.inj run
    exact ⟨untouched.memory, untouched.registry, Or.inr ⟨failure, rfl, flushPatches_late flushed⟩⟩
  | ok done =>
    obtain ⟨rfl, rfl⟩ := Prod.mk.inj run
    refine ⟨untouched.memory, untouched.registry, ?_⟩
    cases restores with
    | ok done => exact Or.inl rfl
    | error failure =>
      obtain ⟨_, ⟨page, error, own, site, rfl⟩, rfl⟩ := restorePatchSources_throws _ opened restored
      exact Or.inr ⟨_, rfl, .restoring own site⟩

/-- Where an installation can end: at a check, while it opens pages, at the second validation, or behind the commit
    point. -/
inductive Stage (platform : Platform) (environment : InstallEnvironment) (self : PatchSession) (before : Process) :
    Result Unit → Process → Prop
  | refused {failure : Failure} (refusal : Refusal platform environment self before failure) :
      Stage platform environment self before (.error failure) before
  | unprotected {failure : Failure} {after : Process}
      (failed : (protectPatchSources platform environment self.pending).exec before = (.error failure, after)) :
      Stage platform environment self before (.error failure) after
  | raced {protections : List SourceProtection} {opened after : Process} {failure : Failure} {result : Result Unit}
      (clear : ensurePatchesDoNotOverlapInstalled before.permanentPatchSets self.pending = .ok ())
      (protect : (protectPatchSources platform environment self.pending).exec before = (.ok protections, opened))
      (found : validatePatchSources (environment.race opened.memory) self.pending = .error failure)
      (rest : (restorePatchSources environment protections >>= fun _ => throw failure).exec
        { opened with memory := environment.race opened.memory } = (result, after)) :
      Stage platform environment self before result after
  | committed {protections : List SourceProtection} {opened after : Process} {result : Result Unit}
      (clear : ensurePatchesDoNotOverlapInstalled before.permanentPatchSets self.pending = .ok ())
      (validated : validatePatchSources before.memory self.pending = .ok ())
      (protect : (protectPatchSources platform environment self.pending).exec before = (.ok protections, opened))
      (revalidated : validatePatchSources (environment.race opened.memory) self.pending = .ok ())
      (rest : (commitBatch environment self protections).exec
        { opened with
          memory := environment.race opened.memory
          permanentPatchSets := opened.permanentPatchSets ++ [self.permanentPatchSet] } = (result, after)) :
      Stage platform environment self before result after

theorem install_stage {platform : Platform} {environment : InstallEnvironment} {self : PatchSession}
    {before after : Process} {result : Result Unit}
    (run : (installPermanently platform environment self).exec before = (result, after)) :
    Stage platform environment self before result after := by
  rcases Procedure.bind_cases run with ⟨failure, rfl, failed⟩ | ⟨executable, sealed, ran, fromFlush⟩
  · obtain ⟨index, page, error, own, site, rfl⟩ := sealPages_throws _ _ _ failed
    obtain rfl := (sealPages_readOnly _ _ _).of_run failed
    exact .refused (.sealing own (by simpa using site))
  obtain rfl := (sealPages_readOnly _ _ _).of_run ran
  have pages := sealPages_ok ran
  rcases Procedure.bind_cases fromFlush with ⟨failure, rfl, failed⟩ | ⟨_, flushed, ran, fromOverlap⟩
  · obtain ⟨position, address, error, member, site, rfl⟩ := flushAll_throws _ _ _ failed
    obtain rfl := (flushAll_readOnly _ _ _).of_run failed
    rw [pages, List.getElem?_map, Option.map_eq_some_iff] at member
    obtain ⟨page, own, rfl⟩ := member
    exact .refused (.pageFlush own (by simpa using site))
  obtain rfl := (flushAll_readOnly _ _ _).of_run ran
  rw [Procedure.exec_get_bind] at fromOverlap
  rcases Procedure.ofExcept_cases fromOverlap with ⟨failure, found, rfl, rfl⟩ | ⟨⟨⟩, clear, fromValidation⟩
  · exact .refused (.overlap found)
  rw [Procedure.exec_get_bind] at fromValidation
  rcases Procedure.ofExcept_cases fromValidation with ⟨failure, found, rfl, rfl⟩ | ⟨⟨⟩, validated, fromProtection⟩
  · exact .refused (.changed clear found)
  rcases Procedure.bind_cases fromProtection with ⟨failure, rfl, failed⟩ | ⟨protections, opened, protect, fromRace⟩
  · exact .unprotected failed
  rw [Procedure.exec_modify_bind, Procedure.exec_get_bind] at fromRace
  cases revalidated : validatePatchSources (environment.race opened.memory) self.pending with
  | error failure =>
    simp only [revalidated] at fromRace
    exact .raced clear protect revalidated fromRace
  | ok done =>
    simp only [revalidated] at fromRace
    rw [Procedure.exec_modify_bind, pages] at fromRace
    exact .committed clear validated protect revalidated fromRace

/-- An installation either is refused and leaves memory and registry alone, or takes effect entirely. -/
theorem install_cases {platform : Platform} {environment : InstallEnvironment} {self : PatchSession}
    {before after : Process} {result : Result Unit}
    (run : (installPermanently platform environment self).exec before = (result, after)) :
    (∃ failure, result = .error failure ∧ Refusal platform environment self before failure ∧
        Uninstalled environment before after) ∨
      Installed environment self before after ∧
        (result = .ok () ∨ ∃ failure, result = .error failure ∧ LateFailure platform environment self failure) := by
  cases install_stage run with
  | refused refusal => exact Or.inl ⟨_, rfl, refusal, uninstalled_of_untouched (Untouched.refl before)⟩
  | unprotected failed =>
    have untouched := (protectPatchSources_untouched _ _ _).of_run failed
    exact Or.inl ⟨_, rfl, protectPatchSources_refused failed, uninstalled_of_untouched untouched⟩
  | raced clear protect found rest =>
    have untouched := (protectPatchSources_untouched _ _ _).of_run protect
    have opened := protectPatchSources_opened protect
    simp only [untouched.memory] at found rest
    refine Or.inl ?_
    rcases Procedure.bind_cases rest with ⟨failure, rfl, failed⟩ | ⟨_, restored, ran, last⟩
    · obtain ⟨_, ⟨page, error, own, site, rfl⟩, rfl⟩ := restorePatchSources_throws _ opened failed
      have kept := (restorePatchSources_untouched _ _).of_run failed
      exact ⟨_, rfl, .restoring own site, Or.inr kept.memory, kept.registry.trans untouched.registry⟩
    · have kept := (restorePatchSources_untouched _ _).of_run ran
      obtain ⟨rfl, rfl⟩ := Prod.mk.inj last
      exact ⟨_, rfl, .raced clear found, Or.inr kept.memory, kept.registry.trans untouched.registry⟩
  | committed clear validated protect revalidated rest =>
    have untouched := (protectPatchSources_untouched _ _ _).of_run protect
    obtain ⟨memory, registry, outcome⟩ := commit_cases (protectPatchSources_opened protect) rest
    simp only [untouched.memory] at revalidated memory
    simp only [untouched.registry] at registry
    exact Or.inr ⟨⟨clear, validated, revalidated, memory, registry⟩, outcome⟩

end PatchSession

end Patchy
