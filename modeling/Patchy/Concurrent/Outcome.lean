import Patchy.Concurrent.Progress
import Patchy.Concurrent.Snapshots

set_option autoImplicit false

namespace Patchy

/-- The operating system has failed on one of the pages or patches of the session. -/
inductive Fault (platform : Platform) (environment : InstallEnvironment) (session : PatchSession) : Failure → Prop
  | sealing {index : Nat} {page : MutableCodePage} {error : String} (own : session.pages[index]? = some page)
      (failed : environment.makeExec index = some error) : Fault platform environment session (.error (.mapping error))
  | pageFlush {index : Nat} {page : MutableCodePage} {error : String} (own : session.pages[index]? = some page)
      (failed : environment.flushPage index = some error) :
      Fault platform environment session (.error (.instructionCache page.mapping error))
  | patchFlush {index : Nat} {patch : PendingPatch} {error : String} (own : session.pending[index]? = some patch)
      (failed : environment.flushPatch index = some error) :
      Fault platform environment session (.error (.instructionCache patch.address error))
  | protection {page : Nat} {error : String} (own : session.Opens platform page)
      (failed : environment.protect page = some error) :
      Fault platform environment session (.error (.protection page error))
  | restoring {page : Nat} {error : String} (own : session.Opens platform page)
      (failed : environment.restore page = some error) :
      Fault platform environment session (.error (.protection page error))

def Clash (recorded : List InstalledPatch) (session : PatchSession) (failure : Failure) : Prop :=
  ∃ record ∈ recorded, ∃ patch ∈ session.pending, failure = .error (.overlappingPatch record.address patch.address) ∧
    ∃ location, record.Covers location ∧ patch.installed.Covers location

namespace Point

def unopened : Point → List Nat
  | .protecting _ rest _ => rest
  | _ => []

def Reasoned (platform : Platform) (environment : InstallEnvironment) (session : PatchSession)
    (recorded : List InstalledPatch) : Point → Prop
  | .restoring _ firstError exit =>
      (∀ error ∈ firstError, Fault platform environment session (.error error)) ∧
        match exit with
        | .failed failure => Fault platform environment session failure
        | .installed result => ∀ failure, result = .error failure → Fault platform environment session failure
  | .finished result => ∀ failure, result = .error failure →
      Fault platform environment session failure ∨ Clash recorded session failure
  | _ => True

structure Accounted (platform : Platform) (environment : InstallEnvironment) (session : PatchSession)
    (recorded : List InstalledPatch) (point : Point) : Prop where
  unopened : ∀ page ∈ point.unopened, session.Opens platform page
  opened : ∀ protection ∈ point.opened, session.Opens platform protection.address
  reasoned : point.Reasoned platform environment session recorded

section

variable {platform : Platform} {environment : InstallEnvironment} {session : PatchSession} {process : Process}
  {recorded : List InstalledPatch}

theorem Accounted.of_closed {point : Point} (unopened : point.unopened = []) (opened : point.opened = [])
    (reasoned : point.Reasoned platform environment session recorded) :
    point.Accounted platform environment session recorded :=
  ⟨by simp [unopened], by simp [opened], reasoned⟩

theorem sealing_accounted (process : Process) :
    (Point.sealing.advance platform environment session process).1.Accounted platform environment session recorded := by
  simp only [advance]
  split
  next failure _ failed =>
    refine .of_closed rfl rfl fun reported same => ?_
    obtain rfl := Except.error.inj same
    obtain ⟨index, page, error, own, site, rfl⟩ := PatchSession.sealPages_throws _ _ _ failed
    exact Or.inl (.sealing own (by simpa using site))
  next executable _ ran =>
    split
    next failure _ failed =>
      refine .of_closed rfl rfl fun reported same => ?_
      obtain rfl := Except.error.inj same
      obtain ⟨position, address, error, member, site, rfl⟩ := PatchSession.flushAll_throws _ _ _ failed
      rw [PatchSession.sealPages_ok ran, List.getElem?_map, Option.map_eq_some_iff] at member
      obtain ⟨page, own, rfl⟩ := member
      exact Or.inl (.pageFlush own (by simpa using site))
    next => exact .of_closed rfl rfl trivial

theorem restoring_accounted {left : List SourceProtection} {firstError : Option PatchError} {exit : Exit}
    (accounted : (Point.restoring left firstError exit).Accounted platform environment session recorded) :
    ((Point.restoring left firstError exit).advance platform environment session process).1.Accounted platform
      environment session recorded := by
  obtain ⟨earlier, reason⟩ := accounted.reasoned
  cases left with
  | nil =>
    refine .of_closed rfl rfl fun failure failed => Or.inl ?_
    cases exit with
    | failed first =>
      cases firstError with
      | none => exact Except.error.inj failed ▸ reason
      | some error => exact Except.error.inj failed ▸ earlier error rfl
    | installed result =>
      cases result with
      | error first => exact Except.error.inj failed ▸ reason first rfl
      | ok done =>
        cases firstError with
        | none => contradiction
        | some error => exact Except.error.inj failed ▸ earlier error rfl
  | cons protection left =>
    obtain ⟨own, others⟩ := List.forall_mem_cons.mp accounted.opened
    simp only [advance]
    split
    next failed => exact (PatchSession.virtualProtect_throws _ _ _ _ failed).elim
    next error _ failed =>
      refine ⟨by simp [Point.unopened], others, fun first member => ?_, reason⟩
      cases firstError with
      | some before => exact earlier first (by simpa using member)
      | none =>
        obtain rfl : _ = first := by simpa using member
        exact .restoring own (PatchSession.virtualProtect_error failed)
    next => exact ⟨by simp [Point.unopened], others, earlier, reason⟩

theorem advance_accounted {point : Point}
    (accounted : point.Accounted platform environment session process.recorded)
    (records : ∀ record ∈ process.recorded, record.WellFormed) (formed : point.unrecorded → session.WellFormed)
    (validated : point.cleared → PatchSession.validatePatchSources process.memory session.pending = .ok ()) :
    (point.advance platform environment session process).1.Accounted platform environment session
      process.recorded := by
  -- Behind the overlap check validation cannot fail, so what is left are clashes and the operating system.
  cases point with
  | sealing => exact sealing_accounted process
  | waiting pages => exact .of_closed rfl rfl trivial
  | checking pages =>
    simp only [advance]
    split
    next failure refused =>
      refine .of_closed rfl rfl fun reported same => ?_
      obtain rfl := Except.error.inj same
      have ranges := (formed rfl).patches
      rcases PatchSession.ensurePatchesDoNotOverlapInstalled_cases records ranges with
        ⟨clear, -⟩ | ⟨patch, pending, record, member, shares, found⟩
      · rw [clear] at refused
        contradiction
      · rw [InstalledPatch.apart_iff (records record member) (ranges patch pending).range] at shares
        push Not at shares
        exact Or.inr ⟨record, member, patch, pending, Except.error.inj (refused.symm.trans found), shares⟩
    next => exact .of_closed rfl rfl trivial
  | validating pages =>
    simp only [advance, validated rfl]
    exact .of_closed rfl rfl trivial
  | collecting pages =>
    obtain ⟨collected, covered, -⟩ := @PatchSession.sourcePages_ok platform session.pending ∅ (formed rfl).patches
    simp only [advance, covered]
    exact ⟨fun page member => ⟨collected, covered, (Finset.mem_sort _).mp member⟩, by simp [Point.opened], trivial⟩
  | protecting pages left protections =>
    cases left with
    | nil => exact ⟨by simp [advance, Point.unopened], accounted.opened, trivial⟩
    | cons address left =>
      obtain ⟨own, others⟩ := List.forall_mem_cons.mp accounted.unopened
      simp only [advance]
      split
      next failed => exact (PatchSession.virtualProtect_throws _ _ _ _ failed).elim
      next failed =>
        refine ⟨by simp [Point.unopened], fun protection member => accounted.opened protection ?_, by simp, ?_⟩
        · simpa [Point.opened] using member
        · exact .protection own (PatchSession.virtualProtect_error failed)
      next => exact ⟨others, List.forall_mem_append.mpr ⟨accounted.opened, by simpa using own⟩, trivial⟩
  | revalidating pages protections =>
    simp only [advance, validated rfl]
    exact ⟨by simp [Point.unopened], accounted.opened, trivial⟩
  | recording pages protections => exact ⟨by simp [advance, Point.unopened], accounted.opened, trivial⟩
  | copying left protections =>
    cases left <;> exact ⟨by simp [advance, Point.unopened], accounted.opened, trivial⟩
  | flushing protections =>
    simp only [advance]
    refine ⟨by simp [Point.unopened], fun protection member => accounted.opened protection ?_, by simp, ?_⟩
    · simpa [Point.opened] using member
    · intro failure failed
      obtain ⟨position, address, error, member, site, rfl⟩ :=
        PatchSession.flushAll_throws environment.flushPatch 0 (session.pending.map (·.address)) (Prod.ext failed rfl)
      rw [List.getElem?_map, Option.map_eq_some_iff] at member
      obtain ⟨patch, own, rfl⟩ := member
      exact .patchFlush own (by simpa using site)
  | restoring left firstError exit => exact restoring_accounted accounted
  | finished result => exact accounted

theorem Accounted.mono {before after : List InstalledPatch} {point : Point}
    (accounted : point.Accounted platform environment session before)
    (grown : ∀ record ∈ before, record ∈ after) : point.Accounted platform environment session after := by
  refine ⟨accounted.unopened, accounted.opened, ?_⟩
  have reasoned := accounted.reasoned
  cases point with
  | finished result =>
    intro failure failed
    refine (reasoned failure failed).imp_right ?_
    rintro ⟨record, member, clash⟩
    exact ⟨record, grown record member, clash⟩
  | restoring left firstError exit => exact reasoned
  | _ => trivial

end

def landed : Point → Bool
  | .copying _ _ | .flushing _ | .restoring _ _ (.installed _) | .finished (.ok ()) => true
  | _ => false

theorem advance_landed {platform : Platform} {environment : InstallEnvironment} {session : PatchSession}
    {point : Point} {process : Process} (landed : (point.advance platform environment session process).1.landed) :
    (∃ pages protections, point = .recording pages protections) ∨
      point.landed ∧ ((∃ patch left protections, point = .copying (patch :: left) protections) ∨
        point.uncopied = [] ∧ (point.advance platform environment session process).1.uncopied = []) := by
  cases point with
  | sealing =>
    rcases @Point.advance_sealing_cases platform environment session process with ⟨pages, next⟩ | ⟨failure, next⟩ <;>
      simp [next, Point.landed] at landed
  | waiting pages => simp [advance, Point.landed] at landed
  | checking pages | validating pages | collecting pages | revalidating pages protections =>
    simp only [advance] at landed
    split at landed <;> simp [Point.landed] at landed
  | protecting pages left protections =>
    cases left with
    | nil => simp [advance, Point.landed] at landed
    | cons address left =>
      simp only [advance] at landed
      split at landed <;> simp [Point.landed] at landed
  | recording pages protections => exact Or.inl ⟨pages, protections, rfl⟩
  | copying left protections =>
    cases left with
    | nil => exact Or.inr ⟨rfl, Or.inr ⟨rfl, rfl⟩⟩
    | cons patch left => exact Or.inr ⟨rfl, Or.inl ⟨patch, left, protections, rfl⟩⟩
  | flushing protections => exact Or.inr ⟨rfl, Or.inr ⟨rfl, rfl⟩⟩
  | restoring left firstError exit =>
    cases left with
    | nil =>
      cases exit with
      | failed failure => cases firstError <;> simp [advance, Exit.result, Point.landed, Result.err] at landed
      | installed result => exact Or.inr ⟨rfl, Or.inr ⟨rfl, rfl⟩⟩
    | cons protection left =>
      simp only [advance] at landed ⊢
      cases exit with
      | failed failure => split at landed <;> simp [Point.landed] at landed
      | installed result => exact Or.inr ⟨rfl, Or.inr ⟨rfl, by split <;> rfl⟩⟩
  | finished result => exact Or.inr ⟨landed, Or.inr ⟨rfl, rfl⟩⟩

end Point

namespace Concurrent

variable {platform : Platform} {memory : ProcessMemory} {self : Concurrent} {id : Nat}

def Accounted (platform : Platform) (state : Concurrent) : Prop :=
  ∀ id session environment point, state.threads id = .installing session environment point →
    point.Accounted platform environment session state.process.recorded

theorem reachable_accounted (reachable : (machine platform memory).Reachable self) : self.Accounted platform := by
  refine reachable.invariant_along (Accounted platform) ?_ ?_
  · rintro self ⟨protection, rfl⟩ id session environment point here
    simp [initial] at here
  · intro self move reachable accounted admitted
    obtain ⟨guarded, separate, original⟩ := reachable_original reachable
    change (self.step platform move).Accounted platform
    have moved := step_moved admitted
    generalize self.step platform move = after at moved ⊢
    intro other session environment point here
    cases moved with
    | stayed => exact accounted other session environment point here
    | @turned id thread turn =>
      rcases threads_update here with ⟨-, new⟩ | ⟨-, old⟩
      · subst new
        generalize self.threads id = before at turn
        cases turn
        exact .of_closed rfl rfl trivial
      · exact accounted other session environment point old
    | prepared _ _ _ =>
      rcases threads_update here with ⟨-, new⟩ | ⟨-, old⟩
      · contradiction
      · exact accounted other session environment point old
    | @advanced id session' environment' point' own free unfinished =>
      have grown := @Point.advance_advanced platform environment' session' point' self.process
      rcases threads_update here with ⟨-, new⟩ | ⟨-, old⟩
      · cases new
        refine (Point.advance_accounted (accounted id session environment point' own) original.records ?_ ?_).mono
          fun _ => grown.grown
        · exact fun unrecorded => separate.formed session ⟨id, by simp [own, Thread.session, unrecorded]⟩
        · exact fun cleared => (original.validated separate own cleared).2
      · exact (accounted other session environment point old).mono fun _ => grown.grown

structure Kept (patches : List PendingPatch) (state : Concurrent) : Prop where
  recorded : ∀ patch ∈ patches, patch.installed ∈ state.process.recorded
  bytes : ∀ patch ∈ patches,
    Memory.readAt state.process.memory patch.address patch.replacement.length = patch.replacement
  apart : ∀ id session environment point, state.threads id = .installing session environment point →
    ∀ other ∈ point.uncopied, ∀ patch ∈ patches, other.installed.Apart patch.installed

theorem Kept.moved {patches : List PendingPatch} {after : Concurrent} (kept : Kept patches self)
    (separate : self.Separate platform) (original : self.Original platform memory) (moved : Moved platform self after) :
    Kept patches after := by
  cases moved with
  | stayed => exact kept
  | @turned id thread turn =>
    refine ⟨kept.recorded, kept.bytes, fun other session environment point here => ?_⟩
    rcases threads_update here with ⟨-, new⟩ | ⟨-, old⟩
    · subst new
      generalize self.threads id = before at turn
      cases turn
      simp [Point.uncopied]
    · exact kept.apart other session environment point old
  | @prepared id session oracle preparation workspace here admitted frame =>
    have separated := separate.prepare here admitted frame
    refine ⟨kept.recorded, fun patch member => ?_, fun other found environment point here' => ?_⟩
    · refine (Memory.readAt_congr fun location inside => ?_).trans (kept.bytes patch member)
      refine frame.memory location fun base own within => ?_
      have noted := separated.mapped workspace.session
        ⟨id, by simp [afterPreparation, setThread, Thread.session]⟩ base own
      exact separated.apart base noted patch.installed (Or.inl (kept.recorded patch member)) location within inside
    · rcases threads_update here' with ⟨-, new⟩ | ⟨-, old⟩
      · contradiction
      · exact kept.apart other found environment point old
  | @advanced id session environment point here free unfinished =>
    have step := @Point.advance_advanced platform environment session point self.process
    generalize point.advance platform environment session self.process = last at *
    obtain ⟨next, process⟩ := last
    -- What is still to be copied is apart from all that was recorded before it.
    have away : ∀ other ∈ next.uncopied, ∀ patch ∈ patches, other.installed.Apart patch.installed := by
      intro other member patch known
      cases step with
      | recorded at' =>
        have cleared : point.cleared := by rw [at']; rfl
        have known := kept.recorded patch known
        exact (original.cleared id session environment point here cleared other member _ known).symm
      | copied at' =>
        subst at'
        exact kept.apart id _ _ _ here other (List.mem_cons_of_mem _ member) patch known
      | kept _ none => simp [none] at member
    refine ⟨fun patch member => step.grown (kept.recorded patch member), fun patch member => ?_, ?_⟩
    · refine (Memory.readAt_congr fun location inside => ?_).trans (kept.bytes patch member)
      exact step.memory fun other uncopied covers =>
        (kept.apart id _ _ _ here other uncopied patch member).not_covers covers inside
    · intro other found environment' point' here'
      rcases threads_update here' with ⟨-, new⟩ | ⟨-, old⟩
      · cases new
        exact away
      · exact kept.apart other found environment' point' old

theorem Kept.run {patches : List PendingPatch} {before after : Concurrent}
    (reachable : (machine platform memory).Reachable before) (kept : Kept patches before)
    (leads : (machine platform memory).Leads before after) : Kept patches after := by
  induction leads with
  | refl => exact kept
  | @tail middle last early step ih =>
    obtain ⟨move, admitted, rfl⟩ := step
    obtain ⟨-, separate, original⟩ := reachable_original (reachable.leads early)
    exact ih.moved separate original (step_moved admitted)

/-- A batch of which a part is still to be copied. -/
structure Landed (memory : ProcessMemory) (session : PatchSession) (point : Point) (state : Concurrent) : Prop where
  formed : session.WellFormed
  set : session.permanentPatchSet ∈ state.process.permanentPatchSets
  original : ∀ patch ∈ session.pending, patch.expected = Memory.readAt memory patch.address patch.replacement.length
  copied : ∃ copied, session.pending = copied ++ point.uncopied ∧ Kept copied state

def AllLanded (memory : ProcessMemory) (state : Concurrent) : Prop :=
  ∀ id session environment point, state.threads id = .installing session environment point → point.landed →
    Landed memory session point state

theorem Landed.moved {session : PatchSession} {point : Point} {after : Concurrent}
    (landed : Landed memory session point self) (separate : self.Separate platform)
    (original : self.Original platform memory) (moved : Moved platform self after) {next : Point}
    (uncopied : next.uncopied = point.uncopied) : Landed memory session next after := by
  obtain ⟨copied, split, kept⟩ := landed.copied
  refine ⟨landed.formed, ?_, landed.original, copied, uncopied ▸ split, kept.moved separate original moved⟩
  cases moved with
  | advanced => exact (Point.advance_advanced _ _).sets landed.set
  | _ => exact landed.set

theorem AllLanded.advance (landed : self.AllLanded memory) (guarded : self.Guarded) (separate : self.Separate platform)
    (original : self.Original platform memory) {session : PatchSession} {environment : InstallEnvironment}
    {point : Point} (here : self.threads id = .installing session environment point)
    (free : ¬ point.blocked self.lock) (unfinished : ∀ result, point ≠ .finished result)
    (done : (point.advance platform environment session self.process).1.landed) :
    Landed memory session (point.advance platform environment session self.process).1
      (self.afterAdvance id session environment (point.advance platform environment session self.process).1
        (point.advance platform environment session self.process).2) := by
  have moved := @Moved.advanced platform self id session environment point here free unfinished
  -- The batch has just been recorded, or a patch of it has just been copied, or nothing is left to copy.
  rcases Point.advance_landed done with ⟨pages, protections, rfl⟩ |
    ⟨earlier, ⟨patch, left, protections, rfl⟩ | ⟨none, later⟩⟩
  · have cleared : (Point.recording pages protections).cleared := rfl
    have sealing := (guarded.sealed id session environment _ here self.process).1
    have bases := PatchSession.sealPages_ok sealing
    refine ⟨separate.formed session ⟨id, by simp [here, Thread.session, Point.unrecorded]⟩, ?_,
      (original.validated separate here cleared).1, [], rfl, ⟨by simp, by simp, by simp⟩⟩
    refine List.mem_append_right _ (List.mem_singleton.mpr ?_)
    rw [PatchSession.permanentPatchSet, bases]
  · obtain ⟨formed, set, snapshots, copied, split, kept⟩ := landed id session environment _ here earlier
    have after := kept.moved separate original moved
    refine ⟨formed, set, snapshots, copied ++ [patch], by simp [split, Point.uncopied, Point.advance], ?_⟩
    have ahead : ∀ other ∈ left, other.installed.Apart patch.installed := by
      have ordered := formed.apart
      rw [split] at ordered
      exact fun other member => (List.rel_of_pairwise_cons (List.pairwise_append.mp ordered).2.1 member).symm
    constructor
    case recorded =>
      intro other member
      rcases List.mem_append.mp member with earlier | last
      · exact after.recorded other earlier
      · rw [List.mem_singleton.mp last]
        exact guarded.uncopied id _ _ _ here patch List.mem_cons_self
    case bytes =>
      intro other member
      rcases List.mem_append.mp member with earlier | last
      · exact after.bytes other earlier
      · rw [List.mem_singleton.mp last]
        exact Memory.readAt_writeAt_same _ _ _
    case apart =>
      intro owner found environment' point' here' other uncopied known member
      rcases List.mem_append.mp member with earlier | last
      · exact after.apart owner found environment' point' here' other uncopied known earlier
      · rw [List.mem_singleton.mp last]
        rcases threads_update here' with ⟨-, new⟩ | ⟨different, old⟩
        · cases new
          exact ahead other uncopied
        · refine absurd (@Guarded.alone _ owner guarded id ?_ ?_) different
          · rw [old]
            exact Point.uncopied_locked uncopied
          · rw [here]
            rfl
  · exact (landed id session environment point here earlier).moved separate original moved (later.trans none.symm)

theorem reachable_landed (reachable : (machine platform memory).Reachable self) : self.AllLanded memory := by
  refine reachable.invariant_along (AllLanded memory) ?_ ?_
  · rintro self ⟨protection, rfl⟩ id session environment point here
    simp [initial] at here
  · intro self move reachable landed admitted
    obtain ⟨guarded, separate, original⟩ := reachable_original reachable
    change (self.step platform move).AllLanded memory
    have moved := step_moved admitted
    generalize self.step platform move = after at moved ⊢
    intro other session environment point here done
    have stays (old : self.threads other = .installing session environment point) : Landed memory session point after :=
      (landed other session environment point old done).moved separate original moved rfl
    cases moved with
    | stayed => exact stays here
    | @turned id thread turn =>
      rcases threads_update here with ⟨-, new⟩ | ⟨-, old⟩
      · subst new
        generalize self.threads id = before at turn
        cases turn
        simp [Point.landed] at done
      · exact stays old
    | prepared =>
      rcases threads_update here with ⟨-, new⟩ | ⟨-, old⟩
      · contradiction
      · exact stays old
    | @advanced id session' environment' from' own free unfinished =>
      rcases threads_update here with ⟨-, new⟩ | ⟨-, old⟩
      · cases new
        exact landed.advance guarded separate original own free unfinished done
      · exact stays old

-- One byte is overwritten.
theorem overwrite_reachable {platform : Platform} {environment : InstallEnvironment} {result : Result Unit}
    (unraced : environment.Unraced)
    (ran : ((PatchSession.installPermanently platform environment ⟨[], [⟨0x1000, [0x90], [0xC3]⟩]⟩).exec
      ⟨fun _ => 0x90, fun _ => 0x20, [], []⟩).1 = result) :
    ∃ state, (machine platform fun _ => 0x90).Reachable state ∧
      state.threads 0 = .installing ⟨[], [⟨0x1000, [0x90], [0xC3]⟩]⟩ environment (.finished result) := by
  let oracle : MappingOracle := ⟨fun _ => .ok (), fun _ => .error "no memory"⟩
  have start : (machine platform fun _ => 0x90).Reachable (initial (fun _ => 0x90) fun _ => 0x20) :=
    .start ⟨fun _ => 0x20, rfl⟩
  have created := @reachable_step _ _ _ start (.create 0) trivial
  have prepared := @reachable_step _ _ _ created (.prepare 0 oracle (.overwrite 0x1000 [0xC3]))
    (admissible_unmapped rfl fun candidate base => by simp [oracle])
  have installed := @reachable_installed _ _ _ 0 ⟨[], [⟨0x1000, [0x90], [0xC3]⟩]⟩ environment prepared rfl rfl unraced
  exact ⟨_, installed, congrArg (fun result => Thread.installing _ environment (.finished result)) ran⟩

end Concurrent

end Patchy
