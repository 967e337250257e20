import Patchy.Concurrent.Sequential

set_option autoImplicit false

namespace Patchy

namespace Concurrent

def Trusts (platform : Platform) (state : Concurrent) (tears : Tears) (id : Nat) (range : InstalledPatch) : Prop :=
  tears.sessions id = false ∨ (state.settled platform).Untaken range

/-- The sequential system explains the state and all answers: what is settled is what it has come to, on all pages
    but those of sessions that have read torn bytes. Such a session differs in what it has read, and has a patch
    that is taken. -/
structure Explains (platform : Platform) (state : Concurrent) (answers : Nat → List Outcome) (tears : Tears)
    (sequential : Answered) : Prop where
  process : (state.settled platform).Alike (tears.Spares platform) sequential.system.process
  sessions : ∀ id, Option.Rel (PatchSession.Alike (state.Trusts platform tears id)) (state.threads id).undecided
    (sequential.system.sessions id)
  torn : ∀ id session, tears.sessions id = true → (state.threads id).undecided = some session →
    ∃ patch ∈ session.pending, ¬ (state.settled platform).Untaken patch.installed
  answers : ∀ id, sequential.answers id = answers id ++ (state.due platform id).toList
  mapped : ∀ base, sequential.system.Mapped base → base ∈ state.mapped
  pages : ∀ base ∈ tears.pages, base ∈ state.mapped

variable {platform : Platform} {memory : ProcessMemory} {self after : Concurrent} {answers said : Nat → List Outcome}
  {tears later : Tears} {sequential next : Answered} {id : Nat} {thread : Thread}

theorem settled_free (free : self.lock = none) : self.settled platform = self.process := by
  simp only [settled, free]

theorem settled_held {session : PatchSession} {environment : InstallEnvironment} {point : Point}
    (held : self.lock = some id) (here : self.threads id = .installing session environment point) :
    self.settled platform = ((Point.rest platform environment session point).exec self.process).2 := by
  simp only [settled, held, here]

theorem Guarded.holder (guarded : self.Guarded) (held : self.lock = some id) :
    ∃ session environment point, self.threads id = .installing session environment point ∧ point.locked := by
  have locked := (guarded.lock id).mpr held
  cases here : self.threads id with
  | idle => simp [here, Thread.locked] at locked
  | preparing session => simp [here, Thread.locked] at locked
  | installing session environment point =>
    exact ⟨session, environment, point, rfl, by simpa [here, Thread.locked] using locked⟩

theorem settled_congr (lock : after.lock = self.lock) (process : after.process = self.process)
    (holder : ∀ id, self.lock = some id → after.threads id = self.threads id) :
    after.settled platform = self.settled platform := by
  cases held : self.lock with
  | none => rw [settled_free held, settled_free (lock.trans held), process]
  | some id => simp only [settled, lock, held, holder id held, process]

theorem settled_recorded (guarded : self.Guarded) {record : InstalledPatch}
    (member : record ∈ (self.settled platform).recorded) : self.IsSource record := by
  cases held : self.lock with
  | none =>
    rw [settled_free held] at member
    exact Or.inl member
  | some id =>
    obtain ⟨session, environment, point, here, -⟩ := guarded.holder held
    rw [settled_held held here] at member
    refine (Point.rest_recorded point self.process member).imp_right ?_
    rintro ⟨unrecorded, own⟩
    exact ⟨session, ⟨id, by simp [here, Thread.session, unrecorded]⟩, own⟩

theorem settled_memory (guarded : self.Guarded) {location : Nat}
    (outside : ∀ record ∈ (self.settled platform).recorded, ¬ record.Covers location) :
    (self.settled platform).memory location = self.process.memory location := by
  cases held : self.lock with
  | none => rw [settled_free held]
  | some id =>
    obtain ⟨session, environment, point, here, -⟩ := guarded.holder held
    rw [settled_held held here] at outside ⊢
    exact Point.rest_memory point self.process (guarded.uncopied id session environment point here) outside

theorem Guarded.untorn (guarded : self.Guarded) {source : InstalledPatch}
    (untaken : (self.settled platform).Untaken source) : ¬ self.Torn platform source := by
  refine not_not.mpr (Memory.readAt_congr fun location inside => ?_)
  exact (settled_memory guarded fun record member covers => (untaken record member).not_covers covers inside).symm

theorem due_idle (here : self.threads id = .idle) : self.due platform id = none := by
  simp only [due, here]

theorem due_preparing {session : PatchSession} (here : self.threads id = .preparing session) :
    self.due platform id = none := by
  simp only [due, here]

theorem due_decided {session : PatchSession} {environment : InstallEnvironment} {point : Point}
    (here : self.threads id = .installing session environment point) (decided : point.decided) :
    self.due platform id =
      some (.installed ((Point.rest platform environment session point).exec self.process).1) := by
  simp only [due, here, if_pos decided]

theorem due_undecided {session : PatchSession} {environment : InstallEnvironment} {point : Point}
    (here : self.threads id = .installing session environment point) (undecided : ¬ point.decided) :
    self.due platform id = none := by
  simp only [due, here, if_neg undecided]

theorem due_congr (thread : after.threads id = self.threads id)
    (same : ∀ session environment point, self.threads id = .installing session environment point → point.decided →
      ((Point.rest platform environment session point).exec self.process).1 =
        ((Point.rest platform environment session point).exec after.process).1) :
    after.due platform id = self.due platform id := by
  cases here : self.threads id with
  | idle => simp only [due, thread, here]
  | preparing session => simp only [due, thread, here]
  | installing session environment point =>
    by_cases decided : point.decided
    · rw [due_decided here decided, due_decided (thread.trans here) decided, same _ _ _ here decided]
    · rw [due_undecided here decided, due_undecided (thread.trans here) decided]

theorem Explains.session_eq (explains : Explains platform self answers tears sequential)
    (clean : tears.sessions id = false) : (self.threads id).undecided = sequential.system.sessions id := by
  have related := explains.sessions id
  generalize (self.threads id).undecided = session at related ⊢
  generalize sequential.system.sessions id = twin at related ⊢
  cases related with
  | none => rfl
  | some alike => rw [alike.eq fun _ _ => Or.inl clean]

theorem trusts_congr (untaken : (after.settled platform).Untaken = (self.settled platform).Untaken)
    (same : later.sessions id = tears.sessions id) :
    after.Trusts platform later id = self.Trusts platform tears id := by
  funext range
  simp only [Trusts, untaken, same]

theorem spares_congr (pages : later.pages = tears.pages) : later.Spares platform = tears.Spares platform := by
  funext location
  simp only [Tears.Spares, pages]

theorem Explains.setThread (explains : Explains platform self answers tears sequential) (guarded : self.Guarded)
    (free : (self.threads id).locked = false) (process : next.system.process = sequential.system.process)
    (mapped : ∀ base, next.system.Mapped base → sequential.system.Mapped base)
    (pages : later.pages = tears.pages)
    (others : ∀ other, other ≠ id → next.system.sessions other = sequential.system.sessions other ∧
      next.answers other = sequential.answers other ∧ said other = answers other ∧
        later.sessions other = tears.sessions other)
    (session : Option.Rel (PatchSession.Alike (self.Trusts platform later id)) thread.undecided
      (next.system.sessions id))
    (torn : ∀ session, later.sessions id = true → thread.undecided = some session →
      ∃ patch ∈ session.pending, ¬ (self.settled platform).Untaken patch.installed)
    (answer : next.answers id = said id ++ ((self.setThread id thread).due platform id).toList) :
    Explains platform (self.setThread id thread) said later next := by
  have settled : (self.setThread id thread).settled platform = self.settled platform := by
    refine settled_congr rfl rfl fun holder held => Function.update_of_ne ?_ _ _
    rintro rfl
    simp [← guarded.lock holder, free] at held
  constructor
  case process =>
    rw [settled, process, spares_congr pages]
    exact explains.process
  case sessions =>
    intro other
    by_cases same : other = id
    · subst same
      rw [trusts_congr (congrArg Process.Untaken settled) rfl]
      simpa [Concurrent.setThread] using session
    · obtain ⟨still, -, -, spared⟩ := others other same
      rw [trusts_congr (congrArg Process.Untaken settled) spared, still]
      simpa [Concurrent.setThread, same] using explains.sessions other
  case torn =>
    intro other found bad here
    rw [settled]
    by_cases same : other = id
    · subst same
      exact torn found bad (by simpa [Concurrent.setThread] using here)
    · rw [(others other same).2.2.2] at bad
      exact explains.torn other found bad (by simpa [Concurrent.setThread, same] using here)
  case answers =>
    intro other
    by_cases same : other = id
    · subst same
      exact answer
    · obtain ⟨-, still, unsaid, -⟩ := others other same
      have due := @due_congr platform self (self.setThread id thread) other (Function.update_of_ne same _ _)
        fun _ _ _ _ _ => rfl
      rw [still, unsaid, explains.answers other, due]
  case mapped => exact fun base known => explains.mapped base (mapped base known)
  case pages => exact pages ▸ explains.pages

theorem Explains.advance (explains : Explains platform self answers tears sequential) (guarded : self.Guarded)
    {session : PatchSession} {environment : InstallEnvironment} {point : Point}
    (here : self.threads id = .installing session environment point) (locked : point.locked) :
    Explains platform (self.afterAdvance id session environment
      (point.advance platform environment session self.process).1
      (point.advance platform environment session self.process).2) answers tears sequential := by
  have held : self.lock = some id := (guarded.lock id).mp (by simpa [here, Thread.locked] using locked)
  have rest := @Point.rest_advance platform environment session point self.process
  have decided := @Point.advance_decided platform environment session point (Point.locked_decided locked) self.process
  have before := @settled_held platform self id session environment point held here
  generalize point.advance platform environment session self.process = last at *
  obtain ⟨following, process⟩ := last
  -- What is settled is what the holder of the lock will leave behind, so its own steps do not change it.
  have settled :
      (self.afterAdvance id session environment following process).settled platform = self.settled platform := by
    rw [before, ← rest]
    rcases Point.decided_cases decided with still | ⟨result, rfl⟩
    · refine @settled_held platform _ id _ _ _ ?_ (Function.update_self _ _ _)
      simp [afterAdvance, still]
    · exact settled_free (by simp [afterAdvance, Point.locked, held])
  have undecided (other : Nat) :
      ((self.afterAdvance id session environment following process).threads other).undecided =
        (self.threads other).undecided := by
    by_cases same : other = id
    · subst same
      simp [afterAdvance, Concurrent.setThread, here, Thread.undecided, Point.locked_decided locked, decided]
    · simp [afterAdvance, Concurrent.setThread, same]
  constructor
  case process => exact settled ▸ explains.process
  case sessions =>
    intro other
    rw [trusts_congr (congrArg Process.Untaken settled) rfl, undecided]
    exact explains.sessions other
  case torn =>
    simp only [settled, undecided]
    exact explains.torn
  case answers =>
    intro other
    rw [explains.answers other]
    by_cases same : other = id
    · subst same
      rw [due_decided here (Point.locked_decided locked), ← rest, @due_decided platform
        (self.afterAdvance other session environment following process) other _ _ _ (Function.update_self _ _ _)
        decided]
      rfl
    · rw [@due_congr platform self (self.afterAdvance id session environment following process) other
        (Function.update_of_ne same _ _)]
      intro found environment' point' old decided'
      -- Nobody else has the lock, so whoever else is decided is finished.
      rcases Point.decided_cases decided' with locked' | ⟨result, rfl⟩
      · have own := (guarded.lock other).mp (by simpa [old, Thread.locked] using locked')
        exact absurd (Option.some.inj (own.symm.trans held)) same
      · rfl
  case mapped => exact explains.mapped
  case pages => exact explains.pages

/-- What is installed at once is what the thread that takes the lock will have installed. -/
theorem install_anticipated {process other : Process} {region : Nat → Prop} (alike : process.Alike region other)
    {session twin : PatchSession} (same : session.Alike process.Untaken twin) {environment : InstallEnvironment}
    (unraced : environment.Unraced) {pages : List Nat} (sealed : (Point.waiting pages).Sealed environment session)
    (formed : session.WellFormed) (records : ∀ record ∈ process.recorded, record.WellFormed)
    (known : ∀ location, (Point.waiting pages).Reads session location → region location) :
    ((twin.installPermanently platform environment).exec other).1 =
        ((Point.rest platform environment session (.checking pages)).exec process).1 ∧
      ((Point.rest platform environment session (.checking pages)).exec process).2.Alike region
        ((twin.installPermanently platform environment).exec other).2 := by
  obtain ⟨sealing, flushing⟩ := sealed other
  have reduced : (twin.installPermanently platform environment).exec other =
      (Point.rest platform environment twin (.checking pages)).exec other := by
    rw [← Point.rest_sealing unraced]
    simp [Point.rest, ← same.pages, Procedure.exec_bind, sealing, flushing]
  rw [reduced]
  have checks := PatchSession.ensurePatchesDoNotOverlapInstalled_alike same.pending process.permanentPatchSets
  -- Snapshots only differ on ranges that are taken, and a session with such a range is refused before they are
  -- compared.
  rcases PatchSession.ensurePatchesDoNotOverlapInstalled_cases records formed.patches with
    ⟨clear, apart⟩ | ⟨patch, pending, record, member, -, refused⟩
  · obtain rfl : session = twin := same.eq fun patch pending record member => apart patch pending record member
    obtain ⟨result, after⟩ := @Point.rest_alike platform environment session region _ _ alike (.checking pages) known
    exact ⟨result.symm, after⟩
  · have failed : (Point.rest platform environment session (.checking pages)).exec process =
        (Result.err (.overlappingPatch record.address patch.address), process) := by
      simp [Point.rest, Point.checkRest, Procedure.exec_bind, refused, Result.err]
    have other : (Point.rest platform environment twin (.checking pages)).exec other =
        (Result.err (.overlappingPatch record.address patch.address), other) := by
      rw [checks] at refused
      simp [Point.rest, Point.checkRest, Procedure.exec_bind, ← alike.registry, refused, Result.err]
    rw [failed, other]
    exact ⟨rfl, alike⟩

theorem Explains.acquire (explains : Explains platform self answers tears sequential) (guarded : self.Guarded)
    (separate : self.Separate platform) (invariant : System.Invariant platform memory sequential.system)
    {session : PatchSession} {environment : InstallEnvironment} {pages : List Nat}
    (here : self.threads id = .installing session environment (.waiting pages)) (free : self.lock = none) :
    Explains platform (self.afterAdvance id session environment (.checking pages) self.process) answers tears
      (sequential.step platform (.installPermanently id environment)) := by
  have settled := @settled_free platform self free
  have related := explains.sessions id
  have process := explains.process
  rw [settled] at process
  have live : self.Live session := ⟨id, by simp [here, Thread.session, Point.unrecorded]⟩
  have formed := separate.formed session live
  simp only [here, Thread.undecided, Point.decided] at related
  generalize found : sequential.system.sessions id = twin? at related
  obtain ⟨alike⟩ := related
  rename_i twin
  have records : ∀ record ∈ self.process.recorded, record.WellFormed := by
    rw [Process.recorded, process.registry]
    exact System.recorded_formed invariant
  -- An installation looks at its sources only, and these lie outside all pages.
  have known : ∀ location, (Point.waiting pages).Reads session location → tears.Spares platform location := by
    rintro location ⟨-, patch, pending, inside⟩ base member within
    rw [(formed.patches patch pending).sized] at inside
    exact separate.apart base (explains.pages base member) patch.installed
      (Or.inr ⟨session, live, patch, pending, rfl⟩) location within inside
  have shared : session.Alike self.process.Untaken twin :=
    alike.mono fun range untaken => Or.inr (settled.symm ▸ untaken)
  obtain ⟨answer, together⟩ := @install_anticipated platform _ _ _ process session twin shared environment
    (guarded.unraced id _ _ _ here) pages (guarded.sealed id _ _ _ here) formed records known
  have held : (self.afterAdvance id session environment (.checking pages) self.process).settled platform =
      ((Point.rest platform environment session (.checking pages)).exec self.process).2 :=
    @settled_held platform _ id _ _ _ rfl (Function.update_self _ _ _)
  have fewer {range : InstalledPatch} (untaken :
      ((self.afterAdvance id session environment (.checking pages) self.process).settled platform).Untaken range) :
      (self.settled platform).Untaken range := by
    rw [held] at untaken
    rw [settled]
    exact fun record member => untaken record (Point.rest_keeps_recorded _ _ member)
  have decided : ((self.afterAdvance id session environment (.checking pages) self.process).threads id).undecided =
      none := by
    simp [afterAdvance, Concurrent.setThread, Thread.undecided, Point.decided]
  have others {other : Nat} (different : other ≠ id) :
      (self.afterAdvance id session environment (.checking pages) self.process).threads other = self.threads other :=
    Function.update_of_ne different _ _
  rw [Answered.step_install found]
  constructor
  case process =>
    rw [held]
    exact together
  case sessions =>
    intro other
    by_cases same : other = id
    · subst same
      rw [decided]
      simp [System.afterInstallation, System.setSession]
    · rw [others same]
      simp only [System.afterInstallation, System.setSession, Function.update_of_ne same]
      exact PatchSession.Alike.fewer (explains.sessions other) fun range trusted => trusted.imp_right fewer
  case torn =>
    intro other found' bad alive
    by_cases same : other = id
    · subst same
      rw [decided] at alive
      contradiction
    · rw [others same] at alive
      obtain ⟨patch, pending, taken⟩ := explains.torn other found' bad alive
      exact ⟨patch, pending, fun untaken => taken (fewer untaken)⟩
  case answers =>
    intro other
    by_cases same : other = id
    · subst same
      change Function.update sequential.answers other _ other = _
      rw [Function.update_self, explains.answers other, due_undecided here (by simp [Point.decided]), answer,
        @due_decided platform (self.afterAdvance other session environment (.checking pages) self.process) other _ _ _
          (Function.update_self _ _ _) rfl]
      simp [afterAdvance]
    · change Function.update sequential.answers id _ other = _
      rw [Function.update_of_ne same, explains.answers other, @due_congr platform self
        (self.afterAdvance id session environment (.checking pages) self.process) other (others same)
        fun _ _ _ _ _ => rfl]
  case mapped =>
    intro base known
    rw [← Answered.step_install found] at known
    exact explains.mapped base (Answered.install_mapped found known)
  case pages => exact explains.pages

theorem afterAdvance_unlocked (guarded : self.Guarded) (free : (self.threads id).locked = false)
    {session : PatchSession} {environment : InstallEnvironment} {point : Point} (unlocked : point.locked = false) :
    self.afterAdvance id session environment point self.process =
      self.setThread id (.installing session environment point) := by
  have others : ¬ self.lock = some id := by
    rw [← guarded.lock id, free]
    simp
  simp [afterAdvance, setThread, unlocked, others]

theorem install_unsealed {session twin : PatchSession} (same : session.pages = twin.pages)
    {environment : InstallEnvironment} (unraced : environment.Unraced) {failure : Failure} {process : Process}
    (failed : (Point.advance platform environment session process .sealing).1 = .finished (.error failure))
    (other : Process) :
    (twin.installPermanently platform environment).exec other = (.error failure, other) := by
  have alike : (Point.advance platform environment twin process .sealing).1 = .finished (.error failure) := by
    rw [← failed]
    simp only [Point.advance, same]
  have step := @Point.advance_sealing platform environment twin process other
  rw [← Point.rest_sealing unraced, ← Point.rest_advance, step, alike]
  rfl

theorem Explains.seal (explains : Explains platform self answers tears sequential) (guarded : self.Guarded)
    {session : PatchSession} {environment : InstallEnvironment}
    (here : self.threads id = .installing session environment .sealing) :
    Explains platform (self.step platform (.advance id)) answers tears
      (sequential.run platform (self.takesEffect platform (.advance id)).toList) := by
  have free : (self.threads id).locked = false := by simp [here, Thread.locked, Point.locked]
  have unraced := guarded.unraced id session environment .sealing here
  have related := explains.sessions id
  have due := @due_undecided platform self id _ _ _ here (by simp [Point.decided])
  have told := explains.answers id
  rw [due] at told
  rw [step_advance here (by simp) (by simp [Point.blocked]),
    @Point.advance_sealing platform environment session self.process self.process]
  simp only [takesEffect, here]
  -- Sealing looks at nothing that is shared: it fails here if and only if it fails in the sequential system.
  rcases @Point.advance_sealing_cases platform environment session self.process with ⟨pages, waits⟩ | ⟨failure, failed⟩
  · rw [waits, afterAdvance_unlocked guarded free rfl]
    simp only [Point.decided, Bool.false_eq_true, and_false, if_false, Option.toList_none, Answered.run,
      List.foldl_nil]
    refine explains.setThread guarded free rfl (fun _ known => known) rfl (fun _ _ => ⟨rfl, rfl, rfl, rfl⟩) ?_ ?_ ?_
    · simpa [here, Thread.undecided, Point.decided] using related
    · intro found bad same
      exact explains.torn id found bad (by simpa [here, Thread.undecided, Point.decided] using same)
    · rw [told, @due_undecided platform (self.setThread id _) id _ _ _ (Function.update_self _ _ _)
        (by simp [Point.decided])]
  · rw [failed, afterAdvance_unlocked guarded free rfl]
    simp only [here, Thread.undecided, Point.decided] at related
    generalize found : sequential.system.sessions id = twin? at related
    obtain ⟨alike⟩ := related
    rename_i twin
    have ran := install_unsealed alike.pages unraced failed sequential.system.process
    have step := @Answered.step_install platform sequential id environment twin found
    rw [ran] at step
    simp only [Point.decided, Point.blocked, Bool.false_eq_true, not_false_eq_true, true_and, if_true,
      Option.toList_some, Answered.run, List.foldl_cons, List.foldl_nil]
    refine explains.setThread guarded free ?_ (fun _ => Answered.install_mapped found) rfl ?_ ?_ ?_ ?_
    · rw [step]
      rfl
    · intro other different
      rw [step]
      exact ⟨Function.update_of_ne different _ _, Function.update_of_ne different _ _, rfl, rfl⟩
    · rw [step]
      simp [Thread.undecided, Point.decided, System.afterInstallation, System.setSession]
    · simp [Thread.undecided, Point.decided]
    · rw [step, @due_decided platform (self.setThread id _) id _ _ _ (Function.update_self _ _ _) rfl]
      change Function.update sequential.answers id _ id = _
      rw [Function.update_self, told]
      simp [Point.rest]

theorem undecided_live {session : PatchSession} (has : (self.threads id).undecided = some session) :
    self.Live session := by
  refine ⟨id, ?_⟩
  cases here : self.threads id with
  | idle => simp [here, Thread.undecided] at has
  | preparing found => simpa [here, Thread.undecided, Thread.session] using has
  | installing found environment point =>
    simp only [here, Thread.undecided] at has
    cases point <;> simp [Point.decided] at has <;> simp [Thread.session, Point.unrecorded, has]

theorem Explains.isSource (explains : Explains platform self answers tears sequential) (guarded : self.Guarded)
    {range : InstalledPatch} (source : sequential.system.IsSource range) : self.IsSource range := by
  rcases source with recorded | ⟨owner, twin, found, patch, pending, same⟩
  · refine @settled_recorded platform _ guarded _ ?_
    rwa [Process.recorded, explains.process.registry]
  · have related := explains.sessions owner
    rw [found] at related
    generalize has : (self.threads owner).undecided = session? at related
    obtain ⟨alike⟩ := related
    rename_i session
    obtain ⟨own, member, twins⟩ := PatchSession.pending_twin alike.pending pending
    exact Or.inr ⟨session, undecided_live has, own, member, twins.installed.trans same⟩

section

variable {oracle : MappingOracle} {preparation : Preparation} {session : PatchSession}

theorem Explains.admissible (explains : Explains platform self answers tears sequential) (guarded : self.Guarded)
    (admitted : Admissible platform self (.prepare id oracle preparation)) :
    System.Admissible platform sequential.system (.prepare id oracle preparation) := by
  obtain ⟨outside, fresh⟩ := admitted
  refine ⟨fun base known => outside base (explains.mapped base known), fun candidate base placed => ?_⟩
  exact ⟨(fresh candidate base placed).1, fun range source =>
    (fresh candidate base placed).2 range (explains.isSource guarded source)⟩

theorem rest_afterPreparation (workspace : Workspace)
    (separate : (self.afterPreparation id session workspace).Separate platform)
    (kept : ∀ location, (self.afterPreparation id session workspace).Outside platform location →
      workspace.memory location = self.process.memory location)
    {owner : Nat} {found : PatchSession} {environment : InstallEnvironment} {point : Point} (different : owner ≠ id)
    (here : self.threads owner = .installing found environment point) :
    let after := self.afterPreparation id session workspace
    ((Point.rest platform environment found point).exec self.process).1 =
        ((Point.rest platform environment found point).exec after.process).1 ∧
      ((Point.rest platform environment found point).exec self.process).2.Alike (after.Outside platform)
        ((Point.rest platform environment found point).exec after.process).2 := by
  intro after
  have alike : self.process.Alike (after.Outside platform) after.process :=
    ⟨rfl, rfl, rfl, fun location outside => (kept location outside).symm⟩
  refine Point.rest_alike alike ?_
  rintro location ⟨unrecorded, patch, pending, inside⟩ base member within
  have live : after.Live found := ⟨owner, by
    have still : after.threads owner = self.threads owner := Function.update_of_ne different _ _
    simp [still, here, Thread.session, unrecorded]⟩
  rw [((separate.formed found live).patches patch pending).sized] at inside
  exact separate.apart base member patch.installed (Or.inr ⟨found, live, patch, pending, rfl⟩) location within inside

theorem settled_afterPreparation (guarded : self.Guarded) (here : self.threads id = .preparing session)
    (workspace : Workspace) (separate : (self.afterPreparation id session workspace).Separate platform)
    (kept : ∀ location, (self.afterPreparation id session workspace).Outside platform location →
      workspace.memory location = self.process.memory location) :
    let after := self.afterPreparation id session workspace
    (self.settled platform).Alike (after.Outside platform) (after.settled platform) := by
  intro after
  cases held : self.lock with
  | none =>
    rw [settled_free held, @settled_free platform after held]
    exact ⟨rfl, rfl, rfl, fun location outside => (kept location outside).symm⟩
  | some owner =>
    obtain ⟨found, environment, point, alive, locked⟩ := guarded.holder held
    have different : owner ≠ id := by
      rintro rfl
      simp [here] at alive
    have still : after.threads owner = .installing found environment point :=
      (Function.update_of_ne different _ _).trans alive
    rw [settled_held held alive, @settled_held platform after _ _ _ _ held still]
    exact (rest_afterPreparation workspace separate kept different alive).2

theorem tears_prepare (here : self.threads id = .preparing session) :
    let ran := (preparation.run platform oracle).exec ⟨session, self.process.memory⟩
    let later := tears.step platform self (.prepare id oracle preparation)
    (later = ⟨Function.update tears.sessions id true, tears.pages ++ ran.2.session.bases⟩ ∧
        (tears.sessions id ∨ ran.1.isOk ∧ self.Torn platform preparation.source)) ∨
      later = tears ∧ ¬ (tears.sessions id ∨ ran.1.isOk ∧ self.Torn platform preparation.source) := by
  intro ran later
  simp only [later, Tears.step, here]
  by_cases spoilt : tears.sessions id ∨ ran.1.isOk ∧ self.Torn platform preparation.source
  · exact Or.inl ⟨if_pos spoilt, spoilt⟩
  · exact Or.inr ⟨if_neg spoilt, spoilt⟩

theorem Explains.prepare_related (explains : Explains platform self answers tears sequential) (guarded : self.Guarded)
    (here : self.threads id = .preparing session) {twin : PatchSession}
    (found : sequential.system.sessions id = some twin)
    (admitted : Admissible platform self (.prepare id oracle preparation)) :
    let ran := (preparation.run platform oracle).exec ⟨session, self.process.memory⟩
    let answer := (preparation.run platform oracle).exec ⟨twin, sequential.system.process.memory⟩
    let later := tears.step platform self (.prepare id oracle preparation)
    ran.1 = answer.1 ∧ ran.2.session.Alike (self.Trusts platform later id) answer.2.session ∧
      ∀ location, later.Spares platform location →
        self.process.memory location = sequential.system.process.memory location →
          ran.2.memory location = answer.2.memory location := by
  intro ran answer later
  have alike := explains.sessions id
  simp only [here, Thread.undecided, found, Option.rel_some_some] at alike
  have whole (untorn : ¬ self.Torn platform preparation.source) :
      Memory.readAt self.process.memory preparation.source.address preparation.source.size =
        Memory.readAt sequential.system.process.memory preparation.source.address preparation.source.size := by
    refine (not_not.mp untorn).trans (Memory.readAt_congr fun location inside => ?_)
    exact explains.process.memory location fun base member within =>
      admitted.1 base (explains.pages base member) location within inside
  have doubtful : session.Alike (self.settled platform).Untaken twin := alike.mono fun _ => Or.inr
  -- The answer does not depend on what has been read.
  obtain ⟨same, sessions, -⟩ := @PatchSession.run_related (self.settled platform).Untaken (fun _ => False) platform
    oracle preparation ⟨session, self.process.memory⟩ ⟨twin, sequential.system.process.memory⟩ ⟨doubtful, by simp⟩
    (fun untaken => whole (guarded.untorn untaken)) (by simp)
  refine ⟨same, ?_⟩
  rcases @tears_prepare platform self tears id oracle preparation session here with ⟨marked, -⟩ | ⟨-, spotless⟩
  · change later = _ at marked
    refine ⟨sessions.mono fun range trusted => ?_, fun location spared agree => ?_⟩
    · simpa [Trusts, marked] using trusted
    · have outside : ∀ base ∈ ran.2.session.bases, ¬ Memory.Inside base platform.pageSize location := by
        intro base member
        exact spared base (by rw [marked]; exact List.mem_append_right _ member)
      have bases : ran.2.session.bases = answer.2.session.bases :=
        congrArg (List.map MutableCodePage.mapping) sessions.pages
      have kept : ran.2.memory location = self.process.memory location :=
        PatchSession.run_outside platform oracle preparation _ outside
      have keeps : answer.2.memory location = sequential.system.process.memory location :=
        PatchSession.run_outside platform oracle preparation _ (bases ▸ outside)
      rw [kept, keeps, agree]
  · have clean : tears.sessions id = false := by simpa using fun bad => spotless (Or.inl bad)
    obtain rfl : session = twin := alike.eq fun _ _ => Or.inl clean
    suffices together : Workspace.Alike (fun _ => True)
        (fun location => self.process.memory location = sequential.system.process.memory location) ran.2 answer.2 from
      ⟨together.session.mono fun _ _ => trivial, fun location _ agree => together.memory location agree⟩
    -- A preparation that reads torn bytes and is not marked has failed, and left its session alone.
    by_cases torn : self.Torn platform preparation.source
    · rcases PatchSession.preparation_cases platform oracle preparation ⟨session, self.process.memory⟩ with
        ⟨failure, failed⟩ | ⟨patch, workspace, succeeded, -⟩
      · rcases PatchSession.preparation_cases platform oracle preparation
          ⟨session, sequential.system.process.memory⟩ with ⟨other, refused⟩ | ⟨patch, workspace, succeeded, -⟩
        · simp only [ran, answer, failed, refused]
          exact ⟨.refl _ _, fun _ agree => agree⟩
        · rw [failed, succeeded] at same
          contradiction
      · exact absurd (Or.inr ⟨by simp [succeeded, Except.isOk, Except.toBool], torn⟩) spotless
    · exact (@PatchSession.run_related (fun _ => True) _ platform oracle preparation ⟨session, self.process.memory⟩
        ⟨session, sequential.system.process.memory⟩ ⟨.refl _ _, fun _ agree => agree⟩ (fun _ => whole torn)
        fun _ _ => trivial).2

theorem preparation_grows (before : Workspace) :
    let ran := (preparation.run platform oracle).exec before
    (∀ patch ∈ before.session.pending, patch ∈ ran.2.session.pending) ∧
      (ran.1.isOk → ∃ patch ∈ ran.2.session.pending, patch.installed = preparation.source) := by
  intro ran
  rcases PatchSession.preparation_cases platform oracle preparation before with
    ⟨failure, failed⟩ | ⟨patch, after, succeeded, prepared⟩
  · simp only [ran, failed]
    exact ⟨fun _ => id, by simp [Except.isOk, Except.toBool]⟩
  · obtain ⟨added, grown, aimed, -⟩ := prepared.frame.pending
    simp only [ran, succeeded, grown]
    exact ⟨fun _ => List.mem_append_left _, fun _ => ⟨added, by simp, aimed⟩⟩

/-- What a preparation has done to the session of `id`, among the threads and in the sequential system. -/
structure Preparing (platform : Platform) (state : Concurrent) (tears later : Tears) (sequential : Answered) (id : Nat)
    (session : PatchSession) (preparation : Preparation) (result : Result Patch) (workspace twins : Workspace) :
    Prop where
  here : state.threads id = .preparing session
  orderly : state.Guarded
  guarded : (state.afterPreparation id session workspace).Guarded
  separate : (state.afterPreparation id session workspace).Separate platform
  sessions : workspace.session.Alike (state.Trusts platform later id) twins.session
  agrees : ∀ location, later.Spares platform location →
    state.process.memory location = sequential.system.process.memory location →
      workspace.memory location = twins.memory location
  kept : ∀ location, (∀ base ∈ workspace.session.bases, ¬ Memory.Inside base platform.pageSize location) →
    workspace.memory location = state.process.memory location
  keeps : ∀ location, (∀ base ∈ twins.session.bases, ¬ Memory.Inside base platform.pageSize location) →
    twins.memory location = sequential.system.process.memory location
  grows : ∀ patch ∈ session.pending, patch ∈ workspace.session.pending
  aims : result.isOk → ∃ patch ∈ workspace.session.pending, patch.installed = preparation.source
  marked : (later = ⟨Function.update tears.sessions id true, tears.pages ++ workspace.session.bases⟩ ∧
      (tears.sessions id ∨ result.isOk ∧ state.Torn platform preparation.source)) ∨
    later = tears ∧ ¬ (tears.sessions id ∨ result.isOk ∧ state.Torn platform preparation.source)

namespace Preparing

variable {result : Result Patch} {workspace twins : Workspace}

theorem own : (self.afterPreparation id session workspace).threads id = .preparing workspace.session :=
  Function.update_self _ _ _

theorem others {other : Nat} (different : other ≠ id) :
    (self.afterPreparation id session workspace).threads other = self.threads other :=
  Function.update_of_ne different _ _

section

variable (prepares : Preparing platform self tears later sequential id session preparation result workspace twins)
include prepares

theorem bases : workspace.session.bases = twins.session.bases :=
  congrArg (List.map MutableCodePage.mapping) prepares.sessions.pages

theorem noted {base : Nat} (member : base ∈ workspace.session.bases) :
    base ∈ (self.afterPreparation id session workspace).mapped :=
  prepares.separate.mapped workspace.session ⟨id, by rw [own]; rfl⟩ base member

theorem unmoved {location : Nat} (outside : (self.afterPreparation id session workspace).Outside platform location) :
    workspace.memory location = self.process.memory location :=
  prepares.kept location fun base member => outside base (prepares.noted member)

theorem settled : (self.settled platform).Alike ((self.afterPreparation id session workspace).Outside platform)
    ((self.afterPreparation id session workspace).settled platform) :=
  settled_afterPreparation prepares.orderly prepares.here workspace prepares.separate fun _ => prepares.unmoved

theorem untaken : ((self.afterPreparation id session workspace).settled platform).Untaken =
    (self.settled platform).Untaken := by
  funext range
  simp only [Process.Untaken, Process.recorded, prepares.settled.registry]

theorem wider {location : Nat} (spared : later.Spares platform location) : tears.Spares platform location := by
  rcases prepares.marked with ⟨rfl, -⟩ | ⟨rfl, -⟩
  · exact fun base member => spared base (List.mem_append_left _ member)
  · exact spared

theorem spared {other : Nat} (different : other ≠ id) : later.sessions other = tears.sessions other := by
  rcases prepares.marked with ⟨rfl, -⟩ | ⟨rfl, -⟩
  · exact Function.update_of_ne different _ _
  · rfl

theorem written (explains : Explains platform self answers tears sequential) {location : Nat}
    (spared : later.Spares platform location) :
    ((self.afterPreparation id session workspace).settled platform).memory location = twins.memory location := by
  have before := explains.process.memory location (prepares.wider spared)
  by_cases outside : (self.afterPreparation id session workspace).Outside platform location
  · rw [prepares.keeps location fun base member => outside base (prepares.noted (prepares.bases ▸ member)),
      ← prepares.settled.memory location outside]
    exact before
  -- On a page there is nothing but what preparations have put there.
  · simp only [Outside, not_forall, not_not] at outside
    obtain ⟨base, member, within⟩ := outside
    have free : ∀ record ∈ ((self.afterPreparation id session workspace).settled platform).recorded,
        ¬ record.Covers location := fun record recorded =>
      prepares.separate.apart base member record (settled_recorded prepares.guarded recorded) location within
    rw [settled_memory prepares.guarded free]
    rw [settled_memory prepares.orderly (by simpa only [Process.recorded, prepares.settled.registry] using free)]
      at before
    exact prepares.agrees location spared before

-- A session that is marked overlaps a recorded range, because of an earlier patch or of the one it has read torn.
theorem torn (explains : Explains platform self answers tears sequential) (bad : later.sessions id = true) :
    ∃ patch ∈ workspace.session.pending, ¬ (self.settled platform).Untaken patch.installed := by
  rcases prepares.marked with ⟨-, earlier | ⟨succeeded, torn⟩⟩ | ⟨rfl, spotless⟩
  · obtain ⟨patch, pending, taken⟩ := explains.torn id session earlier (by simp [prepares.here, Thread.undecided])
    exact ⟨patch, prepares.grows patch pending, taken⟩
  · obtain ⟨patch, pending, aimed⟩ := prepares.aims succeeded
    exact ⟨patch, pending, fun free => prepares.orderly.untorn (aimed ▸ free) torn⟩
  · exact absurd (Or.inl bad) spotless

theorem due {other : Nat} (different : other ≠ id) :
    (self.afterPreparation id session workspace).due platform other = self.due platform other := by
  refine due_congr (others different) fun owner environment point old _ => ?_
  exact (rest_afterPreparation workspace prepares.separate (fun _ => prepares.unmoved) different old).1

end

theorem explained
    (prepares : Preparing platform self tears later sequential id session preparation result workspace twins)
    (explains : Explains platform self answers tears sequential) (twin : PatchSession) :
    Explains platform (self.afterPreparation id session workspace) (Trace.note answers id (some (.prepared result))) later
      ⟨sequential.system.afterPreparation id twin twins,
        Function.update sequential.answers id (sequential.answers id ++ [.prepared result])⟩ where
  process :=
    have settled := prepares.settled
    ⟨settled.protection.symm.trans explains.process.protection, settled.registry.symm.trans explains.process.registry,
      settled.events.symm.trans explains.process.events, fun _ => prepares.written explains⟩
  sessions other := by
    by_cases equal : other = id
    · subst equal
      rw [trusts_congr prepares.untaken rfl, own]
      simpa [System.afterPreparation, System.setSession, Thread.undecided] using prepares.sessions
    · rw [trusts_congr prepares.untaken (prepares.spared equal), others equal]
      simpa [System.afterPreparation, System.setSession, equal] using explains.sessions other
  torn other found bad alive := by
    rw [prepares.untaken]
    by_cases equal : other = id
    · subst equal
      rw [own] at alive
      obtain rfl : workspace.session = found := Option.some.inj alive
      exact prepares.torn explains bad
    · rw [prepares.spared equal] at bad
      rw [others equal] at alive
      exact explains.torn other found bad alive
  answers other := by
    change Function.update sequential.answers id _ other = _
    by_cases equal : other = id
    · subst equal
      rw [Function.update_self, Trace.note_self, explains.answers other, due_preparing prepares.here,
        due_preparing own]
      simp
    · rw [Function.update_of_ne equal, Trace.note_of_ne _ equal, explains.answers other, prepares.due equal]
  mapped := by
    rintro base (⟨owner, other, alive, member⟩ | recorded)
    · rcases System.setSession_sessions alive with ⟨-, new⟩ | ⟨-, old⟩
      · rw [← Option.some.inj new, ← prepares.bases] at member
        exact prepares.noted member
      · exact List.mem_append_left _ (explains.mapped base (Or.inl ⟨owner, other, old, member⟩))
    · exact List.mem_append_left _ (explains.mapped base (Or.inr recorded))
  pages base member := by
    rcases prepares.marked with ⟨rfl, -⟩ | ⟨rfl, -⟩
    · rcases List.mem_append.mp member with earlier | new
      · exact List.mem_append_left _ (explains.pages base earlier)
      · exact prepares.noted new
    · exact List.mem_append_left _ (explains.pages base member)

end Preparing

theorem Explains.prepare (explains : Explains platform self answers tears sequential) (guarded : self.Guarded)
    (separate : self.Separate platform) (here : self.threads id = .preparing session)
    (admitted : Admissible platform self (.prepare id oracle preparation)) :
    Explains platform (self.step platform (.prepare id oracle preparation))
      (Trace.note answers id (self.told platform (.prepare id oracle preparation)))
      (tears.step platform self (.prepare id oracle preparation))
      (sequential.step platform (.prepare id oracle preparation)) := by
  obtain ⟨guarded', separated⟩ := step_orderly guarded separate admitted
  have related := explains.sessions id
  simp only [here, Thread.undecided] at related
  generalize found : sequential.system.sessions id = twin? at related
  obtain ⟨alike⟩ := related
  rename_i twin
  obtain ⟨same, sessions, agrees⟩ := explains.prepare_related guarded here found admitted
  obtain ⟨grows, aims⟩ := @preparation_grows platform oracle preparation ⟨session, self.process.memory⟩
  simp only [step, here] at guarded' separated
  have prepares := @Preparing.mk platform self tears _ sequential id session preparation _ _ _ here guarded guarded'
    separated sessions agrees (fun _ => PatchSession.run_outside platform oracle preparation _)
    (fun _ => PatchSession.run_outside platform oracle preparation _) grows aims (tears_prepare here)
  have explained := prepares.explained explains twin
  simpa only [Answered.step, System.step, Concurrent.step, told, here, found, Operation.thread, ← same] using explained

end

theorem Explains.finish (explains : Explains platform self answers tears sequential) (guarded : self.Guarded)
    {session : PatchSession} {environment : InstallEnvironment} {result : Result Unit}
    (here : self.threads id = .installing session environment (.finished result)) :
    Explains platform (self.setThread id .idle) (Trace.note answers id (some (.installed result))) tears
      sequential := by
  have related := explains.sessions id
  refine explains.setThread guarded (by simp [here, Thread.locked, Point.locked]) rfl (fun _ known => known) rfl
    (fun other different => ⟨rfl, rfl, Trace.note_of_ne _ different _, rfl⟩) ?_ (by simp [Thread.undecided]) ?_
  · simpa [here, Thread.undecided, Point.decided] using related
  · rw [explains.answers id, due_decided here rfl, Trace.note_self, due_idle (Function.update_self _ _ _)]
    simp [Point.rest]

theorem Explains.advanced (explains : Explains platform self answers tears sequential) (guarded : self.Guarded)
    (separate : self.Separate platform) (invariant : System.Invariant platform memory sequential.system)
    {session : PatchSession} {environment : InstallEnvironment} {point : Point}
    (here : self.threads id = .installing session environment point) :
    Explains platform (self.step platform (.advance id)) (Trace.note answers id (self.told platform (.advance id)))
      tears (sequential.run platform (self.takesEffect platform (.advance id)).toList) := by
  have unsaid (unfinished : ∀ result, point ≠ .finished result) : self.told platform (.advance id) = none := by
    cases point with
    | finished result => exact absurd rfl (unfinished result)
    | _ => simp only [told, here]
  by_cases blocked : point.blocked self.lock
  · have unfinished (result : Result Unit) : point ≠ .finished result := by
      rintro rfl
      contradiction
    rw [step_blocked here blocked, unsaid unfinished]
    simpa [takesEffect, here, blocked, Answered.run] using explains
  cases point with
  | sealing =>
    rw [unsaid (by simp), Trace.note_none]
    exact explains.seal guarded here
  | waiting pages =>
    have free : self.lock = none := by simpa [Point.blocked] using blocked
    rw [unsaid (by simp), Trace.note_none, step_advance here (by simp) blocked]
    simpa [takesEffect, here, blocked, Point.advance, Point.decided, Answered.run]
      using explains.acquire guarded separate invariant here free
  | finished result =>
    simpa [step, told, takesEffect, here, Point.decided, Answered.run] using explains.finish guarded here
  | _ =>
    rw [unsaid (by simp), Trace.note_none, step_advance here (by simp) blocked]
    simpa [takesEffect, here, Point.decided, Answered.run] using explains.advance guarded here rfl

/-- Each move does what happens with it, and tells its thread what that answers. -/
theorem step_explained (explains : Explains platform self answers tears sequential) (guarded : self.Guarded)
    (separate : self.Separate platform) (invariant : System.Invariant platform memory sequential.system) {move : Move}
    (admitted : Admissible platform self move) :
    (∀ operation ∈ self.takesEffect platform move, System.Admissible platform sequential.system operation) ∧
      Explains platform (self.step platform move)
        (Trace.note answers move.thread (self.told platform move)) (tears.step platform self move)
        (sequential.run platform (self.takesEffect platform move).toList) := by
  cases move with
  | create id =>
    cases here : self.threads id with
    | preparing session | installing session environment point =>
      simpa [step, takesEffect, told, Tears.step, here, Answered.run] using explains
    | idle =>
      have related := explains.sessions id
      simp only [here, Thread.undecided] at related
      have empty : sequential.system.sessions id = none := by
        cases found : sequential.system.sessions id with
        | none => rfl
        | some session =>
          rw [found] at related
          cases related
      have created : sequential.step platform (.create id) =
          ⟨sequential.system.setSession id (some PatchSession.new),
            Function.update sequential.answers id (sequential.answers id ++ [.done])⟩ := by
        simp only [Answered.step, System.step, empty, Operation.thread]
      simp only [step, takesEffect, told, Tears.step, here, Answered.run, Option.toList_some, List.foldl_cons,
        List.foldl_nil, created]
      refine ⟨by simp [System.Admissible], ?_⟩
      refine explains.setThread guarded (by simp [here, Thread.locked]) rfl ?_ rfl ?_ ?_ (by simp) ?_
      · exact fun base => System.setSession_mapped fun found same => (Option.some.inj same).symm
      · exact fun other different => ⟨Function.update_of_ne different _ _, Function.update_of_ne different _ _,
          Trace.note_of_ne _ different _, Function.update_of_ne different _ _⟩
      · simpa [System.setSession, Thread.undecided] using Option.Rel.some (.refl _ _)
      · rw [due_preparing (Function.update_self _ _ _)]
        simp [Move.thread, Trace.note, explains.answers id, due, here]
  | prepare id oracle preparation =>
    cases here : self.threads id with
    | idle | installing session environment point =>
      simpa [step, takesEffect, told, Tears.step, here, Answered.run] using explains
    | preparing session =>
      have happens : self.takesEffect platform (.prepare id oracle preparation) =
          some (.prepare id oracle preparation) := by
        simp only [takesEffect, here]
      rw [happens]
      refine ⟨fun operation same => ?_, explains.prepare guarded separate here admitted⟩
      obtain rfl := Option.some.inj same
      exact explains.admissible guarded admitted
  | drop id =>
    cases here : self.threads id with
    | idle | installing session environment point =>
      simpa [step, takesEffect, told, Tears.step, here, Answered.run] using explains
    | preparing session =>
      simp only [step, takesEffect, told, Tears.step, here, Answered.run, Option.toList_some, List.foldl_cons,
        List.foldl_nil]
      refine ⟨by simp [System.Admissible], ?_⟩
      refine explains.setThread guarded (by simp [here, Thread.locked]) rfl ?_ rfl ?_ ?_ (by simp [Thread.undecided]) ?_
      · exact fun base => System.setSession_mapped fun found same => by contradiction
      · exact fun other different => ⟨Function.update_of_ne different _ _, Function.update_of_ne different _ _,
          Trace.note_of_ne _ different _, rfl⟩
      · simp [Answered.step, System.step, System.setSession, Thread.undecided]
      · simp [Answered.step, System.step, Operation.thread, Move.thread, Trace.note, explains.answers id, due, here,
          setThread]
  | install id environment =>
    cases here : self.threads id with
    | idle | installing session environment' point =>
      simpa [step, takesEffect, told, Tears.step, here, Answered.run] using explains
    | preparing session =>
      have related := explains.sessions id
      have answer := explains.answers id
      simp only [step, takesEffect, told, Tears.step, here, Answered.run, Option.toList_none, List.foldl_nil,
        Trace.note_none]
      refine ⟨by simp, ?_⟩
      refine explains.setThread guarded (by simp [here, Thread.locked]) rfl (fun _ known => known) rfl
        (fun _ _ => ⟨rfl, rfl, rfl, rfl⟩) ?_ ?_ ?_
      · simpa [here, Thread.undecided, Point.decided] using related
      · intro found bad same
        exact explains.torn id found bad (by simpa [here, Thread.undecided, Point.decided] using same)
      · rw [answer, due_preparing here, @due_undecided platform (self.setThread id _) id _ _ _
          (Function.update_self _ _ _) (by simp [Point.decided])]
  | advance id =>
    cases here : self.threads id with
    | idle | preparing session => simpa [step, takesEffect, told, Tears.step, here, Answered.run] using explains
    | installing session environment point =>
      refine ⟨fun operation happens => ?_, explains.advanced guarded separate invariant here⟩
      simp only [takesEffect, here] at happens
      split at happens
      · obtain rfl := Option.some.inj happens
        exact guarded.unraced id session environment point here
      · contradiction

theorem initial_explained (protection : Nat → Nat) :
    Explains platform (initial memory protection) (fun _ => []) ⟨fun _ => false, []⟩
      (Answered.initial memory protection) where
  process := .refl _ _
  sessions id := by simp [initial, Answered.initial, System.initial, Thread.undecided]
  torn id session bad := by contradiction
  answers id := rfl
  mapped base known := by
    rcases known with ⟨id, session, live, -⟩ | ⟨set, member, -⟩
    · simp [Answered.initial, System.initial] at live
    · exact absurd member List.not_mem_nil
  pages base member := absurd member List.not_mem_nil

end Concurrent

end Patchy
