import Patchy.Concurrent.Outcome

set_option autoImplicit false

namespace Patchy

def Process.Restored (self : Process) (page : Nat) : Prop :=
  ∀ flags, .virtualProtect .restore page flags false ∉ self.events

/-- What is open can be written, and remembers how it was protected at first; everything else is protected so. -/
structure Open (protection : Nat → Nat) (opened : SourceProtection → Prop) (process : Process) : Prop where
  writable : ∀ held, opened held → process.protection held.address = pageExecuteReadWrite
  old : ∀ held, opened held → process.Restored held.address → held.old = protection held.address
  closed : ∀ page, (∀ held, opened held → held.address ≠ page) → process.Restored page →
    process.protection page = protection page

theorem Process.Restored.earlier {process : Process} {events : List OsEvent} {page : Nat}
    (restored : (process.perform events).Restored page) : process.Restored page :=
  fun flags member => restored flags (List.mem_append_left _ member)

section

variable {protection : Nat → Nat} {opened : SourceProtection → Prop} {process : Process}

theorem Open.congr {other : SourceProtection → Prop} {after : Process} (open' : Open protection opened process)
    (same : ∀ held, other held ↔ opened held) (protections : after.protection = process.protection)
    (events : ∀ page, after.Restored page → process.Restored page) : Open protection other after where
  writable held member := by rw [protections, open'.writable held ((same held).mp member)]
  old held member restored := open'.old held ((same held).mp member) (events _ restored)
  closed page away restored := by
    rw [protections, open'.closed page (fun held member => away held ((same held).mpr member)) (events _ restored)]

theorem Open.opening (open' : Open protection opened process) {address : Nat}
    (fresh : ∀ held, opened held → held.address ≠ address) :
    Open protection (fun held => opened held ∨ held = ⟨address, process.protection address⟩)
      (process.perform [.virtualProtect .protect address pageExecuteReadWrite true]) where
  writable held member := by
    rcases member with earlier | rfl
    · simpa [Process.perform, OsEvent.protect, fresh held earlier] using open'.writable held earlier
    · simp [Process.perform, OsEvent.protect]
  old held member restored := by
    rcases member with earlier | rfl
    · exact open'.old held earlier restored.earlier
    · exact open'.closed address fresh restored.earlier
  closed page away restored := by
    have other : page ≠ address := (away _ (Or.inr rfl)).symm
    simpa [Process.perform, OsEvent.protect, other] using
      open'.closed page (fun held member => away held (Or.inl member)) restored.earlier

theorem Open.restoring {held : SourceProtection}
    (open' : Open protection (fun other => other = held ∨ opened other) process)
    (distinct : ∀ other, opened other → other.address ≠ held.address) (succeeded : Bool) :
    Open protection opened
      (process.perform [.virtualProtect .restore held.address held.old succeeded]) where
  writable other member := by
    cases succeeded <;>
      simpa [Process.perform, OsEvent.protect, distinct other member] using open'.writable other (Or.inr member)
  old other member restored := open'.old other (Or.inr member) restored.earlier
  closed page away restored := by
    by_cases same : page = held.address
    · subst same
      cases succeeded with
      | true => simpa [Process.perform, OsEvent.protect] using open'.old held (Or.inl rfl) restored.earlier
      | false => exact absurd (by simp [Process.perform]) (restored held.old)
    · have before := open'.closed page (by rintro other (rfl | member); exacts [Ne.symm same, away other member])
        restored.earlier
      cases succeeded <;> simpa [Process.perform, OsEvent.protect, same] using before

end

namespace Point

variable {platform : Platform} {environment : InstallEnvironment} {self : PatchSession}

def Paged (platform : Platform) (self : PatchSession) : Point → Prop
  | .protecting _ left protections =>
      ∃ pages, PatchSession.sourcePages platform self.pending ∅ = .ok pages ∧
        protections.map (·.address) ++ left = pages.sort (· ≤ ·)
  | .revalidating _ protections | .recording _ protections | .copying _ protections | .flushing protections =>
      ∃ pages, PatchSession.sourcePages platform self.pending ∅ = .ok pages ∧
        protections.map (·.address) = pages.sort (· ≤ ·)
  | .restoring protections _ _ =>
      ∃ pages, PatchSession.sourcePages platform self.pending ∅ = .ok pages ∧
        (protections.map (·.address)).Nodup ∧ ∀ held ∈ protections, held.address ∈ pages
  | _ => True

theorem sorted_fresh {protections : List SourceProtection} {address : Nat} {left : List Nat} {pages : Finset Nat}
    (sorted : protections.map (·.address) ++ address :: left = pages.sort (· ≤ ·)) :
    ∀ held ∈ protections, held.address ≠ address := by
  have distinct := pages.sort_nodup (· ≤ ·)
  rw [← sorted, List.nodup_append] at distinct
  exact fun held known => distinct.2.2 _ (List.mem_map_of_mem known) _ List.mem_cons_self

theorem sorted_restoring {protections : List SourceProtection} {left : List Nat} {pages : Finset Nat}
    (collected : PatchSession.sourcePages platform self.pending ∅ = .ok pages)
    (sorted : protections.map (·.address) ++ left = pages.sort (· ≤ ·)) (firstError : Option PatchError) (exit : Exit) :
    (restoring protections.reverse firstError exit).Paged platform self := by
  have distinct := pages.sort_nodup (· ≤ ·)
  rw [← sorted, List.nodup_append] at distinct
  refine ⟨pages, collected, ?_, fun held member => ?_⟩
  · simpa [List.map_reverse, List.nodup_reverse] using distinct.1
  · rw [← Finset.mem_sort (· ≤ ·), ← sorted]
    exact List.mem_append_left _ (List.mem_map_of_mem (List.mem_reverse.mp member))

theorem advance_paged {point : Point} {process : Process} (paged : point.Paged platform self) :
    (point.advance platform environment self process).1.Paged platform self := by
  cases point with
  | sealing =>
    rcases @Point.advance_sealing_cases platform environment self process with ⟨pages, next⟩ | ⟨failure, next⟩ <;>
      rw [next] <;> trivial
  | waiting pages => trivial
  | checking pages | validating pages => simp only [advance]; split <;> trivial
  | collecting pages =>
    simp only [advance]
    split
    · trivial
    next found collected => exact ⟨found, collected, rfl⟩
  -- The pages opened so far and those still to be opened are together the pages of the batch.
  | protecting pages left protections =>
    obtain ⟨found, collected, sorted⟩ := paged
    cases left with
    | nil => exact ⟨found, collected, by simpa using sorted⟩
    | cons address left =>
      simp only [advance, PatchSession.virtualProtect_exec]
      cases environment.protect address with
      | none => exact ⟨found, collected, by simpa using sorted⟩
      | some error => exact sorted_restoring collected sorted _ _
  | revalidating pages protections =>
    obtain ⟨found, collected, sorted⟩ := paged
    simp only [advance]
    split
    · exact sorted_restoring collected ((List.append_nil _).trans sorted) _ _
    · exact ⟨found, collected, sorted⟩
  | recording pages protections => exact paged
  | copying left protections => cases left <;> exact paged
  | flushing protections =>
    obtain ⟨found, collected, sorted⟩ := paged
    exact sorted_restoring collected ((List.append_nil _).trans sorted) _ _
  | restoring left firstError exit =>
    cases left with
    | nil => trivial
    | cons protection left =>
      obtain ⟨found, collected, nodup, inside⟩ := paged
      have rest : (left.map (·.address)).Nodup ∧ ∀ held ∈ left, held.address ∈ found :=
        ⟨(List.nodup_cons.mp nodup).2, fun held member => inside held (List.mem_cons_of_mem _ member)⟩
      simp only [advance, PatchSession.virtualProtect_exec]
      cases environment.restore protection.address <;> exact ⟨found, collected, rest⟩
  | finished result => trivial

theorem advance_open {point : Point} {process : Process} {protection : Nat → Nat} (paged : point.Paged platform self)
    (open' : Open protection (fun held => held ∈ point.opened) process) :
    Open protection (fun held => held ∈ (point.advance platform environment self process).1.opened)
      (point.advance platform environment self process).2 := by
  -- Only protecting and restoring change a protection; all other steps leave the same pages open.
  have same {next : Point} (members : ∀ held, held ∈ next.opened ↔ held ∈ point.opened) :
      Open protection (fun held => held ∈ next.opened) process :=
    open'.congr members rfl fun _ => id
  cases point with
  | protecting pages left protections =>
    obtain ⟨found, collected, sorted⟩ := paged
    cases left with
    | nil => exact same fun _ => Iff.rfl
    | cons address left =>
      have fresh := sorted_fresh sorted
      simp only [advance, PatchSession.virtualProtect_exec]
      cases environment.protect address with
      | none => exact (open'.opening fresh).congr (by simp [opened]) rfl fun _ => id
      | some error =>
        exact open'.congr (by simp [opened]) rfl fun _ restored => restored.earlier
  | restoring left firstError exit =>
    cases left with
    | nil => exact same fun _ => Iff.rfl
    | cons protection' left =>
      obtain ⟨-, -, nodup, -⟩ := paged
      -- No page is open twice, so closing one leaves the others open.
      have distinct : protection'.address ∉ left.map (·.address) := (List.nodup_cons.mp nodup).1
      have away : ∀ other ∈ left, other.address ≠ protection'.address :=
        fun other member same => distinct (same ▸ List.mem_map_of_mem member)
      have rest : Open protection (fun other => other = protection' ∨ other ∈ left) process :=
        open'.congr (fun other => List.mem_cons.symm) rfl fun _ => id
      simp only [advance, PatchSession.virtualProtect_exec]
      cases environment.restore protection'.address <;> exact rest.restoring away _
  | sealing =>
    have untouched : (sealing.advance platform environment self process).2 = process := by
      simp only [advance]
      (repeat' split) <;> rfl
    rw [untouched]
    rcases @Point.advance_sealing_cases platform environment self process with ⟨pages, next⟩ | ⟨failure, next⟩ <;>
      exact same (by simp [next, opened])
  | copying left protections =>
    cases left with
    | nil => exact same fun _ => Iff.rfl
    | cons patch left =>
      exact open'.congr (fun _ => Iff.rfl) rfl fun _ restored flags member =>
        restored flags (List.mem_append_left _ member)
  | recording pages protections => exact open'.congr (fun _ => Iff.rfl) rfl fun _ => id
  | revalidating pages protections => simp only [advance]; split <;> exact same (by simp [opened])
  | flushing protections => exact same (by simp [advance, opened])
  | _ =>
    simp only [advance]
    (try split) <;> exact same fun _ => Iff.rfl

theorem opened_locked {point : Point} {held : SourceProtection} (member : held ∈ point.opened) : point.locked := by
  cases point <;> first | rfl | simp [Point.opened] at member

theorem opened_formed {point : Point} {held : SourceProtection} (member : held ∈ point.opened) :
    point.unrecorded ∨ point.landed := by
  cases point with
  | restoring left firstError exit => cases exit <;> simp [unrecorded, landed]
  | _ => simp [unrecorded, landed, Point.opened] at member ⊢

theorem opened_source {point : Point} (paged : point.Paged platform self) (formed : self.WellFormed)
    {held : SourceProtection} (member : held ∈ point.opened) : SourcePage platform self.pending held.address := by
  obtain ⟨pages, collected, exact⟩ := PatchSession.sourcePages_exact platform formed.patches
  have among {protections : List SourceProtection} {left : List Nat} (known : held ∈ protections)
      (sorted : ∃ pages, PatchSession.sourcePages platform self.pending ∅ = .ok pages ∧
        protections.map (·.address) ++ left = pages.sort (· ≤ ·)) : SourcePage platform self.pending held.address := by
    obtain ⟨found, collected', sorted⟩ := sorted
    cases collected.symm.trans collected'
    rw [← exact, ← Finset.mem_sort (· ≤ ·), ← sorted]
    exact List.mem_append_left _ (List.mem_map_of_mem known)
  cases point with
  | protecting pages left protections => exact among member paged
  | restoring left firstError exit =>
    obtain ⟨found, collected', -, inside⟩ := paged
    cases collected.symm.trans collected'
    exact (exact held.address).mp (inside held member)
  | revalidating pages protections | recording pages protections | copying left protections | flushing protections =>
    exact @among protections [] member (by simpa only [Paged, List.append_nil] using paged)
  | _ => simp [Point.opened] at member

theorem copying_opened {left : List PendingPatch} {protections : List SourceProtection}
    (paged : (copying left protections).Paged platform self) (formed : self.WellFormed) {page : Nat}
    (source : SourcePage platform self.pending page) : ∃ held ∈ protections, held.address = page := by
  obtain ⟨found, collected, sorted⟩ := paged
  obtain ⟨pages, collected', exact⟩ := PatchSession.sourcePages_exact platform formed.patches
  cases collected.symm.trans collected'
  have member : page ∈ protections.map (·.address) := by
    rw [sorted, Finset.mem_sort, exact]
    exact source
  simpa using member

theorem advance_unlocked {point : Point} (unlocked : ¬ point.locked) (process : Process) :
    (point.advance platform environment self process).1.opened = [] ∧
      (point.advance platform environment self process).2 = process := by
  cases point with
  | sealing =>
    rw [@advance_sealing platform environment self process process]
    rcases @Point.advance_sealing_cases platform environment self process with ⟨pages, next⟩ | ⟨failure, next⟩ <;>
      exact ⟨by rw [next]; rfl, rfl⟩
  | waiting pages => exact ⟨rfl, rfl⟩
  | finished result => exact ⟨rfl, rfl⟩
  | _ => simp [Point.locked] at unlocked

end Point

namespace Concurrent

variable {platform : Platform} {memory : ProcessMemory} {protection : Nat → Nat} {self after : Concurrent} {id : Nat}

def Opened (state : Concurrent) (held : SourceProtection) : Prop :=
  ∃ id session environment point, state.threads id = .installing session environment point ∧ held ∈ point.opened

/-- The invariant of source pages: each thread has opened its own, and none is left open. -/
structure Protected (platform : Platform) (protection : Nat → Nat) (state : Concurrent) : Prop where
  paged : ∀ id session environment point, state.threads id = .installing session environment point →
    point.Paged platform session
  pages : Open protection state.Opened state.process

section

variable {session : PatchSession} {environment : InstallEnvironment} {point next : Point} {thread : Thread}

theorem Guarded.opened (guarded : self.Guarded) (locked : (self.threads id).locked)
    (threads : after.threads = Function.update self.threads id (.installing session environment next))
    (held : SourceProtection) : held ∈ next.opened ↔ after.Opened held := by
  constructor
  · exact fun member => ⟨id, session, environment, next, by simp [threads], member⟩
  · rintro ⟨owner, session', environment', point, there, member⟩
    rw [threads] at there
    rcases threads_update there with ⟨-, new⟩ | ⟨different, old⟩
    · cases new
      exact member
    · refine absurd (@Guarded.alone _ owner guarded id ?_ locked) different
      rw [old]
      exact Point.opened_locked member

theorem Opened.update {held : SourceProtection} (threads : after.threads = Function.update self.threads id thread)
    (unlocked : (self.threads id).locked = false)
    (bare : ∀ session environment point, thread = .installing session environment point → point.opened = []) :
    after.Opened held ↔ self.Opened held := by
  constructor
  · rintro ⟨owner, session, environment, point, here, member⟩
    rw [threads] at here
    rcases threads_update here with ⟨-, new⟩ | ⟨-, old⟩
    · simp [bare session environment point new] at member
    · exact ⟨owner, session, environment, point, old, member⟩
  · rintro ⟨owner, session, environment, point, here, member⟩
    refine ⟨owner, session, environment, point, ?_, member⟩
    rw [threads, Function.update_of_ne, here]
    rintro rfl
    simp [here, Thread.locked, Point.opened_locked member] at unlocked

theorem Protected.update (guarded : self.Protected platform protection)
    (threads : after.threads = Function.update self.threads id thread) (unlocked : (self.threads id).locked = false)
    (own : ∀ session environment point, thread = .installing session environment point →
      point.Paged platform session ∧ point.opened = [])
    (protections : after.process.protection = self.process.protection)
    (events : after.process.events = self.process.events) : after.Protected platform protection where
  paged owner session environment point here := by
    rw [threads] at here
    rcases threads_update here with ⟨-, new⟩ | ⟨-, old⟩
    · exact (own session environment point new).1
    · exact guarded.paged owner session environment point old
  pages := by
    refine guarded.pages.congr (fun held => Opened.update threads unlocked ?_) protections ?_
    · exact fun session environment point new => (own session environment point new).2
    · exact fun page restored => by simpa [Process.Restored, events] using restored

end

theorem run_protected (leads : (machine platform memory).Leads (initial memory protection) self) :
    self.Protected platform protection := by
  have start : (machine platform memory).Reachable (initial memory protection) := .start ⟨protection, rfl⟩
  induction leads with
  | refl =>
    refine ⟨fun id session environment point here => ?_, fun held opened => ?_, fun held opened => ?_, fun _ _ _ => rfl⟩
    · contradiction
    · obtain ⟨id, session, environment, point, here, -⟩ := opened
      contradiction
    · obtain ⟨id, session, environment, point, here, -⟩ := opened
      contradiction
  | @tail middle last early step ih =>
    obtain ⟨move, admitted, rfl⟩ := step
    obtain ⟨guarded, -, -⟩ := reachable_original (start.leads early)
    change (middle.step platform move).Protected platform protection
    have moved := step_moved admitted
    generalize middle.step platform move = after at moved ⊢
    cases moved with
    | stayed => exact ih
    | @turned id thread turn =>
      refine ih.update rfl turn.unlocked.1 (fun session environment point new => ?_) rfl rfl
      subst new
      generalize middle.threads id = before at turn
      cases turn
      exact ⟨trivial, rfl⟩
    | prepared here _ _ =>
      exact ih.update rfl (by simp [here, Thread.locked]) (fun _ _ _ new => by contradiction) rfl rfl
    | @advanced id session environment point here free unfinished =>
      have paged := @Point.advance_paged platform environment session point middle.process
        (ih.paged id session environment point here)
      -- Only behind the lock are pages opened, and there is one thread at most behind it.
      by_cases locked : point.locked
      · have holder : (middle.threads id).locked := by rw [here]; exact locked
        have whole : middle.threads = Function.update middle.threads id (.installing session environment point) := by
          rw [← here, Function.update_eq_self]
        have opened := @Point.advance_open platform environment session point middle.process protection
          (ih.paged id session environment point here)
          (ih.pages.congr (fun held => guarded.opened holder whole held) rfl fun _ restored => restored)
        refine ⟨fun owner session' environment' point' there => ?_,
          opened.congr (fun held => (guarded.opened holder rfl held).symm) rfl fun _ restored => restored⟩
        rcases threads_update there with ⟨-, new⟩ | ⟨-, old⟩
        · cases new
          exact paged
        · exact ih.paged owner session' environment' point' old
      · obtain ⟨bare, same⟩ := @Point.advance_unlocked platform environment session point locked middle.process
        refine ih.update rfl (by simpa [here, Thread.locked] using locked) ?_ ?_ ?_
        · rintro _ _ _ ⟨⟩
          exact ⟨paged, bare⟩
        · exact congrArg Process.protection same
        · exact congrArg Process.events same

end Concurrent

end Patchy
