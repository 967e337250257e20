import Patchy.Concurrent.Orderly
import Patchy.Shared.Fairness

set_option autoImplicit false

namespace Patchy

def Thread.remaining : Thread → Nat × Nat
  | .installing _ _ point => point.remaining
  | _ => (0, 0)

namespace Concurrent

variable {platform : Platform} {memory : ProcessMemory} {self : Concurrent} {id : Nat} {session : PatchSession}
  {environment : InstallEnvironment} {point : Point}

def Installing (id : Nat) (session : PatchSession) (environment : InstallEnvironment) (state : Concurrent) : Prop :=
  ∃ point, (∀ result, point ≠ .finished result) ∧ state.threads id = .installing session environment point

def Finished (id : Nat) (session : PatchSession) (environment : InstallEnvironment) (state : Concurrent) : Prop :=
  ∃ result, state.threads id = .installing session environment (.finished result)

/-- The thread has a step of an installation to make, and need not wait for the lock to make it. -/
def CanAdvance (id : Nat) (state : Concurrent) : Prop :=
  ∃ session environment point, state.threads id = .installing session environment point ∧
    (∀ result, point ≠ .finished result) ∧ ¬ point.blocked state.lock

def Advances (id : Nat) (state : Concurrent) (move : Move) : Prop := state.CanAdvance id ∧ move = .advance id

theorem step_others {move : Move} (other : move.thread ≠ id) :
    (self.step platform move).threads id = self.threads id := by
  cases move <;> simp only [step, Move.thread] at other ⊢ <;> (repeat' split) <;>
    simp [afterAdvance, afterPreparation, setThread, other.symm]

theorem step_elsewhere (here : self.threads id = .installing session environment point) {move : Move}
    (other : move ≠ .advance id) : (self.step platform move).threads id = .installing session environment point := by
  by_cases own : move.thread = id
  · subst own
    cases move <;> simp_all [step, Move.thread]
  · rw [step_others own, here]

theorem step_remaining (here : self.threads id = .installing session environment point)
    (unfinished : ∀ result, point ≠ .finished result) (move : Move) :
    ((self.step platform move).Finished id session environment ∨
      (self.step platform move).Installing id session environment) ∧
    (Prod.Lex (· < ·) (· < ·) ((self.step platform move).threads id).remaining (self.threads id).remaining ∨
      ¬ self.Advances id move ∧
        ((self.step platform move).threads id).remaining = (self.threads id).remaining) := by
  by_cases own : move = .advance id
  · subst own
    by_cases blocked : point.blocked self.lock
    · rw [step_blocked here blocked]
      refine ⟨Or.inr ⟨point, unfinished, here⟩, Or.inr ⟨?_, rfl⟩⟩
      rintro ⟨⟨session', environment', point', here', -, free⟩, -⟩
      cases here.symm.trans here'
      exact free blocked
    · rw [step_advance here unfinished blocked]
      have lower := @Point.advance_remaining platform environment session point unfinished self.process
      generalize point.advance platform environment session self.process = last at lower ⊢
      have now : (self.afterAdvance id session environment last.1 last.2).threads id =
          .installing session environment last.1 := Function.update_self _ _ _
      refine ⟨?_, Or.inl (by simpa only [now, here, Thread.remaining] using lower)⟩
      by_cases final : ∃ result, last.1 = .finished result
      · obtain ⟨result, done⟩ := final
        exact Or.inl ⟨result, done ▸ now⟩
      · exact Or.inr ⟨last.1, not_exists.mp final, now⟩
  · have stays := @step_elsewhere platform _ _ _ _ _ here move own
    exact ⟨Or.inr ⟨point, unfinished, stays⟩, Or.inr ⟨fun advances => own advances.2, by rw [stays, here]⟩⟩

def afterInstallation (self : Concurrent) (id : Nat) (session : PatchSession) (environment : InstallEnvironment)
    (outcome : Result Unit × Process) : Concurrent :=
  { self.setThread id (.installing session environment (.finished outcome.1)) with
    process := outcome.2
    lock := none }

theorem advances_finish (here : self.threads id = .installing session environment point)
    (lock : self.lock = if point.locked then some id else none) :
    ∃ count, (List.replicate count (Move.advance id)).foldl (step platform) self =
      self.afterInstallation id session environment
        ((Point.rest platform environment session point).exec self.process) := by
  refine Point.rest_induction (motive := fun point process outcome => ∀ self : Concurrent, self.process = process →
    self.threads id = .installing session environment point → self.lock = (if point.locked then some id else none) →
    ∃ count, (List.replicate count (Move.advance id)).foldl (step platform) self =
      self.afterInstallation id session environment outcome) ?_ ?_ point self.process self rfl here lock
  · rintro result process ⟨_, threads, _, mapped⟩ rfl here rfl
    refine ⟨0, ?_⟩
    have same : Function.update threads id (.installing session environment (.finished result)) = threads := by
      rw [← here]
      exact Function.update_eq_self id threads
    simp [afterInstallation, setThread, same, Point.locked]
  · rintro point process unfinished ih self rfl here lock
    have free : ¬ point.blocked self.lock := by
      cases point <;> simp [Point.blocked, lock, Point.locked]
    have next := @step_advance platform _ _ _ _ _ here unfinished free
    generalize point.advance platform environment session self.process = last at ih next
    have holder : (self.afterAdvance id session environment last.1 last.2).lock =
        if last.1.locked then some id else none := by
      simp only [afterAdvance, lock]
      cases point.locked <;> simp
    obtain ⟨count, rest⟩ := ih _ rfl (Function.update_self _ _ _) holder
    refine ⟨count + 1, ?_⟩
    rw [List.replicate_succ, List.foldl_cons, next, rest]
    simp [afterInstallation, afterAdvance, setThread]

theorem reachable_step (reachable : (machine platform memory).Reachable self) {move : Move}
    (admitted : Admissible platform self move) : (machine platform memory).Reachable (self.step platform move) :=
  .step reachable admitted

theorem reachable_advances (reachable : (machine platform memory).Reachable self) (id count : Nat) :
    (machine platform memory).Reachable ((List.replicate count (Move.advance id)).foldl (step platform) self) := by
  induction count generalizing self with
  | zero => exact reachable
  | succ count ih => exact ih (reachable_step reachable trivial)

theorem reachable_installed (reachable : (machine platform memory).Reachable self)
    (here : self.threads id = .preparing session) (free : self.lock = none) (unraced : environment.Unraced) :
    (machine platform memory).Reachable (self.afterInstallation id session environment
      ((session.installPermanently platform environment).exec self.process)) := by
  have begun := @reachable_step _ _ _ reachable (.install id environment) unraced
  simp only [step, here] at begun
  obtain ⟨count, run⟩ := @advances_finish platform (self.setThread id (.installing session environment .sealing)) id
    session environment .sealing (Function.update_self _ _ _) free
  have finished := reachable_advances begun id count
  rw [run, Point.rest_sealing unraced] at finished
  simpa [afterInstallation, setThread] using finished

/-- An installation that finds the registry free and is left alone is `installPermanently`. -/
theorem install_alone (platform : Platform) (state : Concurrent) (id : Nat) (session : PatchSession)
    (environment : InstallEnvironment) (here : state.threads id = .preparing session) (free : state.lock = none)
    (unraced : environment.Unraced) :
    ∃ count, (Move.install id environment :: List.replicate count (.advance id)).foldl (step platform) state =
      state.afterInstallation id session environment
        ((session.installPermanently platform environment).exec state.process) := by
  obtain ⟨count, rest⟩ := @advances_finish platform (state.setThread id (.installing session environment .sealing)) id
    session environment .sealing (Function.update_self _ _ _) free
  refine ⟨count, ?_⟩
  simp only [List.foldl_cons, step, here, rest, Point.rest_sealing unraced]
  simp [afterInstallation, setThread]

theorem install_alone_overwrites :
    let platform : Platform := ⟨0x1000, 0x10000, by decide, by decide⟩
    let session : PatchSession := ⟨[], [⟨0x1000, [0x90], [0xC3]⟩, ⟨0x1FFE, [0x90, 0x90], [0xEB, 0xFE]⟩]⟩
    let before := (initial (fun _ => 0x90) fun _ => 0x20).setThread 0 (.preparing session)
    ∃ count, let after := (Move.install 0 .calm :: List.replicate count (.advance 0)).foldl (step platform) before
      after.threads 0 = .installing session .calm (.finished (.ok ())) ∧ after.lock = none ∧
        Memory.readAt after.process.memory 0x1000 2 = [0xC3, 0x90] ∧
        Memory.readAt after.process.memory 0x1FFE 2 = [0xEB, 0xFE] ∧ after.process.protection 0x1000 = 0x20 ∧
        after.process.permanentPatchSets = [⟨[], [⟨0x1000, 1⟩, ⟨0x1FFE, 2⟩]⟩] := by
  intro platform session before
  obtain ⟨count, run⟩ := install_alone platform before 0 session .calm rfl rfl fun _ => rfl
  have succeeded : ((session.installPermanently platform .calm).exec before.process).1 =
      (.ok () : Result Unit) := by
    decide +kernel
  refine ⟨count, ?_⟩
  simp only [run]
  refine ⟨?_, rfl, by decide +kernel, by decide +kernel, by decide +kernel, by decide +kernel⟩
  simp [afterInstallation, setThread, succeeded]

theorem Guarded.canAdvance (guarded : self.Guarded) (held : self.lock = some id) : self.CanAdvance id := by
  have locked := (guarded.lock id).mpr held
  cases here : self.threads id with
  | idle => simp [here, Thread.locked] at locked
  | preparing session => simp [here, Thread.locked] at locked
  | installing session environment point =>
    rw [here] at locked
    refine ⟨session, environment, point, here, ?_, ?_⟩
    · rintro result rfl
      simp [Thread.locked, Point.locked] at locked
    · cases point <;> simp_all [Thread.locked, Point.locked, Point.blocked]

theorem step_lock (guarded : self.Guarded) {move : Move} (after : (self.step platform move).Guarded)
    (held : self.lock = some id) :
    (self.step platform move).lock = none ∨ (self.step platform move).lock = some id := by
  obtain ⟨session, environment, point, here, unfinished, free⟩ := guarded.canAdvance held
  by_cases own : move = .advance id
  · subst own
    rw [step_advance here unfinished free]
    simp only [afterAdvance, held]
    split <;> simp
  · have locked := (guarded.lock id).mpr held
    rw [here, ← @step_elsewhere platform _ _ _ _ _ here move own] at locked
    exact Or.inr ((after.lock id).mp locked)

theorem remaining_wellFounded : WellFounded (Prod.Lex (· < · : Nat → Nat → Prop) (· < · : Nat → Nat → Prop)) :=
  WellFounded.prod_lex wellFounded_lt wellFounded_lt

section

variable {run : (machine platform memory).Run}

theorem eventually_unlocked (fair : ∀ id, run.Fair (CanAdvance id) (Advances id)) (time : Nat) :
    run.Eventually time fun state => state.lock = none := by
  have guarded (later : Nat) : (run.state later).Guarded := (reachable_orderly (run.reachable later)).1
  have next (later : Nat) : run.state (later + 1) = (run.state later).step platform (run.operation later) :=
    run.next later
  cases held : (run.state time).lock with
  | none => exact ⟨time, le_rfl, held⟩
  | some id =>
    refine @Machine.Run.eventually_of_rank _ _ _ _ run _ remaining_wellFounded
      (fun state => (state.threads id).remaining) (fun state => state.lock = some id) _ _ _ (fair id) ?_ ?_ time held
    · intro later held
      obtain ⟨session, environment, point, here, unfinished, -⟩ := (guarded later).canAdvance held
      obtain ⟨-, sinking⟩ := @step_remaining platform _ _ _ _ _ here unfinished (run.operation later)
      have kept := @step_lock platform _ _ (guarded later) (run.operation later) (next later ▸ guarded (later + 1)) held
      rw [← next later] at sinking kept
      exact kept.imp_right fun still => ⟨still, sinking⟩
    · exact fun later held => ⟨later, le_rfl, Or.inl ((guarded later).canAdvance held)⟩

theorem eventually_finished (fair : ∀ id, run.Fair (CanAdvance id) (Advances id)) {time : Nat}
    (here : (run.state time).Installing id session environment) :
    run.Eventually time (Finished id session environment) := by
  have next (later : Nat) : run.state (later + 1) = (run.state later).step platform (run.operation later) :=
    run.next later
  refine @Machine.Run.eventually_of_rank _ _ _ _ run _ remaining_wellFounded
    (fun state => (state.threads id).remaining) (Installing id session environment) _ _ _ (fair id) ?_ ?_ time here
  · rintro later ⟨point, unfinished, here⟩
    obtain ⟨still, sinking⟩ := @step_remaining platform _ _ _ _ _ here unfinished (run.operation later)
    rw [← next later] at still sinking
    exact still.imp_right fun still => ⟨still, sinking⟩
  · intro later here
    -- It may wait for the lock; once that is free it can go on, if it has not gone on before.
    obtain ⟨free, after, unlocked⟩ := eventually_unlocked fair later
    by_cases still : (run.state free).Installing id session environment
    · obtain ⟨point, unfinished, there⟩ := still
      refine ⟨free, after, Or.inl ⟨session, environment, point, there, unfinished, ?_⟩⟩
      cases point <;> simp [Point.blocked, unlocked]
    · exact ⟨free, after, Or.inr still⟩

end

/-- If every thread that is again and again able to go on does go on, every installation that has begun is finished
    some time, and the registry is free again and again. -/
theorem installations_finish (platform : Platform) (memory : ProcessMemory) (run : (machine platform memory).Run)
    (fair : ∀ id, run.Fair (CanAdvance id) (Advances id)) :
    (∀ time, run.Eventually time fun state => state.lock = none) ∧
      ∀ time id session environment point, (run.state time).threads id = .installing session environment point →
        run.Eventually time (Finished id session environment) := by
  refine ⟨eventually_unlocked fair, fun time id session environment point here => ?_⟩
  by_cases unfinished : ∀ result, point ≠ .finished result
  · exact eventually_finished fair ⟨point, unfinished, here⟩
  · push Not at unfinished
    obtain ⟨result, rfl⟩ := unfinished
    exact ⟨time, le_rfl, result, here⟩

theorem rested_stuck (rested : (self.threads id).remaining = (0, 0)) : ¬ self.CanAdvance id := by
  rintro ⟨session, environment, point, here, unfinished, -⟩
  cases point with
  | finished result => exact unfinished result rfl
  | _ => simp [here, Thread.remaining, Point.remaining] at rested

theorem step_rested (rested : (self.threads id).remaining = (0, 0)) (other : Nat) :
    ((self.step platform (.advance other)).threads id).remaining = (0, 0) := by
  by_cases own : other = id
  · subst own
    cases here : self.threads other with
    | idle | preparing session => simpa only [step, here] using rested
    | installing session environment point =>
      cases point with
      | finished result => simp [step, here, setThread, Thread.remaining]
      | _ => simp [here, Thread.remaining, Point.remaining] at rested
  · rwa [step_others (by exact own)]

-- Two threads prepare patches of the same byte, install them, and take turns for ever after.
def turns (oracle : MappingOracle) : Nat → Move
  | 0 => .create 0
  | 1 => .prepare 0 oracle (.overwrite 0x1000 [0xC3])
  | 2 => .create 1
  | 3 => .prepare 1 oracle (.overwrite 0x1000 [0xCC])
  | 4 => .install 0 .calm
  | 5 => .install 1 .calm
  | time + 6 => .advance (time % 2)

theorem turns_thread (oracle : MappingOracle) (time : Nat) : (turns oracle time).thread < 2 := by
  rcases time with - | - | - | - | - | - | time
  all_goals simp only [turns, Move.thread]
  all_goals omega

theorem installations_finish_turns :
    let platform : Platform := ⟨0x1000, 0x10000, by decide, by decide⟩
    ∃ run : (machine platform fun _ => 0x90).Run,
      run.Eventually 6 (Finished 0 ⟨[], [⟨0x1000, [0x90], [0xC3]⟩]⟩ .calm) ∧
        run.Eventually 6 (Finished 1 ⟨[], [⟨0x1000, [0x90], [0xCC]⟩]⟩ .calm) := by
  intro platform
  let oracle : MappingOracle := ⟨fun _ => .ok (), fun _ => .error "no memory"⟩
  let states : Nat → Concurrent :=
    Nat.rec (initial (fun _ => 0x90) fun _ => 0x20) fun time state => state.step platform (turns oracle time)
  have full (candidate base : Nat) : oracle.mapMut candidate ≠ .ok base := by simp [oracle]
  let run : (machine platform fun _ => 0x90).Run := {
    state := states
    operation := turns oracle
    initial := ⟨fun _ => 0x20, rfl⟩
    admitted := fun time => by
      rcases time with - | - | - | - | - | - | time
      · trivial
      · exact @admissible_unmapped _ _ _ 0 _ rfl full
      · trivial
      · exact @admissible_unmapped _ _ _ 1 _ rfl full
      · exact fun _ => rfl
      · exact fun _ => rfl
      · trivial
    next := fun _ => rfl }
  have idle (id time : Nat) : (states time).threads (id + 1 + 1) = .idle := by
    induction time with
    | zero => rfl
    | succ time ih => exact (step_others (by have := turns_thread oracle time; omega)).trans ih
  -- Nobody is able to go on again and again: by then both threads are back.
  have back (id : Nat) : ((states 40).threads id).remaining = (0, 0) := by
    rcases id with - | - | id
    · decide +kernel
    · decide +kernel
    · simp only [idle id 40, Thread.remaining]
  have still (id time : Nat) : ((states (time + 40)).threads id).remaining = (0, 0) := by
    induction time with
    | zero => simpa only [Nat.zero_add] using back id
    | succ time ih => exact step_rested ih _
  have fair (id : Nat) : run.Fair (CanAdvance id) (Advances id) := by
    intro again
    obtain ⟨later, after, able⟩ := again 40
    obtain ⟨time, rfl⟩ := Nat.exists_eq_add_of_le' after
    exact absurd able (rested_stuck (still id time))
  obtain ⟨-, finishes⟩ := installations_finish platform _ run fair
  exact ⟨run, finishes 6 0 _ .calm .sealing rfl, finishes 6 1 _ .calm .sealing rfl⟩

end Concurrent

end Patchy
