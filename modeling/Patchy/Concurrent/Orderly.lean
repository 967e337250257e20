import Patchy.Concurrent.Steps

set_option autoImplicit false

namespace Patchy.Concurrent

variable {platform : Platform} {memory : ProcessMemory} {self after : Concurrent} {id : Nat} {thread : Thread}

inductive Turn : Thread → Thread → Prop
  | created : Turn .idle (.preparing PatchSession.new)
  | dropped {session : PatchSession} : Turn (.preparing session) .idle
  | started {session : PatchSession} {environment : InstallEnvironment} (unraced : environment.Unraced) :
      Turn (.preparing session) (.installing session environment .sealing)
  | returned {session : PatchSession} {environment : InstallEnvironment} {result : Result Unit} :
      Turn (.installing session environment (.finished result)) .idle

inductive Moved (platform : Platform) (self : Concurrent) : Concurrent → Prop
  | stayed : Moved platform self self
  | turned {id : Nat} {thread : Thread} (turn : Turn (self.threads id) thread) :
      Moved platform self (self.setThread id thread)
  | prepared {id : Nat} {session : PatchSession} {oracle : MappingOracle} {preparation : Preparation}
      {workspace : Workspace} (here : self.threads id = .preparing session)
      (admitted : Admissible platform self (.prepare id oracle preparation))
      (frame : PatchSession.PreparedFrame platform oracle preparation ⟨session, self.process.memory⟩ workspace) :
      Moved platform self (self.afterPreparation id session workspace)
  | advanced {id : Nat} {session : PatchSession} {environment : InstallEnvironment} {point : Point}
      (here : self.threads id = .installing session environment point) (free : ¬ point.blocked self.lock)
      (unfinished : ∀ result, point ≠ .finished result) :
      Moved platform self (self.afterAdvance id session environment
        (point.advance platform environment session self.process).1
        (point.advance platform environment session self.process).2)

theorem afterPreparation_failed {session : PatchSession} (here : self.threads id = .preparing session) :
    self.afterPreparation id session ⟨session, self.process.memory⟩ = self := by
  have same : Function.update self.threads id (.preparing session) = self.threads := by
    rw [← here]
    exact Function.update_eq_self id self.threads
  simp only [afterPreparation, setThread, same, List.drop_length, List.append_nil]

theorem step_advance {session : PatchSession} {environment : InstallEnvironment} {point : Point}
    (here : self.threads id = .installing session environment point)
    (unfinished : ∀ result, point ≠ .finished result) (free : ¬ point.blocked self.lock) :
    self.step platform (.advance id) =
      self.afterAdvance id session environment (point.advance platform environment session self.process).1
        (point.advance platform environment session self.process).2 := by
  cases point with
  | finished result => exact absurd rfl (unfinished result)
  | _ => simp only [step, here, if_neg free]

theorem step_blocked {session : PatchSession} {environment : InstallEnvironment} {point : Point}
    (here : self.threads id = .installing session environment point) (blocked : point.blocked self.lock) :
    self.step platform (.advance id) = self := by
  cases point with
  | waiting pages => simp only [step, here, if_pos blocked]
  | _ => simp [Point.blocked] at blocked

theorem step_moved {move : Move} (admitted : Admissible platform self move) :
    Moved platform self (self.step platform move) := by
  cases move with
  | create id =>
    cases here : self.threads id with
    | idle =>
      simp only [step, here]
      exact .turned (here ▸ .created)
    | _ => simpa only [step, here] using .stayed
  | prepare id oracle preparation =>
    cases here : self.threads id with
    | preparing session =>
      simp only [step, here]
      rcases PatchSession.preparation_cases platform oracle preparation ⟨session, self.process.memory⟩ with
        ⟨failure, ran⟩ | ⟨patch, workspace, ran, prepared⟩
      · rw [ran, afterPreparation_failed here]
        exact .stayed
      · rw [ran]
        exact .prepared here admitted prepared.frame
    | _ => simpa only [step, here] using .stayed
  | drop id =>
    cases here : self.threads id with
    | preparing session =>
      simp only [step, here]
      exact .turned (here ▸ .dropped)
    | _ => simpa only [step, here] using .stayed
  | install id environment =>
    cases here : self.threads id with
    | preparing session =>
      simp only [step, here]
      exact .turned (here ▸ .started admitted)
    | _ => simpa only [step, here] using .stayed
  | advance id =>
    cases here : self.threads id with
    | installing session environment point =>
      by_cases blocked : point.blocked self.lock
      · rw [step_blocked here blocked]
        exact .stayed
      · cases point with
        | finished result =>
          simp only [step, here]
          exact .turned (here ▸ .returned)
        | _ =>
          rw [step_advance here (by simp) blocked]
          exact .advanced here blocked (by simp)
    | _ => simpa only [step, here] using .stayed

theorem Turn.unlocked {before : Thread} (turn : Turn before thread) :
    before.locked = false ∧ thread.locked = false := by
  cases turn <;> exact ⟨rfl, rfl⟩

/-- One thread at most is behind the lock, and every installation has come to where it stands by its own steps. -/
structure Guarded (state : Concurrent) : Prop where
  lock : ∀ id, (state.threads id).locked ↔ state.lock = some id
  unraced : ∀ id session environment point, state.threads id = .installing session environment point →
    environment.Unraced
  sealed : ∀ id session environment point, state.threads id = .installing session environment point →
    point.Sealed environment session
  uncopied : ∀ id session environment point, state.threads id = .installing session environment point →
    ∀ patch ∈ point.uncopied, patch.installed ∈ state.process.recorded

/-- Patched ranges share no byte with the trampoline pages there have been. -/
structure Separate (platform : Platform) (state : Concurrent) : Prop where
  formed : ∀ session, state.Live session → session.WellFormed
  mapped : ∀ session, state.Live session → ∀ base ∈ session.bases, base ∈ state.mapped
  apart : ∀ base ∈ state.mapped, ∀ range, state.IsSource range → platform.PageApart base range

theorem threads_update {threads : Nat → Thread} {other : Nat} {found : Thread}
    (here : Function.update threads id thread other = found) :
    (other = id ∧ thread = found) ∨ (other ≠ id ∧ threads other = found) := by
  by_cases same : other = id
  · subst same
    exact Or.inl ⟨rfl, by simpa using here⟩
  · exact Or.inr ⟨same, by simpa [same] using here⟩

theorem Guarded.update (guarded : self.Guarded) (threads : after.threads = Function.update self.threads id thread)
    (grown : ∀ record ∈ self.process.recorded, record ∈ after.process.recorded)
    (others : ∀ other, other ≠ id → (after.lock = some other ↔ self.lock = some other))
    (own : thread.locked ↔ after.lock = some id)
    (installing : ∀ session environment point, thread = .installing session environment point →
      environment.Unraced ∧ point.Sealed environment session ∧
        ∀ patch ∈ point.uncopied, patch.installed ∈ after.process.recorded) : after.Guarded := by
  constructor
  case lock =>
    intro other
    rw [threads]
    by_cases same : other = id
    · subst same
      simpa using own
    · simpa [same, others other same] using guarded.lock other
  case unraced =>
    intro other session environment point here
    rw [threads] at here
    rcases threads_update here with ⟨-, new⟩ | ⟨-, old⟩
    · exact (installing _ _ _ new).1
    · exact guarded.unraced _ _ _ _ old
  case sealed =>
    intro other session environment point here
    rw [threads] at here
    rcases threads_update here with ⟨-, new⟩ | ⟨-, old⟩
    · exact (installing _ _ _ new).2.1
    · exact guarded.sealed _ _ _ _ old
  case uncopied =>
    intro other session environment point here patch member
    rw [threads] at here
    rcases threads_update here with ⟨-, new⟩ | ⟨-, old⟩
    · exact (installing _ _ _ new).2.2 patch member
    · exact grown _ (guarded.uncopied _ _ _ _ old patch member)

theorem live_update (threads : after.threads = Function.update self.threads id thread) {session : PatchSession}
    (live : after.Live session) : self.Live session ∨ thread.session = some session := by
  obtain ⟨other, has⟩ := live
  rw [threads] at has
  by_cases same : other = id
  · subst same
    exact Or.inr (by simpa using has)
  · exact Or.inl ⟨other, by simpa [same] using has⟩

theorem Separate.shrink (separate : self.Separate platform)
    (live : ∀ session, after.Live session → self.Live session ∨ session = PatchSession.new)
    (recorded : ∀ record ∈ after.process.recorded, self.IsSource record)
    (mapped : after.mapped = self.mapped) : after.Separate platform := by
  have source {range : InstalledPatch} (known : after.IsSource range) : self.IsSource range := by
    rcases known with registered | ⟨session, alive, patch, pending, same⟩
    · exact recorded range registered
    · rcases live session alive with old | rfl
      · exact Or.inr ⟨session, old, patch, pending, same⟩
      · exact absurd pending List.not_mem_nil
  constructor
  case formed =>
    intro session alive
    rcases live session alive with old | rfl
    · exact separate.formed session old
    · exact PatchSession.WellFormed.new
  case mapped =>
    intro session alive base member
    rcases live session alive with old | rfl
    · rw [mapped]
      exact separate.mapped session old base member
    · exact absurd member List.not_mem_nil
  case apart =>
    intro base member range known
    rw [mapped] at member
    exact separate.apart base member range (source known)

theorem initial_guarded (protection : Nat → Nat) : (initial memory protection).Guarded where
  lock id := by simp [initial, Thread.locked]
  unraced id session environment point here := by simp [initial] at here
  sealed id session environment point here := by simp [initial] at here
  uncopied id session environment point here := by simp [initial] at here

theorem initial_separate (protection : Nat → Nat) : (initial memory protection).Separate platform where
  formed session live := by simp [Live, initial, Thread.session] at live
  mapped session live := by simp [Live, initial, Thread.session] at live
  apart base member := absurd member List.not_mem_nil

theorem Guarded.turn (guarded : self.Guarded) (turn : Turn (self.threads id) thread) :
    (self.setThread id thread).Guarded := by
  obtain ⟨free, stays⟩ := turn.unlocked
  refine guarded.update rfl (fun _ member => member) (fun _ _ => Iff.rfl) ?_ fun session environment point same => ?_
  · change thread.locked ↔ self.lock = some id
    rw [← guarded.lock id, free, stays]
  · subst same
    generalize self.threads id = before at turn
    cases turn with
    | started unraced => exact ⟨unraced, trivial, by simp [Point.uncopied]⟩

theorem Separate.turn (separate : self.Separate platform) (turn : Turn (self.threads id) thread) :
    (self.setThread id thread).Separate platform := by
  refine separate.shrink (fun session live => ?_) (fun _ => Or.inl) rfl
  rcases live_update rfl live with old | new
  · exact Or.inl old
  · generalize same : self.threads id = before at turn
    cases turn with
    | created => exact Or.inr (Option.some.inj new).symm
    | dropped => simp [Thread.session] at new
    | started unraced => exact Or.inl ⟨id, by rw [same]; exact new⟩
    | returned => simp [Thread.session] at new

theorem Guarded.afterAdvance (guarded : self.Guarded) {session : PatchSession} {environment : InstallEnvironment}
    {point : Point} (here : self.threads id = .installing session environment point)
    (free : ¬ point.blocked self.lock) :
    (self.afterAdvance id session environment (point.advance platform environment session self.process).1
      (point.advance platform environment session self.process).2).Guarded := by
  have known := guarded.sealed id session environment point here
  have sealed := @Point.advance_sealed platform environment session point known self.process
  have step := @Point.advance_advanced platform environment session point self.process
  have held : point.locked ↔ self.lock = some id := by
    simpa [here, Thread.locked] using guarded.lock id
  generalize point.advance platform environment session self.process = last at *
  obtain ⟨next, process⟩ := last
  have takes : next.locked → point.locked ∨ self.lock = none := by
    intro locked
    cases step with
    | recorded at' => exact Or.inl (by rw [at']; rfl)
    | copied at' => exact Or.inl (by rw [at']; rfl)
    | kept _ _ _ still =>
      refine (still locked).imp_right ?_
      rintro ⟨pages, rfl⟩
      simpa [Point.blocked] using free
  refine guarded.update rfl (fun _ => step.grown) ?_ ?_ fun session' environment' point' same => ?_
  · intro other different
    simp only [Concurrent.afterAdvance]
    split
    next locked =>
      rcases takes locked with was | none
      · simp [held.mp was]
      · simp [none, different.symm]
    next =>
      split
      next own => simp [own, different.symm]
      next => rfl
  · simp only [Concurrent.afterAdvance, Thread.locked]
    split
    next locked => simp [locked]
    next unlocked =>
      split
      next own => simp [unlocked]
      next other => simp [unlocked, other]
  · cases same
    exact ⟨guarded.unraced id _ _ _ here, sealed, step.uncopied (guarded.uncopied id _ _ _ here)⟩

theorem Separate.afterAdvance (separate : self.Separate platform) {session : PatchSession}
    {environment : InstallEnvironment} {point : Point}
    (here : self.threads id = .installing session environment point) :
    (self.afterAdvance id session environment (point.advance platform environment session self.process).1
      (point.advance platform environment session self.process).2).Separate platform := by
  have step := @Point.advance_advanced platform environment session point self.process
  generalize point.advance platform environment session self.process = last at *
  obtain ⟨next, process⟩ := last
  have live : point.unrecorded → self.Live session := fun unrecorded =>
    ⟨id, by simp [here, Thread.session, unrecorded]⟩
  refine separate.shrink (fun found alive => ?_) (fun record member => ?_) rfl
  · rcases live_update rfl alive with old | new
    · exact Or.inl old
    · refine Or.inl ?_
      simp only [Thread.session] at new
      split at new
      next unrecorded =>
        obtain rfl := Option.some.inj new
        exact live (step.unrecorded unrecorded)
      next => contradiction
  · exact (step.recordedOwn member).imp_right fun own => ⟨session, live own.1, own.2⟩

section

variable {oracle : MappingOracle} {preparation : Preparation} {session : PatchSession}

theorem Guarded.prepare (guarded : self.Guarded) (here : self.threads id = .preparing session)
    (workspace : Workspace) : (self.afterPreparation id session workspace).Guarded := by
  refine @Guarded.update _ _ id (.preparing _) guarded rfl (fun _ member => member) (fun _ _ => Iff.rfl) ?_ (by simp)
  change Thread.locked (.preparing _) ↔ self.lock = some id
  simp [← guarded.lock id, here, Thread.locked]

theorem Separate.prepare (separate : self.Separate platform) (here : self.threads id = .preparing session)
    (admitted : Admissible platform self (.prepare id oracle preparation)) {workspace : Workspace}
    (frame : PatchSession.PreparedFrame platform oracle preparation ⟨session, self.process.memory⟩ workspace) :
    (self.afterPreparation id session workspace).Separate platform := by
  obtain ⟨outside, fresh⟩ := admitted
  obtain ⟨extra, bases, placed⟩ := frame.bases
  obtain ⟨added, grown, aimed, -⟩ := frame.pending
  have had : self.Live session := ⟨id, by simp [here, Thread.session]⟩
  have live {found : PatchSession} (alive : (self.afterPreparation id session workspace).Live found) :
      self.Live found ∨ found = workspace.session := by
    rcases live_update rfl alive with old | new
    · exact Or.inl old
    · exact Or.inr (Option.some.inj new).symm
  have source {range : InstalledPatch} (known : (self.afterPreparation id session workspace).IsSource range) :
      self.IsSource range ∨ range = preparation.source := by
    rcases known with recorded | ⟨found, alive, patch, pending, same⟩
    · exact Or.inl (Or.inl recorded)
    · rcases live alive with old | rfl
      · exact Or.inl (Or.inr ⟨found, old, patch, pending, same⟩)
      · rw [grown] at pending
        rcases List.mem_append.mp pending with earlier | new
        · exact Or.inl (Or.inr ⟨session, had, patch, earlier, same⟩)
        · rw [List.mem_singleton.mp new, aimed] at same
          exact Or.inr same.symm
  have mapped {base : Nat} : base ∈ (self.afterPreparation id session workspace).mapped ↔
      base ∈ self.mapped ∨ base ∈ extra := by
    simp only [afterPreparation, bases, List.drop_left, List.mem_append]
  constructor
  case formed =>
    intro found alive
    rcases live alive with old | rfl
    · exact separate.formed found old
    · exact frame.formed (separate.formed session had)
  case mapped =>
    intro found alive base member
    rcases live alive with old | rfl
    · exact mapped.mpr (Or.inl (separate.mapped found old base member))
    · rw [bases, List.mem_append] at member
      exact mapped.mpr (member.imp_left (separate.mapped session had base))
  -- Old or new, a page and a source: the admission of the move speaks of all that are new.
  case apart =>
    intro base member range known
    rcases mapped.mp member with earlier | new
    · rcases source known with before | rfl
      · exact separate.apart base earlier range before
      · exact outside base earlier
    · rcases source known with before | rfl
      · exact (fresh base base (placed base new)).2 range before
      · exact (fresh base base (placed base new)).1

end

theorem step_orderly (guarded : self.Guarded) (separate : self.Separate platform) {move : Move}
    (admitted : Admissible platform self move) :
    (self.step platform move).Guarded ∧ (self.step platform move).Separate platform := by
  have moved := step_moved admitted
  generalize self.step platform move = after at moved ⊢
  cases moved with
  | stayed => exact ⟨guarded, separate⟩
  | turned turn => exact ⟨guarded.turn turn, separate.turn turn⟩
  | prepared here admitted frame => exact ⟨guarded.prepare here _, separate.prepare here admitted frame⟩
  | advanced here free => exact ⟨guarded.afterAdvance here free, separate.afterAdvance here⟩

theorem reachable_orderly (reachable : (machine platform memory).Reachable self) :
    self.Guarded ∧ self.Separate platform := by
  refine reachable.invariant (fun self => self.Guarded ∧ self.Separate platform) ?_ ?_
  · rintro self ⟨protection, rfl⟩
    exact ⟨initial_guarded protection, initial_separate protection⟩
  · rintro self move ⟨guarded, separate⟩ admitted
    exact step_orderly guarded separate admitted

end Patchy.Concurrent
