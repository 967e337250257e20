import Patchy.Concurrent.Orderly
import Patchy.System.Outcome

set_option autoImplicit false

namespace Patchy

def Point.cleared : Point → Bool
  | .validating _ | .collecting _ | .protecting _ _ _ | .revalidating _ _ | .recording _ _ => true
  | _ => false

theorem Point.cleared_locked {point : Point} (cleared : point.cleared) : point.locked := by
  cases point <;> first | rfl | simp [Point.cleared] at cleared

theorem Point.uncopied_locked {point : Point} {patch : PendingPatch} (member : patch ∈ point.uncopied) :
    point.locked := by
  cases point <;> first | rfl | simp [Point.uncopied] at member

theorem Point.cleared_unrecorded {point : Point} (cleared : point.cleared) : point.unrecorded := by
  cases point <;> first | rfl | simp [Point.cleared] at cleared

theorem Point.advance_cleared {platform : Platform} {environment : InstallEnvironment} {session : PatchSession}
    {point : Point} {process : Process} (cleared : (point.advance platform environment session process).1.cleared) :
    point.cleared ∨ PatchSession.ensurePatchesDoNotOverlapInstalled process.permanentPatchSets session.pending =
      .ok () := by
  cases point with
  | checking pages =>
    simp only [advance] at cleared
    split at cleared
    · simp [Point.cleared] at cleared
    next clear => exact Or.inr clear
  | validating pages => exact Or.inl rfl
  | collecting pages => exact Or.inl rfl
  | protecting pages left protections => exact Or.inl rfl
  | revalidating pages protections => exact Or.inl rfl
  | recording pages protections => exact Or.inl rfl
  | sealing =>
    rcases @Point.advance_sealing_cases platform environment session process with ⟨pages, next⟩ | ⟨failure, next⟩ <;>
      simp [next, Point.cleared] at cleared
  | waiting pages => simp [advance, Point.cleared] at cleared
  | copying left protections => cases left <;> simp [advance, Point.cleared] at cleared
  | flushing protections => simp [advance, Point.cleared] at cleared
  | restoring left firstError exit =>
    cases left with
    | nil => simp [advance, Point.cleared] at cleared
    | cons protection left =>
      simp only [advance] at cleared
      split at cleared <;> simp [Point.cleared] at cleared
  | finished result => simp [advance, Point.cleared] at cleared

namespace Concurrent

/-- Where nothing is recorded memory is what it was at first, and so are all snapshots taken there. -/
structure Original (platform : Platform) (memory : ProcessMemory) (state : Concurrent) : Prop where
  records : ∀ record ∈ state.process.recorded, record.WellFormed
  contents : ∀ location, state.Outside platform location →
    (∀ record ∈ state.process.recorded, ¬ record.Covers location) → state.process.memory location = memory location
  snapshots : ∀ session, state.Live session → ∀ patch ∈ session.pending, ∀ location, patch.installed.Covers location →
    (∀ record ∈ state.process.recorded, ¬ record.Covers location) →
      patch.expected[location - patch.address]? = some (memory location)
  cleared : ∀ id session environment point, state.threads id = .installing session environment point →
    point.cleared → ∀ patch ∈ session.pending, ∀ record ∈ state.process.recorded, record.Apart patch.installed

variable {platform : Platform} {memory : ProcessMemory} {self : Concurrent} {id : Nat} {thread : Thread}

theorem Original.turn (original : self.Original platform memory) (turn : Turn (self.threads id) thread) :
    (self.setThread id thread).Original platform memory where
  records := original.records
  contents := original.contents
  snapshots session live patch pending := by
    rcases live_update rfl live with old | new
    · exact original.snapshots session old patch pending
    · generalize same : self.threads id = before at turn
      cases turn with
      | created =>
        obtain rfl := Option.some.inj new
        exact absurd pending List.not_mem_nil
      | dropped => simp [Thread.session] at new
      | started unraced => exact original.snapshots session ⟨id, by rw [same]; exact new⟩ patch pending
      | returned => simp [Thread.session] at new
  cleared other session environment point here cleared := by
    rcases threads_update here with ⟨-, new⟩ | ⟨-, old⟩
    · subst new
      generalize self.threads id = before at turn
      cases turn with
      | started unraced => simp [Point.cleared] at cleared
    · exact original.cleared other session environment point old cleared

theorem Original.prepare (original : self.Original platform memory) (separate : self.Separate platform)
    {session : PatchSession} {oracle : MappingOracle} {preparation : Preparation} {workspace : Workspace}
    (here : self.threads id = .preparing session) (admitted : Admissible platform self (.prepare id oracle preparation))
    (frame : PatchSession.PreparedFrame platform oracle preparation ⟨session, self.process.memory⟩ workspace) :
    (self.afterPreparation id session workspace).Original platform memory := by
  have separated := separate.prepare here admitted frame
  obtain ⟨added, grown, aimed, snapshot⟩ := frame.pending
  have live : (self.afterPreparation id session workspace).Live workspace.session :=
    ⟨id, by simp [afterPreparation, setThread, Thread.session]⟩
  constructor
  case records => exact original.records
  case contents =>
    intro location outside free
    refine (frame.memory location fun base member => outside base (separated.mapped _ live base member)).trans ?_
    exact original.contents location (fun base member => outside base (List.mem_append_left _ member)) free
  case snapshots =>
    intro found alive patch pending location covers free
    rcases live_update rfl alive with old | new
    · exact original.snapshots found old patch pending location covers free
    · obtain rfl := Option.some.inj new
      rw [grown] at pending
      rcases List.mem_append.mp pending with earlier | last
      · exact original.snapshots session ⟨id, by simp [here, Thread.session]⟩ patch earlier location covers free
      · obtain rfl := List.mem_singleton.mp last
        rw [aimed] at covers
        have place : patch.address = preparation.source.address := congrArg InstalledPatch.address aimed
        have within : location - preparation.source.address < preparation.source.size := by
          have inside : Memory.Inside _ _ location := covers
          simp only [Memory.Inside] at inside
          omega
        have back : preparation.source.address + (location - preparation.source.address) = location :=
          Nat.add_sub_cancel' covers.1
        rw [snapshot, place, Memory.readAt_getElem? _ within, back]
        exact congrArg some (original.contents location
          (fun base member inside => admitted.1 base member location inside covers) free)
  case cleared =>
    intro other found environment point here' cleared
    rcases threads_update here' with ⟨-, new⟩ | ⟨-, old⟩
    · contradiction
    · exact original.cleared other found environment point old cleared

theorem Guarded.alone (guarded : self.Guarded) {other : Nat} (here : (self.threads id).locked)
    (there : (self.threads other).locked) : id = other :=
  Option.some.inj (((guarded.lock id).mp here).symm.trans ((guarded.lock other).mp there))

theorem Original.advance (original : self.Original platform memory) (guarded : self.Guarded)
    (separate : self.Separate platform) {session : PatchSession} {environment : InstallEnvironment} {point : Point}
    (here : self.threads id = .installing session environment point) :
    (self.afterAdvance id session environment (point.advance platform environment session self.process).1
      (point.advance platform environment session self.process).2).Original platform memory := by
  have separated := @Separate.afterAdvance platform self id separate session environment point here
  have step := @Point.advance_advanced platform environment session point self.process
  have clearing := @Point.advance_cleared platform environment session point self.process
  generalize point.advance platform environment session self.process = last at *
  obtain ⟨next, process⟩ := last
  have live (unrecorded : point.unrecorded) : self.Live session := ⟨id, by simp [here, Thread.session, unrecorded]⟩
  have covered {location : Nat} (free : ∀ record ∈ process.recorded, ¬ record.Covers location) :
      ∀ record ∈ self.process.recorded, ¬ record.Covers location := fun record member => free record (step.grown member)
  constructor
  case records =>
    intro record member
    rcases step.recordedOwn member with old | ⟨unrecorded, patch, pending, rfl⟩
    · exact original.records record old
    · exact ((separate.formed session (live unrecorded)).patches patch pending).range
  case contents =>
    intro location outside free
    refine (step.memory fun patch member => ?_).trans (original.contents location outside (covered free))
    exact covered free _ (guarded.uncopied id _ _ _ here patch member)
  case snapshots =>
    intro found alive patch pending location covers free
    have earlier : self.Live found := by
      rcases live_update rfl alive with old | new
      · exact old
      · simp only [Thread.session] at new
        split at new
        next unrecorded => exact Option.some.inj new ▸ live (step.unrecorded unrecorded)
        next => contradiction
    exact original.snapshots found earlier patch pending location covers (covered free)
  case cleared =>
    intro other found environment' point' here' cleared patch pending record member
    rcases threads_update here' with ⟨rfl, new⟩ | ⟨different, old⟩
    · cases new
      have known : record ∈ self.process.recorded := by
        replace member : record ∈ process.recorded := member
        cases step with
        | recorded at' => simp [Point.cleared] at cleared
        | copied at' => simp [Point.cleared] at cleared
        | kept untouched => exact untouched.recorded ▸ member
      -- The overlap check has been passed before, or is passed with this step.
      rcases clearing cleared with earlier | clear
      · exact original.cleared other session environment point here earlier patch pending record known
      · have formed := separated.formed session ⟨other, by
          have now : Thread.session (.installing session environment next) = some session := by
            simp only [Thread.session, Point.cleared_unrecorded cleared, if_true]
          exact here' ▸ now⟩
        rcases PatchSession.ensurePatchesDoNotOverlapInstalled_cases original.records formed.patches with
          ⟨-, apart⟩ | ⟨_, _, _, _, _, refused⟩
        · exact apart patch pending record known
        · rw [clear] at refused
          contradiction
    · refine original.cleared other found environment' point' old cleared patch pending record ?_
      replace member : record ∈ process.recorded := member
      -- Only the thread behind the lock records anything, and there is no second one.
      cases step with
      | recorded at' =>
        refine absurd (@Guarded.alone _ id guarded other ?_ ?_).symm different
        · simp [here, at', Thread.locked, Point.locked]
        · simpa [old, Thread.locked] using Point.cleared_locked cleared
      | copied at' => exact member
      | kept untouched => exact untouched.recorded ▸ member

theorem reachable_original (reachable : (machine platform memory).Reachable self) :
    self.Guarded ∧ self.Separate platform ∧ self.Original platform memory := by
  refine reachable.invariant (fun self => self.Guarded ∧ self.Separate platform ∧ self.Original platform memory) ?_ ?_
  · rintro self ⟨protection, rfl⟩
    refine ⟨initial_guarded protection, initial_separate protection, ?_⟩
    constructor
    case records => exact fun record member => absurd member List.not_mem_nil
    case contents => exact fun _ _ _ => rfl
    case snapshots => exact fun session live => by simp [Live, initial, Thread.session] at live
    case cleared => exact fun id session environment point here => by simp [initial] at here
  · rintro self move ⟨guarded, separate, original⟩ admitted
    obtain ⟨guarded', separate'⟩ := step_orderly guarded separate admitted
    refine ⟨guarded', separate', ?_⟩
    change (self.step platform move).Original platform memory
    have moved := step_moved admitted
    generalize self.step platform move = after at moved ⊢
    cases moved with
    | stayed => exact original
    | turned turn => exact original.turn turn
    | prepared here admitted frame => exact original.prepare separate here admitted frame
    | advanced here => exact original.advance guarded separate here

theorem Original.validated (original : self.Original platform memory) (separate : self.Separate platform)
    {session : PatchSession} {environment : InstallEnvironment} {point : Point}
    (here : self.threads id = .installing session environment point) (cleared : point.cleared) :
    (∀ patch ∈ session.pending, patch.expected = Memory.readAt memory patch.address patch.replacement.length) ∧
      PatchSession.validatePatchSources self.process.memory session.pending = .ok () := by
  have live : self.Live session := ⟨id, by simp [here, Thread.session, Point.cleared_unrecorded cleared]⟩
  have formed := separate.formed session live
  have apart := original.cleared id session environment point here cleared
  have free {patch : PendingPatch} (pending : patch ∈ session.pending) {location : Nat}
      (covers : patch.installed.Covers location) : ∀ record ∈ self.process.recorded, ¬ record.Covers location :=
    fun record member known => (apart patch pending record member).not_covers known covers
  have taken {patch : PendingPatch} (pending : patch ∈ session.pending) :
      patch.expected = Memory.readAt memory patch.address patch.replacement.length := by
    have sized := (formed.patches patch pending).sized
    refine ((@Memory.readAt_eq_iff _ _ _ patch.expected).mpr fun index within => ?_).symm.trans (by rw [sized])
    have room : index < patch.replacement.length := by rwa [← sized]
    have covers : patch.installed.Covers (patch.address + index) :=
      ⟨Nat.le_add_right _ _, Nat.add_lt_add_left room _⟩
    have snapshot := original.snapshots session live patch pending _ covers (free pending covers)
    rw [Nat.add_sub_cancel_left, List.getElem?_eq_getElem within] at snapshot
    exact (Option.some.inj snapshot).symm
  refine ⟨fun patch => taken, PatchSession.validatePatchSources_ok_iff.mpr fun patch pending => ?_⟩
  rw [(formed.patches patch pending).sized]
  refine (Memory.readAt_congr fun location inside => ?_).trans (taken pending).symm
  exact original.contents location (fun base member within => separate.apart base member patch.installed
    (Or.inr ⟨session, live, patch, pending, rfl⟩) location within inside) (free pending inside)

end Concurrent

end Patchy
