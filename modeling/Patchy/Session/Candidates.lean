import Patchy.Core.RelativeJump

set_option autoImplicit false

namespace Patchy

def Nearer (hook first second : Nat) : Prop :=
  CandidateAddresses.absDiff first hook < CandidateAddresses.absDiff second hook ∨
    CandidateAddresses.absDiff first hook = CandidateAddresses.absDiff second hook ∧ first < second

/-- Every wanted address once and no other, the nearest first and the lower of two as near. -/
structure NearestFirst (hook : Nat) (wanted : Nat → Prop) (candidates : List Nat) : Prop where
  members : ∀ candidate, candidate ∈ candidates ↔ wanted candidate
  ordered : candidates.Pairwise (Nearer hook)
  once : candidates.Nodup

/-- A base at which a page can be mapped and jumped to. -/
structure PageBase (nextInstruction pageSize granularity base : Nat) : Prop where
  aligned : base % granularity = 0
  reachable : ∃ displacement, relativeOffset nextInstruction base = .ok displacement
  fits : base + (pageSize - 1) ≤ usizeMax

theorem Nearer.ne {hook first second : Nat} (nearer : Nearer hook first second) : first ≠ second := by
  rintro rfl
  simp [Nearer] at nearer

theorem NearestFirst.first {hook candidate : Nat} {wanted serves : Nat → Prop} {candidates passed rest : List Nat}
    (search : NearestFirst hook wanted candidates) (split : candidates = passed ++ candidate :: rest)
    (skipped : ∀ other ∈ passed, ¬ serves other) {other : Nat} (member : wanted other) (served : serves other) :
    other = candidate ∨ Nearer hook candidate other := by
  have place := (search.members other).mpr member
  have ordered := search.ordered
  rw [split] at place ordered
  rcases List.mem_append.mp place with earlier | later
  · exact absurd served (skipped other earlier)
  · rcases List.mem_cons.mp later with same | behind
    · exact Or.inl same
    · exact Or.inr (List.rel_of_pairwise_cons (List.pairwise_append.mp ordered).2.1 behind)

namespace CandidateAddresses

def Ahead (self : CandidateAddresses) (candidate : Nat) : Prop :=
  candidate % self.granularity = 0 ∧
    ((∃ lower, self.lower = some lower ∧ self.minimum ≤ candidate ∧ candidate ≤ lower) ∨
      ∃ upper, self.upper = some upper ∧ upper ≤ candidate ∧ candidate ≤ self.maximum)

structure Formed (search : CandidateAddresses) : Prop where
  bounded : search.maximum ≤ usizeMax
  descending : ∀ lower, search.lower = some lower →
    lower % search.granularity = 0 ∧ search.minimum ≤ lower ∧ lower ≤ search.hook
  ascending : ∀ upper, search.upper = some upper →
    upper % search.granularity = 0 ∧ search.hook ≤ upper ∧ upper ≤ search.maximum
  apart : ∀ lower upper, search.lower = some lower → search.upper = some upper → lower < upper

theorem takeLower_cursor {self : CandidateAddresses} {candidate next : Nat} :
    (self.takeLower candidate).2.lower = some next ↔
      next + self.granularity = candidate ∧ self.minimum ≤ next := by
  simp only [takeLower, Option.filter_eq_some_iff, checkedSub_some, decide_eq_true_eq]
  omega

theorem takeUpper_cursor {self : CandidateAddresses} {candidate next : Nat} (bounded : self.maximum ≤ usizeMax) :
    (self.takeUpper candidate).2.upper = some next ↔
      candidate + self.granularity = next ∧ next ≤ self.maximum := by
  simp only [takeUpper, Option.filter_eq_some_iff, checkedAdd_some, decide_eq_true_eq]
  omega

theorem Formed.takeLower {self : CandidateAddresses} (formed : self.Formed) {lower : Nat}
    (cursor : self.lower = some lower) : (self.takeLower lower).2.Formed := by
  obtain ⟨aligned, -, below⟩ := formed.descending lower cursor
  refine ⟨formed.bounded, ?_, formed.ascending, ?_⟩
  · intro next moved
    obtain ⟨rfl, within⟩ := takeLower_cursor.mp moved
    have multiple : next % self.granularity = 0 := by simpa using aligned
    have short : next ≤ self.hook := by omega
    exact ⟨multiple, within, short⟩
  · intro next upper moved above
    obtain ⟨rfl, -⟩ := takeLower_cursor.mp moved
    have order := formed.apart _ upper cursor above
    omega

theorem Formed.takeUpper {self : CandidateAddresses} (formed : self.Formed) {upper : Nat}
    (cursor : self.upper = some upper) : (self.takeUpper upper).2.Formed := by
  obtain ⟨aligned, above, -⟩ := formed.ascending upper cursor
  refine ⟨formed.bounded, formed.descending, ?_, ?_⟩
  · intro next moved
    obtain ⟨rfl, within⟩ := (takeUpper_cursor formed.bounded).mp moved
    have multiple : (upper + self.granularity) % self.granularity = 0 := by simpa using aligned
    have beyond : self.hook ≤ upper + self.granularity := by omega
    exact ⟨multiple, beyond, within⟩
  · intro lower next below moved
    obtain ⟨rfl, -⟩ := (takeUpper_cursor formed.bounded).mp moved
    have order := formed.apart lower upper below cursor
    omega

theorem Formed.takeLower_ahead {self : CandidateAddresses} (formed : self.Formed) {lower : Nat}
    (cursor : self.lower = some lower) (candidate : Nat) :
    self.Ahead candidate ↔ candidate = lower ∨ (self.takeLower lower).2.Ahead candidate := by
  obtain ⟨aligned, within, -⟩ := formed.descending lower cursor
  constructor
  · rintro ⟨multiple, ⟨_, same, low, high⟩ | above⟩
    · obtain rfl := Option.some.inj (cursor.symm.trans same)
      rcases Nat.eq_or_lt_of_le high with rfl | below
      · exact Or.inl rfl
      · have gap := aligned_gap multiple aligned below
        refine Or.inr ⟨multiple, Or.inl ⟨lower - self.granularity, ?_, low, by omega⟩⟩
        exact takeLower_cursor.mpr ⟨by omega, by omega⟩
    · exact Or.inr ⟨multiple, Or.inr above⟩
  · rintro (rfl | ⟨multiple, ⟨next, moved, low, high⟩ | above⟩)
    · exact ⟨aligned, Or.inl ⟨_, cursor, within, Nat.le_refl _⟩⟩
    · obtain ⟨rfl, -⟩ := takeLower_cursor.mp moved
      exact ⟨multiple, Or.inl ⟨_, cursor, low, by omega⟩⟩
    · exact ⟨multiple, Or.inr above⟩

theorem Formed.takeUpper_ahead {self : CandidateAddresses} (formed : self.Formed) {upper : Nat}
    (cursor : self.upper = some upper) (candidate : Nat) :
    self.Ahead candidate ↔ candidate = upper ∨ (self.takeUpper upper).2.Ahead candidate := by
  obtain ⟨aligned, -, within⟩ := formed.ascending upper cursor
  constructor
  · rintro ⟨multiple, below | ⟨_, same, low, high⟩⟩
    · exact Or.inr ⟨multiple, Or.inl below⟩
    · obtain rfl := Option.some.inj (cursor.symm.trans same)
      rcases Nat.eq_or_lt_of_le low with rfl | above
      · exact Or.inl rfl
      · have gap := aligned_gap aligned multiple above
        refine Or.inr ⟨multiple, Or.inr ⟨upper + self.granularity, ?_, gap, high⟩⟩
        exact (takeUpper_cursor formed.bounded).mpr ⟨rfl, gap.trans high⟩
  · rintro (rfl | ⟨multiple, below | ⟨next, moved, low, high⟩⟩)
    · exact ⟨aligned, Or.inr ⟨_, cursor, Nat.le_refl _, within⟩⟩
    · exact ⟨multiple, Or.inl below⟩
    · obtain ⟨rfl, -⟩ := (takeUpper_cursor formed.bounded).mp moved
      exact ⟨multiple, Or.inr ⟨_, cursor, by omega, high⟩⟩

structure Yields (search : CandidateAddresses) (candidate : Nat) (rest : CandidateAddresses) : Prop where
  hook : rest.hook = search.hook
  formed : rest.Formed
  ahead : ∀ other, search.Ahead other ↔ other = candidate ∨ rest.Ahead other
  nearest : ∀ other, rest.Ahead other → Nearer search.hook candidate other

theorem Formed.yields_lower {self : CandidateAddresses} (formed : self.Formed) {lower : Nat}
    (cursor : self.lower = some lower)
    (nearer : ∀ upper, self.upper = some upper → absDiff lower self.hook ≤ absDiff upper self.hook) :
    Yields self lower (self.takeLower lower).2 := by
  refine ⟨rfl, formed.takeLower cursor, formed.takeLower_ahead cursor, ?_⟩
  obtain ⟨-, -, below⟩ := formed.descending lower cursor
  have positive := self.granularity_pos
  rintro other ⟨-, ⟨next, moved, -, high⟩ | ⟨upper, above, low, -⟩⟩
  · obtain ⟨same, -⟩ := takeLower_cursor.mp moved
    refine Or.inl ?_
    simp only [absDiff]
    omega
  · have distance := nearer upper above
    have order := formed.apart lower upper cursor above
    obtain ⟨-, beyond, -⟩ := formed.ascending upper above
    simp only [Nearer, absDiff] at distance ⊢
    omega

theorem Formed.yields_upper {self : CandidateAddresses} (formed : self.Formed) {upper : Nat}
    (cursor : self.upper = some upper)
    (nearer : ∀ lower, self.lower = some lower → absDiff upper self.hook < absDiff lower self.hook) :
    Yields self upper (self.takeUpper upper).2 := by
  refine ⟨rfl, formed.takeUpper cursor, formed.takeUpper_ahead cursor, ?_⟩
  obtain ⟨-, above, -⟩ := formed.ascending upper cursor
  have positive := self.granularity_pos
  rintro other ⟨-, ⟨lower, below, -, high⟩ | ⟨next, moved, low, -⟩⟩
  · have distance := nearer lower below
    obtain ⟨-, -, beyond⟩ := formed.descending lower below
    refine Or.inl ?_
    simp only [absDiff] at distance ⊢
    omega
  · obtain ⟨same, -⟩ := (takeUpper_cursor formed.bounded).mp moved
    refine Or.inl ?_
    simp only [absDiff]
    omega

theorem Formed.next_yields {self rest : CandidateAddresses} (formed : self.Formed) {candidate : Nat}
    (step : self.next = some (candidate, rest)) : Yields self candidate rest := by
  simp only [next] at step
  split at step
  next lower upper lowerCursor upperCursor =>
    split at step
    next nearer =>
      obtain ⟨rfl, rfl⟩ := Prod.mk.inj (Option.some.inj step)
      refine formed.yields_lower lowerCursor fun other same => ?_
      obtain rfl := Option.some.inj (upperCursor.symm.trans same)
      exact nearer
    next farther =>
      obtain ⟨rfl, rfl⟩ := Prod.mk.inj (Option.some.inj step)
      refine formed.yields_upper upperCursor fun other same => ?_
      obtain rfl := Option.some.inj (lowerCursor.symm.trans same)
      exact Nat.not_le.mp farther
  next lower lowerCursor spent =>
    obtain ⟨rfl, rfl⟩ := Prod.mk.inj (Option.some.inj step)
    exact formed.yields_lower lowerCursor (by simp [spent])
  next upper spent upperCursor =>
    obtain ⟨rfl, rfl⟩ := Prod.mk.inj (Option.some.inj step)
    exact formed.yields_upper upperCursor (by simp [spent])
  next => contradiction

theorem next_none {self : CandidateAddresses} (stuck : self.next = none) (candidate : Nat) :
    ¬ self.Ahead candidate := by
  simp only [next] at stuck
  split at stuck
  next => split at stuck <;> contradiction
  next => contradiction
  next => contradiction
  next lowerSpent upperSpent => simp [Ahead, lowerSpent, upperSpent]

theorem collect_done {self : CandidateAddresses} (stuck : self.next = none) : self.collect = [] := by
  rw [collect]
  split
  next => rfl
  next step => simp [stuck] at step

theorem Formed.collect_spec {self : CandidateAddresses} (formed : self.Formed) :
    NearestFirst self.hook self.Ahead self.collect := by
  suffices found : (∀ candidate, candidate ∈ self.collect ↔ self.Ahead candidate) ∧
      self.collect.Pairwise (Nearer self.hook) from ⟨found.1, found.2, found.2.imp Nearer.ne⟩
  -- Induction on what is left to visit, which every step makes smaller.
  induction size : self.remaining using Nat.strong_induction_on generalizing self with
  | _ size ih =>
    subst size
    cases step : self.next with
    | none => simp [collect_done step, next_none step]
    | some found =>
      obtain ⟨candidate, rest⟩ := found
      have yields := formed.next_yields step
      obtain ⟨members, ordered⟩ := ih rest.remaining (next_remaining step) yields.formed rfl
      rw [collect_next step]
      constructor
      · intro other
        rw [List.mem_cons, members, yields.ahead]
      · rw [List.pairwise_cons]
        refine ⟨fun other later => yields.nearest other ((members other).mp later), ?_⟩
        rwa [← yields.hook]

theorem new_cursors {hook minimum maximum granularity top : Nat} {positive : 0 < granularity}
    {candidates : CandidateAddresses} (bounded : maximum ≤ usizeMax)
    (up : alignUp (max hook minimum) granularity = some top)
    (created : new hook minimum maximum granularity positive = .ok candidates) :
    let bottom := alignDown (min hook maximum) granularity
    (∀ lower, candidates.lower = some lower ↔ lower = bottom ∧ minimum ≤ bottom) ∧
      ∀ upper, candidates.upper = some upper ↔
        upper ≤ maximum ∧ (top ≠ bottom ∧ upper = top ∨ top = bottom ∧ upper = top + granularity) := by
  intro bottom
  have down : bottom ≤ min hook maximum := alignDown_le _ _
  obtain ⟨low, -, -⟩ := alignUp_some positive up
  simp only [new, up, okOr, bind, Except.bind, pure, Except.pure, Except.ok.injEq] at created
  change CandidateAddresses.mk hook minimum maximum granularity (if minimum ≤ bottom then some bottom else none)
    _ positive = candidates at created
  constructor
  · intro lower
    rw [← created]
    by_cases within : minimum ≤ bottom <;> simp [within, eq_comm]
  · intro upper
    rw [← created]
    by_cases met : top = bottom
    · have within : minimum ≤ bottom := by omega
      have fits : bottom ≤ maximum := by omega
      simp only [bottom] at met within fits
      simp [bottom, met, within, fits, Option.filter_eq_some_iff, checkedAdd_some]
      omega
    · simp only [bottom] at met
      by_cases fits : top ≤ maximum <;> by_cases within : minimum ≤ bottom <;> simp only [bottom] at within <;>
        simp [bottom, met, fits, within] <;> omega

theorem new_fields {hook minimum maximum granularity : Nat} {positive : 0 < granularity}
    {candidates : CandidateAddresses} (created : new hook minimum maximum granularity positive = .ok candidates) :
    candidates.hook = hook ∧ candidates.minimum = minimum ∧ candidates.maximum = maximum ∧
      candidates.granularity = granularity := by
  cases up : alignUp (max hook minimum) granularity with
  | none => simp [new, up, okOr, bind, Except.bind] at created
  | some top =>
    simp only [new, up, okOr, bind, Except.bind, pure, Except.pure, Except.ok.injEq] at created
    simp [← created]

theorem new_total {hook minimum maximum granularity : Nat} (positive : 0 < granularity)
    (aligned : minimum % granularity = 0) (rounds : (alignUp hook granularity).isSome) :
    ∃ candidates, new hook minimum maximum granularity positive = .ok candidates := by
  obtain ⟨rounded, rounds⟩ := Option.isSome_iff_exists.mp rounds
  obtain ⟨top, up⟩ : ∃ top, alignUp (max hook minimum) granularity = some top := by
    rcases Nat.le_total hook minimum with below | above
    · rw [Nat.max_eq_right below]
      exact ⟨minimum, alignUp_aligned aligned⟩
    · rw [Nat.max_eq_left above]
      exact ⟨rounded, rounds⟩
  simp [new, up, okOr, bind, Except.bind, pure, Except.pure]

theorem new_ok {hook minimum maximum granularity : Nat} {positive : 0 < granularity}
    {candidates : CandidateAddresses} (ordered : minimum ≤ maximum) (bounded : maximum ≤ usizeMax)
    (created : new hook minimum maximum granularity positive = .ok candidates) :
    candidates.Formed ∧ ∀ candidate, candidates.Ahead candidate ↔
      candidate % granularity = 0 ∧ minimum ≤ candidate ∧ candidate ≤ maximum := by
  obtain ⟨top, up⟩ : ∃ top, alignUp (max hook minimum) granularity = some top := by
    cases up : alignUp (max hook minimum) granularity with
    | none => simp [new, up, okOr, bind, Except.bind] at created
    | some top => exact ⟨top, rfl⟩
  obtain ⟨lowerCursor, upperCursor⟩ := new_cursors bounded up created
  obtain ⟨hookSame, minimumSame, maximumSame, granularitySame⟩ := new_fields created
  have down := alignDown_le (min hook maximum) granularity
  have downAligned := alignDown_mod (min hook maximum) granularity
  have downMost {candidate : Nat} := @le_alignDown_iff (min hook maximum) granularity candidate positive
  obtain ⟨low, -, topAligned⟩ := alignUp_some positive up
  have topLeast {candidate : Nat} := @alignUp_le_iff (max hook minimum) granularity top candidate positive up
  constructor
  · refine ⟨by rwa [maximumSame], ?_, ?_, ?_⟩
    · intro lower cursor
      obtain ⟨rfl, within⟩ := (lowerCursor lower).mp cursor
      rw [granularitySame, minimumSame, hookSame]
      exact ⟨downAligned, within, by omega⟩
    · intro upper cursor
      obtain ⟨within, ⟨-, rfl⟩ | ⟨-, rfl⟩⟩ := (upperCursor upper).mp cursor
      all_goals
        rw [granularitySame, maximumSame, hookSame]
        exact ⟨by simpa using topAligned, by omega, within⟩
    · intro lower upper lowest highest
      obtain ⟨rfl, -⟩ := (lowerCursor lower).mp lowest
      obtain ⟨-, place⟩ := (upperCursor upper).mp highest
      omega
  · intro candidate
    rw [Ahead, granularitySame, minimumSame, maximumSame]
    refine and_congr_right fun multiple => ⟨?_, ?_⟩
    · rintro (⟨lower, cursor, within, below⟩ | ⟨upper, cursor, above, within⟩)
      · obtain ⟨rfl, -⟩ := (lowerCursor lower).mp cursor
        omega
      · obtain ⟨-, place⟩ := (upperCursor upper).mp cursor
        omega
    · rintro ⟨above, below⟩
      -- Above the hook the upper cursor serves, up to it the lower one.
      rcases Nat.lt_or_ge hook candidate with beyond | before
      · have reached := (topLeast multiple).mpr (by omega)
        -- Both cursors meet at an aligned hook, and then the upper one starts a step further.
        by_cases met : top = alignDown (min hook maximum) granularity
        · have gap := aligned_gap topAligned multiple (by omega)
          exact Or.inr ⟨_, (upperCursor _).mpr ⟨gap.trans below, Or.inr ⟨met, rfl⟩⟩, gap, below⟩
        · exact Or.inr ⟨top, (upperCursor top).mpr ⟨reached.trans below, Or.inl ⟨met, rfl⟩⟩, reached, below⟩
      · have reached := (downMost multiple).mpr (by omega)
        exact Or.inl ⟨_, (lowerCursor _).mpr ⟨rfl, above.trans reached⟩, above, reached⟩

theorem new_enumerates {hook minimum maximum granularity : Nat} {positive : 0 < granularity}
    {candidates : CandidateAddresses} (ordered : minimum ≤ maximum) (bounded : maximum ≤ usizeMax)
    (created : new hook minimum maximum granularity positive = .ok candidates) :
    NearestFirst hook (fun candidate => candidate % granularity = 0 ∧ minimum ≤ candidate ∧ candidate ≤ maximum)
      candidates.collect := by
  obtain ⟨formed, ahead⟩ := new_ok ordered bounded created
  obtain ⟨members, nearest, once⟩ := formed.collect_spec
  rw [(new_fields created).1] at nearest
  exact ⟨fun candidate => (members candidate).trans (ahead candidate), nearest, once⟩

end CandidateAddresses

theorem alignUp_total {value alignment : Nat} (room : value + alignment ≤ usizeMax) :
    ∃ aligned, alignUp value alignment = some aligned := by
  simp only [alignUp]
  split
  next => exact ⟨value, rfl⟩
  next => exact ⟨_, checkedAdd_some.mpr ⟨rfl, by omega⟩⟩

theorem pageBase_iff {nextInstruction pageSize granularity base : Nat} (small : pageSize - 1 ≤ usizeMax) :
    PageBase nextInstruction pageSize granularity base ↔ base % granularity = 0 ∧
      (max ((nextInstruction : Int) + i32Min) 0).toNat ≤ base ∧
      base ≤ (min ((nextInstruction : Int) + i32Max) (usizeMax - (pageSize - 1) : Nat)).toNat := by
  simp only [i32Min, i32Max]
  constructor
  · rintro ⟨aligned, ⟨displacement, reach⟩, fits⟩
    obtain ⟨sum, low, high⟩ := relativeOffset_ok.mp reach
    simp only [i32Min, i32Max] at low high
    exact ⟨aligned, by omega, by omega⟩
  · rintro ⟨aligned, low, high⟩
    refine ⟨aligned, ⟨base - nextInstruction, relativeOffset_ok.mpr ?_⟩, by omega⟩
    simp only [i32Min, i32Max]
    omega

theorem candidateBounds_ok {nextInstruction pageSize granularity minimum maximum : Nat} (positive : 0 < granularity)
    (found : candidateBounds nextInstruction pageSize granularity = .ok (minimum, maximum)) :
    minimum % granularity = 0 ∧ maximum % granularity = 0 ∧ minimum ≤ maximum ∧ maximum ≤ usizeMax ∧
      ∀ base, PageBase nextInstruction pageSize granularity base ↔
        base % granularity = 0 ∧ minimum ≤ base ∧ base ≤ maximum := by
  simp only [candidateBounds] at found
  cases room : checkedSub usizeMax (pageSize - 1) with
  | none => simp [room, okOr, bind, Except.bind] at found
  | some mappingBase =>
    obtain ⟨small, rfl⟩ := checkedSub_some.mp room
    cases up : alignUp (max ((nextInstruction : Int) + i32Min) 0).toNat granularity with
    | none => simp [room, up, okOr, bind, Except.bind] at found
    | some least =>
      simp only [room, up, okOr, bind, Except.bind] at found
      split at found
      next => contradiction
      next ordered =>
        obtain ⟨rfl, rfl⟩ := Prod.mk.inj (Except.ok.inj found)
        obtain ⟨-, -, aligned⟩ := alignUp_some positive up
        refine ⟨aligned, alignDown_mod _ _, Nat.not_lt.mp ordered, (alignDown_le _ _).trans (by omega), ?_⟩
        intro base
        rw [pageBase_iff small]
        refine and_congr_right fun multiple => ?_
        rw [alignUp_le_iff positive up multiple, le_alignDown_iff positive multiple]

theorem candidateBounds_error {nextInstruction pageSize granularity : Nat} (positive : 0 < granularity)
    (limited : granularity ≤ 2 ^ 31) (bounded : nextInstruction ≤ usizeMax) (small : pageSize ≤ usizeMax)
    {failure : Failure} (failed : candidateBounds nextInstruction pageSize granularity = .error failure) :
    failure = .error (.noMemoryCave (nextInstruction - nearJumpSize) none) ∧
      ∀ base, ¬ PageBase nextInstruction pageSize granularity base := by
  have room : checkedSub usizeMax (pageSize - 1) = some (usizeMax - (pageSize - 1)) :=
    checkedSub_some.mpr ⟨by omega, rfl⟩
  -- The lowest reachable address is zero, or lies 2^31 below another one.
  obtain ⟨least, up⟩ : ∃ least,
      alignUp (max ((nextInstruction : Int) + i32Min) 0).toNat granularity = some least := by
    by_cases low : (max ((nextInstruction : Int) + i32Min) 0).toNat = 0
    · rw [low]
      exact ⟨0, alignUp_aligned (Nat.zero_mod granularity)⟩
    · refine alignUp_total ?_
      simp only [i32Min] at low ⊢
      omega
  simp only [candidateBounds, room, up, okOr, bind, Except.bind] at failed
  split at failed
  next empty =>
    refine ⟨(Except.error.inj failed).symm, fun base valid => ?_⟩
    obtain ⟨multiple, low, high⟩ := (pageBase_iff (by omega)).mp valid
    have above := (alignUp_le_iff positive up multiple).mpr low
    have below := (le_alignDown_iff positive multiple).mpr high
    omega
  next => contradiction

theorem candidates_bounded {hook pageSize granularity minimum maximum : Nat} {positive : 0 < granularity}
    {candidates : CandidateAddresses}
    (found : candidateBounds (hook + nearJumpSize) pageSize granularity = .ok (minimum, maximum))
    (created : CandidateAddresses.new hook minimum maximum granularity positive = .ok candidates) :
    NearestFirst hook (PageBase (hook + nearJumpSize) pageSize granularity) candidates.collect := by
  obtain ⟨-, -, ordered, within, bases⟩ := candidateBounds_ok positive found
  obtain ⟨members, nearest, once⟩ := CandidateAddresses.new_enumerates ordered within created
  exact ⟨fun candidate => (members candidate).trans (bases candidate).symm, nearest, once⟩

/-- `candidate_bounds` fails only where no page can go, and the search it bounds visits every base a page can
    have, nearest first; so does a search between any two multiples, wherever the hook lies. -/
theorem candidates_nearest_first {granularity : Nat} (positive : 0 < granularity) :
    (∀ hook pageSize : Nat, granularity ≤ 2 ^ 31 → hook + nearJumpSize ≤ usizeMax → pageSize ≤ usizeMax →
      (alignUp hook granularity).isSome →
      match candidateBounds (hook + nearJumpSize) pageSize granularity with
      | .error failure =>
          failure = .error (.noMemoryCave hook none) ∧
            ∀ base, ¬ PageBase (hook + nearJumpSize) pageSize granularity base
      | .ok (minimum, maximum) =>
          (∃ base, PageBase (hook + nearJumpSize) pageSize granularity base) ∧
            ∃ candidates, CandidateAddresses.new hook minimum maximum granularity positive = .ok candidates ∧
              NearestFirst hook (PageBase (hook + nearJumpSize) pageSize granularity) candidates.collect) ∧
    ∀ hook minimum maximum : Nat, minimum % granularity = 0 → maximum % granularity = 0 → minimum ≤ maximum →
      maximum ≤ usizeMax → (alignUp hook granularity).isSome →
      ∃ candidates, CandidateAddresses.new hook minimum maximum granularity positive = .ok candidates ∧
        NearestFirst hook
          (fun candidate => candidate % granularity = 0 ∧ minimum ≤ candidate ∧ candidate ≤ maximum)
          candidates.collect := by
  constructor
  · intro hook pageSize limited bounded small rounds
    split
    next failure failed => exact candidateBounds_error positive limited bounded small failed
    next minimum maximum found =>
      obtain ⟨aligned, -, ordered, -, bases⟩ := candidateBounds_ok positive found
      obtain ⟨candidates, created⟩ := CandidateAddresses.new_total positive aligned rounds
      exact ⟨⟨minimum, (bases minimum).mpr ⟨aligned, Nat.le_refl _, ordered⟩⟩, candidates, created,
        candidates_bounded found created⟩
  · intro hook minimum maximum aligned _ ordered bounded rounds
    obtain ⟨candidates, created⟩ := CandidateAddresses.new_total positive aligned rounds
    exact ⟨candidates, created, CandidateAddresses.new_enumerates ordered bounded created⟩

theorem candidates_nearest_first_at_5 :
    candidateBounds (5 + nearJumpSize) 4096 (2 ^ 31) = .ok (0, 2 ^ 31) ∧
      ∃ candidates, CandidateAddresses.new 5 0 (2 ^ 31) (2 ^ 31) (by decide) = .ok candidates ∧
        NearestFirst 5 (PageBase (5 + nearJumpSize) 4096 (2 ^ 31)) candidates.collect := by
  have found : candidateBounds (5 + nearJumpSize) 4096 (2 ^ 31) = .ok (0, 2 ^ 31) := by rfl
  have searched := (candidates_nearest_first (by decide : 0 < 2 ^ 31)).1 5 4096 (by decide) (by decide) (by decide)
    (by decide)
  rw [found] at searched
  exact ⟨found, searched.2⟩

end Patchy
