import Mathlib.Tactic.Ring
import Patchy.Core.Error

set_option autoImplicit false

namespace Patchy

abbrev Byte := BitVec 8

def nearJump : Byte := 0xE9
def nearJumpSize : Nat := 5

def trampolineAlignment : Nat := 16

def i32Min : Int := -2 ^ 31
def i32Max : Int := 2 ^ 31 - 1

def leBytes : (width : Nat) → (value : Nat) → List Byte
  | 0, _ => []
  | width + 1, value => BitVec.ofNat 8 value :: leBytes width (value / 256)

def usizeBytes (value : Nat) : List Byte := leBytes 8 value

def i32Bytes (value : Int) : List Byte := leBytes 4 (value % 2 ^ 32).toNat

@[simp] theorem leBytes_length (width value : Nat) : (leBytes width value).length = width := by
  induction width generalizing value with
  | zero => rfl
  | succ width ih => simp [leBytes, ih]

@[simp] theorem usizeBytes_length (value : Nat) : (usizeBytes value).length = 8 := leBytes_length 8 value

@[simp] theorem i32Bytes_length (value : Int) : (i32Bytes value).length = 4 := leBytes_length 4 _

def relativeOffset (nextInstruction destination : Nat) : Result Int :=
  let displacement : Int := destination - nextInstruction
  if i32Min ≤ displacement ∧ displacement ≤ i32Max then .ok displacement
  else .err (.relativeJumpOutOfRange nextInstruction destination)

theorem relativeOffset_ok {nextInstruction destination : Nat} {displacement : Int} :
    relativeOffset nextInstruction destination = .ok displacement ↔
      (nextInstruction : Int) + displacement = destination ∧
        i32Min ≤ displacement ∧ displacement ≤ i32Max := by
  unfold relativeOffset
  dsimp only
  split
  next reachable =>
    simp only [Except.ok.injEq]
    omega
  next unreachable =>
    simp only [Result.err, reduceCtorEq, false_iff]
    omega

theorem relativeOffset_error {nextInstruction destination : Nat} {failure : Failure}
    (failed : relativeOffset nextInstruction destination = .error failure) :
    failure = .error (.relativeJumpOutOfRange nextInstruction destination) := by
  unfold relativeOffset at failed
  dsimp only at failed
  split at failed
  · contradiction
  · exact (Except.error.inj failed).symm

def resize (bytes : List Byte) (size : Nat) (fill : Byte) : List Byte :=
  bytes.take size ++ List.replicate (size - bytes.length) fill

def buildNearJump (source destination size : Nat) : Result (List Byte) := do
  if size < nearJumpSize then
    .err (.unexpectedTrampolineSize nearJumpSize size)
  else
    let nextInstruction ← okOr (checkedAdd source nearJumpSize) .addressOverflow
    let displacement ← relativeOffset nextInstruction destination
    .ok (resize (nearJump :: i32Bytes displacement) size 0x90)

-- Rust panics on a zero alignment; every caller passes 16 or a positive platform constant.
def alignDown (value alignment : Nat) : Nat := value - value % alignment

def alignUp (value alignment : Nat) : Option Nat :=
  let remainder := value % alignment
  if remainder = 0 then some value else checkedAdd value (alignment - remainder)

theorem alignDown_le (value alignment : Nat) : alignDown value alignment ≤ value := Nat.sub_le _ _

theorem alignDown_mod (value alignment : Nat) : alignDown value alignment % alignment = 0 := by
  simp only [alignDown]
  exact Nat.mod_eq_zero_of_dvd (Nat.dvd_sub_mod value)

theorem lt_alignDown_add {value alignment : Nat} (positive : 0 < alignment) :
    value < alignDown value alignment + alignment := by
  have low := Nat.mod_lt value positive
  have down := Nat.mod_le value alignment
  simp only [alignDown]
  omega

theorem aligned_gap {low high alignment : Nat} (lowAligned : low % alignment = 0)
    (highAligned : high % alignment = 0) (below : low < high) : low + alignment ≤ high := by
  obtain ⟨lowCount, rfl⟩ := Nat.dvd_of_mod_eq_zero lowAligned
  obtain ⟨highCount, rfl⟩ := Nat.dvd_of_mod_eq_zero highAligned
  rw [← Nat.mul_succ]
  exact Nat.mul_le_mul_left _ (Nat.lt_of_mul_lt_mul_left below)

theorem alignUp_some {value alignment aligned : Nat} (positive : 0 < alignment)
    (up : alignUp value alignment = some aligned) :
    value ≤ aligned ∧ aligned < value + alignment ∧ aligned % alignment = 0 := by
  have low := Nat.mod_lt value positive
  unfold alignUp at up
  dsimp only at up
  split at up
  next exact =>
    obtain rfl := Option.some.inj up
    exact ⟨Nat.le_refl _, by omega, exact⟩
  next inexact =>
    obtain ⟨rfl, -⟩ := checkedAdd_some.mp up
    refine ⟨by omega, by omega, ?_⟩
    have whole : value + (alignment - value % alignment) = alignment * (value / alignment + 1) := by
      have parts := Nat.div_add_mod value alignment
      rw [Nat.mul_succ]
      omega
    rw [whole, Nat.mul_mod_right]

theorem le_alignDown_iff {value alignment multiple : Nat} (positive : 0 < alignment)
    (aligned : multiple % alignment = 0) : multiple ≤ alignDown value alignment ↔ multiple ≤ value := by
  have low := alignDown_le value alignment
  have high : value < alignDown value alignment + alignment := lt_alignDown_add positive
  constructor
  · omega
  · intro below
    by_contra above
    have gap := aligned_gap (alignDown_mod value alignment) aligned (Nat.not_le.mp above)
    omega

theorem alignUp_le_iff {value alignment top multiple : Nat} (positive : 0 < alignment)
    (up : alignUp value alignment = some top) (aligned : multiple % alignment = 0) :
    top ≤ multiple ↔ value ≤ multiple := by
  obtain ⟨low, high, topAligned⟩ := alignUp_some positive up
  constructor
  · omega
  · intro above
    by_contra below
    have gap := aligned_gap aligned topAligned (Nat.not_le.mp below)
    omega

theorem alignUp_iff {value alignment top : Nat} (positive : 0 < alignment) (bounded : top ≤ usizeMax) :
    alignUp value alignment = some top ↔ value ≤ top ∧ top % alignment = 0 ∧
      ∀ other, value ≤ other → other % alignment = 0 → top ≤ other := by
  constructor
  · intro up
    obtain ⟨low, -, aligned⟩ := alignUp_some positive up
    exact ⟨low, aligned, fun other above multiple => (alignUp_le_iff positive up multiple).mpr above⟩
  · rintro ⟨low, aligned, least⟩
    cases up : alignUp value alignment with
    | some found =>
      obtain ⟨above, -, multiple⟩ := alignUp_some positive up
      have below := (alignUp_le_iff positive up aligned).mpr low
      rw [Nat.le_antisymm below (least found above multiple)]
    | none =>
      simp only [alignUp] at up
      split at up
      next => contradiction
      next inexact =>
        have beyond := checkedAdd_none.mp up
        have part := Nat.mod_le value alignment
        have down : alignDown value alignment = value - value % alignment := rfl
        have gap := aligned_gap (alignDown_mod value alignment) aligned (by omega)
        omega

theorem alignUp_aligned {value alignment : Nat} (aligned : value % alignment = 0) :
    alignUp value alignment = some value := by
  simp [alignUp, aligned]

structure SlotRange where
  start : Nat
  stop : Nat
  deriving DecidableEq, Repr

def slotRange (used size capacity : Nat) : Option SlotRange := do
  let start ← alignUp used trampolineAlignment
  let stop ← checkedAdd start size
  if stop ≤ capacity then some ⟨start, stop⟩ else none

structure CandidateAddresses where
  hook : Nat
  minimum : Nat
  maximum : Nat
  granularity : Nat
  lower : Option Nat
  upper : Option Nat
  granularity_pos : 0 < granularity

namespace CandidateAddresses

def new (hook minimum maximum granularity : Nat) (positive : 0 < granularity) :
    Result CandidateAddresses := do
  let down := alignDown (min hook maximum) granularity
  let lower := if minimum ≤ down then some down else none
  let up ← okOr (alignUp (max hook minimum) granularity) .addressOverflow
  let upper := if up ≤ maximum then some up else none
  let upper :=
    if upper = lower then
      (upper.bind fun candidate => checkedAdd candidate granularity).filter (· ≤ maximum)
    else upper
  return ⟨hook, minimum, maximum, granularity, lower, upper, positive⟩

def absDiff (left right : Nat) : Nat := (left - right) + (right - left)

def takeLower (self : CandidateAddresses) (candidate : Nat) : Nat × CandidateAddresses :=
  (candidate, { self with
    lower := (checkedSub candidate self.granularity).filter (self.minimum ≤ ·) })

def takeUpper (self : CandidateAddresses) (candidate : Nat) : Nat × CandidateAddresses :=
  (candidate, { self with
    upper := (checkedAdd candidate self.granularity).filter (· ≤ self.maximum) })

def next (self : CandidateAddresses) : Option (Nat × CandidateAddresses) :=
  match self.lower, self.upper with
  | some lower, some upper =>
      if absDiff lower self.hook ≤ absDiff upper self.hook then some (self.takeLower lower)
      else some (self.takeUpper upper)
  | some lower, none => some (self.takeLower lower)
  | none, some upper => some (self.takeUpper upper)
  | none, none => none

def remaining (self : CandidateAddresses) : Nat :=
  (self.lower.elim 0 (· + 1)) + self.upper.elim 0 fun upper => self.maximum - upper + 1

theorem takeLower_remaining (self : CandidateAddresses) (candidate : Nat)
    (cursor : self.lower = some candidate) : (self.takeLower candidate).2.remaining < self.remaining := by
  have positive := self.granularity_pos
  have moved : (self.takeLower candidate).2.lower.elim 0 (· + 1) < candidate + 1 := by
    simp only [takeLower, checkedSub]
    by_cases kept : self.granularity ≤ candidate
    · by_cases within : self.minimum ≤ candidate - self.granularity <;>
        simp [kept, within, Option.filter]
      omega
    · simp [kept]
  have same : (self.takeLower candidate).2.upper = self.upper := rfl
  simp only [remaining]
  rw [same, cursor]
  simpa [takeLower] using moved

theorem takeUpper_remaining (self : CandidateAddresses) (candidate : Nat)
    (cursor : self.upper = some candidate) : (self.takeUpper candidate).2.remaining < self.remaining := by
  have positive := self.granularity_pos
  have moved : (self.takeUpper candidate).2.upper.elim 0 (fun upper => self.maximum - upper + 1) <
      self.maximum - candidate + 1 := by
    simp only [takeUpper, checkedAdd]
    by_cases kept : candidate + self.granularity ≤ usizeMax
    · by_cases within : candidate + self.granularity ≤ self.maximum <;>
        simp [kept, within, Option.filter]
      omega
    · simp [kept]
  have same : (self.takeUpper candidate).2.lower = self.lower := rfl
  simp only [remaining]
  rw [same, cursor]
  simpa [takeUpper] using moved

theorem next_remaining {self rest : CandidateAddresses} {candidate : Nat}
    (step : self.next = some (candidate, rest)) : rest.remaining < self.remaining := by
  simp only [next] at step
  split at step
  next lower upper lowerCursor upperCursor =>
    split at step
    · have shrinks := self.takeLower_remaining lower lowerCursor
      rwa [Option.some.inj step] at shrinks
    · have shrinks := self.takeUpper_remaining upper upperCursor
      rwa [Option.some.inj step] at shrinks
  next lower lowerCursor _ =>
    have shrinks := self.takeLower_remaining lower lowerCursor
    rwa [Option.some.inj step] at shrinks
  next upper _ upperCursor =>
    have shrinks := self.takeUpper_remaining upper upperCursor
    rwa [Option.some.inj step] at shrinks
  next => contradiction

def collect (self : CandidateAddresses) : List Nat :=
  match step : self.next with
  | none => []
  | some (candidate, rest) =>
      have := next_remaining step
      candidate :: rest.collect
termination_by self.remaining

theorem collect_next {self rest : CandidateAddresses} {candidate : Nat}
    (step : self.next = some (candidate, rest)) : self.collect = candidate :: rest.collect := by
  rw [collect]
  split
  next stuck => simp [step] at stuck
  next found _ same =>
    rw [step] at same
    obtain ⟨rfl, rfl⟩ := Prod.mk.inj (Option.some.inj same)
    rfl

end CandidateAddresses

def candidateBounds (nextInstruction pageSize granularity : Nat) : Result (Nat × Nat) := do
  let minimum := (max ((nextInstruction : Int) + i32Min) 0).toNat
  let maximumMappingBase ← okOr (checkedSub usizeMax (pageSize - 1)) .addressOverflow
  let maximum := (min ((nextInstruction : Int) + i32Max) maximumMappingBase).toNat
  let minimum ← okOr (alignUp minimum granularity) .addressOverflow
  let maximum := alignDown maximum granularity
  if maximum < minimum then .err (.noMemoryCave (nextInstruction - nearJumpSize) none)
  else .ok (minimum, maximum)

end Patchy
