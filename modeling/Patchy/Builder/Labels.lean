import Patchy.Builder.Assembly

set_option autoImplicit false

namespace Patchy

inductive Side where
  | first
  | second
  deriving DecidableEq, Repr

structure Builders where
  first : Trampoline
  second : Trampoline
  deriving DecidableEq, Repr

namespace Builders

def new : Builders := ⟨Trampoline.new, Trampoline.new⟩

def apply (self : Builders) : Side × BuilderOp → Builders
  | (.first, op) => { self with first := op.apply self.first }
  | (.second, op) => { self with second := op.apply self.second }

def run (steps : List (Side × BuilderOp)) : Builders := steps.foldl apply new

def opsOf (side : Side) (steps : List (Side × BuilderOp)) : List BuilderOp :=
  steps.filterMap fun step => if step.1 = side then some step.2 else none

def labelsCreated (side : Side) (steps : List (Side × BuilderOp)) : Nat :=
  (opsOf side steps).count .newLabel

theorem run_snoc (steps : List (Side × BuilderOp)) (step : Side × BuilderOp) :
    run (steps ++ [step]) = (run steps).apply step := by
  simp [run]

theorem opsOf_append (side : Side) (first second : List (Side × BuilderOp)) :
    opsOf side (first ++ second) = opsOf side first ++ opsOf side second :=
  List.filterMap_append

theorem run_independent (steps : List (Side × BuilderOp)) :
    (run steps).first = assemble (opsOf .first steps) ∧
      (run steps).second = assemble (opsOf .second steps) := by
  induction steps using List.reverseRecOn with
  | nil => exact ⟨rfl, rfl⟩
  | append_singleton steps step ih =>
    rw [run_snoc, opsOf_append, opsOf_append]
    rcases step with ⟨_ | _, op⟩
    · refine ⟨?_, by simpa [opsOf, apply] using ih.2⟩
      change op.apply (run steps).first = assemble (opsOf .first steps ++ [op])
      rw [assemble_snoc, ih.1]
    · refine ⟨by simpa [opsOf, apply] using ih.1, ?_⟩
      change op.apply (run steps).second = assemble (opsOf .second steps ++ [op])
      rw [assemble_snoc, ih.2]

end Builders

theorem bind_invalid_iff (self : Trampoline) (label : Label) :
    self.bind label = (.err (.invalidLabel label.index), self) ↔ self.labels.length ≤ label.index := by
  rw [← List.getElem?_eq_none_iff]
  simp only [Trampoline.bind]
  split <;> simp_all

theorem assemble_fixups_append (first second : List BuilderOp) :
    ∃ later, (assemble (first ++ second)).relativeFixups = (assemble first).relativeFixups ++ later := by
  rw [assemble_fixups, assemble_fixups, chunks_append]
  exact ⟨_, List.filterMap_append⟩

def branchTo (condition : Option Condition) (label : Label) : BuilderOp :=
  match condition with
  | none => .jumpTo label
  | some condition => .jumpIf condition label

theorem branchTo_fixups (self : Trampoline) (condition : Option Condition) (label : Label) :
    ∃ fixup, fixup.target = .label label ∧
      ((branchTo condition label).apply self).relativeFixups = self.relativeFixups ++ [fixup] := by
  cases condition <;> exact ⟨_, rfl, apply_fixups self _⟩

theorem resolve_invalid_iff (self : Trampoline) (address : Nat) (target : Target) (index : Nat) :
    self.resolve address target = .err (.invalidLabel index) ↔
      target = .label ⟨index⟩ ∧ self.labels.length ≤ index := by
  rw [← List.getElem?_eq_none_iff]
  cases target with
  | address destination => simp [Trampoline.resolve]
  | label label =>
    obtain ⟨number⟩ := label
    simp only [Trampoline.resolve, Target.label.injEq, Label.mk.injEq]
    cases found : self.labels[number]? with
    | none =>
      simp only [Except.error.injEq, Failure.error.injEq, PatchError.invalidLabel.injEq]
      constructor
      · rintro rfl
        exact ⟨rfl, found⟩
      · exact And.left
    | some slot =>
      have known : ¬ (number = index ∧ self.labels[index]? = none) := by
        rintro ⟨rfl, missing⟩
        exact absurd (found.symm.trans missing) (by simp)
      simp only [known, iff_false]
      cases slot <;> simp

theorem displacement_invalid_iff (self : Trampoline) (address : Nat) (fixup : RelativeFixup) (index : Nat) :
    self.displacement address fixup = .err (.invalidLabel index) ↔
      fixup.target = .label ⟨index⟩ ∧ self.labels.length ≤ index := by
  rw [← resolve_invalid_iff self address fixup.target index]
  simp only [Trampoline.displacement]
  cases self.resolve address fixup.target with
  | error failure => simp [bind, Except.bind]
  | ok destination =>
    simp only [bind, Except.bind, reduceCtorEq, iff_false]
    -- The steps after the target is known fail with other errors.
    cases checkedAdd address fixup.nextInstructionOffset with
    | none => simp [okOr]
    | some next =>
      intro failed
      have reason := relativeOffset_error failed
      simp at reason

def EarlierBranchFails (self : Trampoline) (count address : Nat) : Prop :=
  ∃ fixup ∈ self.relativeFixups.take count, ∃ failure, self.displacement address fixup = .error failure

/-- What the documentation of `InvalidLabel` promises of a build after a branch to a foreign label. -/
def Rejects (self : Trampoline) (count : Nat) (label : Label) (address : Nat) : Prop :=
  self.build address = .err (.invalidLabel label.index) ∨
    EarlierBranchFails self count address ∧ ∃ failure, self.build address = .error failure

theorem rejects_iff {ops : List BuilderOp} {before after : List RelativeFixup} {branch : RelativeFixup}
    {label : Label} (address : Nat)
    (fixups : (assemble ops).relativeFixups = before ++ branch :: after)
    (target : branch.target = .label label) :
    Rejects (assemble ops) before.length label address ↔
      (assemble ops).labels.length ≤ label.index ∨ EarlierBranchFails (assemble ops) before.length address := by
  have earlier : (assemble ops).relativeFixups.take before.length = before := by
    rw [fixups, List.take_left]
  by_cases failing : EarlierBranchFails (assemble ops) before.length address
  · simp only [failing, or_true, iff_true]
    obtain ⟨fixup, member, failure, failed⟩ := failing
    rw [earlier] at member
    refine Or.inr ⟨⟨fixup, by rwa [earlier], failure, failed⟩, ?_⟩
    cases built : (assemble ops).build address with
    | error reason => exact ⟨reason, rfl⟩
    | ok code => exact absurd built (build_not_ok ops address (by rw [fixups]; simp [member]) failed)
  · simp only [failing, or_false]
    have fine (fixup : RelativeFixup) (member : fixup ∈ before) :
        ∃ displacement, (assemble ops).displacement address fixup = .ok displacement := by
      cases found : (assemble ops).displacement address fixup with
      | ok displacement => exact ⟨displacement, rfl⟩
      | error failure => exact absurd ⟨fixup, by rwa [earlier], failure, found⟩ failing
    constructor
    · rintro (rejected | ⟨impossible, -⟩)
      · obtain ⟨_, fixup, _, _, _, failed⟩ := (build_error_iff ops address _).mp rejected
        exact ((displacement_invalid_iff _ address fixup label.index).mp failed).2
      · exact absurd impossible failing
    · intro beyond
      refine Or.inl ((build_error_iff ops address _).mpr ⟨before, branch, after, fixups, fine, ?_⟩)
      exact (displacement_invalid_iff _ address branch label.index).mpr ⟨target, beyond⟩

/-- A label of the first builder is caught by the second one exactly while the second has created no
    more labels than the first had when it created this one. -/
theorem foreign_label_rejected_iff (before after later : List (Side × BuilderOp))
    (condition : Option Condition) (address : Nat) :
    let label := (Builders.run before).first.newLabel.1
    let steps := before ++ (.first, .newLabel) :: after
    let builders := Builders.run steps
    let steps' := steps ++ (.second, branchTo condition label) :: later
    let builders' := Builders.run steps'
    (builders.second.bind label = (.err (.invalidLabel label.index), builders.second) ↔
        Builders.labelsCreated .second steps ≤ Builders.labelsCreated .first before) ∧
      (Rejects builders'.second builders.second.relativeFixups.length label address ↔
        Builders.labelsCreated .second steps' ≤ Builders.labelsCreated .first before ∨
          EarlierBranchFails builders'.second builders.second.relativeFixups.length address) := by
  intro label steps builders steps' builders'
  have index : label.index = Builders.labelsCreated .first before := by
    change (Builders.run before).first.labels.length = _
    rw [(Builders.run_independent before).1, assemble_labels_length]
    rfl
  have second : builders.second = assemble (Builders.opsOf .second steps) := (Builders.run_independent steps).2
  have second' : builders'.second = assemble (Builders.opsOf .second steps') :=
    (Builders.run_independent steps').2
  constructor
  · rw [bind_invalid_iff, index, second, assemble_labels_length]
    rfl
  · have split : Builders.opsOf .second steps' =
        Builders.opsOf .second steps ++ [branchTo condition label] ++ Builders.opsOf .second later := by
      rw [Builders.opsOf_append, List.append_assoc]
      rfl
    obtain ⟨rest, grown⟩ := assemble_fixups_append
      (Builders.opsOf .second steps ++ [branchTo condition label]) (Builders.opsOf .second later)
    obtain ⟨branch, target, pushed⟩ := branchTo_fixups (assemble (Builders.opsOf .second steps)) condition label
    rw [← split, assemble_snoc, pushed, List.append_assoc] at grown
    rw [second, second', rejects_iff address grown target, assemble_labels_length, index]
    rfl

/-- Both builders own a label 0: the second binds the first one's label and branches to it. -/
theorem foreign_label_accepted :
    let label := (Builders.run []).first.newLabel.1
    let builders := Builders.run [(.first, .newLabel), (.second, .newLabel)]
    (builders.second.bind label).1 = .ok () ∧
      (Builders.run [(.first, .newLabel), (.second, .newLabel), (.second, .bind ⟨0⟩),
        (.second, .jumpTo label)]).second.build 0x180000000 = .ok [0xE9, 0xFB, 0xFF, 0xFF, 0xFF] := by
  decide

end Patchy
