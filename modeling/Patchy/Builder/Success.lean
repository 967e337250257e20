import Patchy.Builder.Assembly

set_option autoImplicit false

namespace Patchy

def BuilderOp.labelUsed : BuilderOp → Option Label
  | .bind label | .jumpTo label | .jumpIf _ label => some label
  | _ => none

def OwnLabels (ops : List BuilderOp) : Prop :=
  ∀ op ∈ ops, ∀ label ∈ op.labelUsed, label.index < ops.count .newLabel

instance (ops : List BuilderOp) : Decidable (OwnLabels ops) := by
  simp only [OwnLabels]
  infer_instance

def LabelsBound (ops : List BuilderOp) : Prop :=
  ∀ op ∈ ops, ∀ label, op.target = some (.label label) → ∃ position, BoundAt ops label position

def WithinReach (address stop destination : Nat) : Prop :=
  -2 ^ 31 ≤ (destination : Int) - (address + stop) ∧ (destination : Int) - (address + stop) ≤ 2 ^ 31 - 1

/-- What is wrong with a branch that ends `stop` bytes into the trampoline. -/
inductive BranchFails (ops : List BuilderOp) (address stop : Nat) : BuilderOp → PatchError → Prop
  | unbound {op : BuilderOp} {label : Label} (aims : op.target = some (.label label))
      (unbound : ∀ position, ¬ BoundAt ops label position) :
      BranchFails ops address stop op (.unboundLabel label.index)
  | outOfReach {destination : Nat} (far : ¬ WithinReach address stop destination) :
      BranchFails ops address stop (.relativeJump destination)
        (.relativeJumpOutOfRange (address + stop) destination)

def EarliestFails (ops : List BuilderOp) (address : Nat) (error : PatchError) : Prop :=
  ∃ before op after, ops = before ++ op :: after ∧ BranchFails ops address (totalSize before + op.size) op error ∧
    ∀ earlier other rest, before = earlier ++ other :: rest →
      ∀ reason, ¬ BranchFails ops address (totalSize earlier + other.size) other reason

theorem holes_chunks_cons (offset : Nat) (op : BuilderOp) (rest : List BuilderOp) :
    Backpatch.holes (chunks offset (op :: rest)) =
      (op.fixup offset).toList ++ Backpatch.holes (chunks (offset + op.size) rest) := by
  cases found : op.fixup offset <;> simp [Backpatch.holes, chunks, found]

theorem holes_chunks_split {offset : Nat} {ops : List BuilderOp} {before after : List RelativeFixup}
    {fixup : RelativeFixup} (same : Backpatch.holes (chunks offset ops) = before ++ fixup :: after) :
    ∃ earlier op rest, ops = earlier ++ op :: rest ∧ op.fixup (offset + totalSize earlier) = some fixup ∧
      Backpatch.holes (chunks offset earlier) = before := by
  induction ops generalizing offset before with
  | nil => simp [chunks, Backpatch.holes] at same
  | cons head ops ih =>
    rw [holes_chunks_cons] at same
    cases found : head.fixup offset with
    | none =>
      rw [found, Option.toList_none, List.nil_append] at same
      obtain ⟨earlier, op, rest, rfl, branch, holes⟩ := ih same
      refine ⟨head :: earlier, op, rest, rfl, ?_, ?_⟩
      · rwa [totalSize_cons, ← Nat.add_assoc]
      · rw [holes_chunks_cons, found, holes, Option.toList_none, List.nil_append]
    | some first =>
      rw [found, Option.toList_some, List.singleton_append] at same
      cases before with
      | nil =>
        obtain ⟨rfl, -⟩ := List.cons.inj same
        exact ⟨[], head, ops, rfl, found, rfl⟩
      | cons filled before =>
        obtain ⟨rfl, tail⟩ := List.cons.inj same
        obtain ⟨earlier, op, rest, rfl, branch, holes⟩ := ih tail
        refine ⟨head :: earlier, op, rest, rfl, ?_, ?_⟩
        · rwa [totalSize_cons, ← Nat.add_assoc]
        · rw [holes_chunks_cons, found, holes, Option.toList_some, List.singleton_append]

theorem assemble_fixups_at {before after : List BuilderOp} {op : BuilderOp} {fixup : RelativeFixup}
    (branch : op.fixup (totalSize before) = some fixup) :
    ∃ later, (assemble (before ++ op :: after)).relativeFixups =
      (assemble before).relativeFixups ++ fixup :: later := by
  have placed : Backpatch.holes (chunks (totalSize before) (op :: after)) =
      fixup :: Backpatch.holes (chunks (totalSize before + op.size) after) := by
    rw [holes_chunks_cons, branch, Option.toList_some, List.singleton_append]
  refine ⟨Backpatch.holes (chunks (totalSize before + op.size) after), ?_⟩
  rw [assemble_fixups, assemble_fixups, chunks_append, Nat.zero_add, ← placed]
  exact List.filterMap_append

theorem mem_fixups {ops : List BuilderOp} {fixup : RelativeFixup}
    (member : fixup ∈ (assemble ops).relativeFixups) :
    ∃ before op after, ops = before ++ op :: after ∧ op.fixup (totalSize before) = some fixup := by
  obtain ⟨first, second, same⟩ := List.append_of_mem member
  rw [assemble_fixups] at same
  obtain ⟨before, op, after, split, branch, -⟩ := holes_chunks_split same
  rw [Nat.zero_add] at branch
  exact ⟨before, op, after, split, branch⟩

theorem totalSize_append (first second : List BuilderOp) :
    totalSize (first ++ second) = totalSize first + totalSize second := by
  simp [totalSize]

theorem BoundAt.le {ops : List BuilderOp} {label : Label} {position : Nat} (bound : BoundAt ops label position) :
    position ≤ totalSize ops := by
  obtain ⟨before, after, rfl, -, rfl⟩ := bound
  rw [totalSize_append]
  exact Nat.le_add_right _ _

theorem relativeOffset_error_iff {address stop destination : Nat} {failure : Failure} :
    relativeOffset (address + stop) destination = .error failure ↔
      ¬ WithinReach address stop destination ∧
        failure = .error (.relativeJumpOutOfRange (address + stop) destination) := by
  have distance : (destination : Int) - (address + stop : Nat) = destination - (address + stop) := by
    rw [Nat.cast_add]
  by_cases reach : WithinReach address stop destination
  · have found : relativeOffset (address + stop) destination = .ok ((destination : Int) - (address + stop)) := by
      rw [relativeOffset, distance]
      exact if_pos reach
    simp [found, reach]
  · have failed : relativeOffset (address + stop) destination =
        .err (.relativeJumpOutOfRange (address + stop) destination) := by
      rw [relativeOffset, distance]
      exact if_neg reach
    simp [failed, reach, eq_comm]

theorem labelUsed_of_target {op : BuilderOp} {label : Label} (aims : op.target = some (.label label)) :
    op.labelUsed = some label := by
  cases op <;> simp_all [BuilderOp.target, BuilderOp.labelUsed]

theorem unbound_label {ops : List BuilderOp} {label : Label} (created : label.index < ops.count .newLabel)
    (unbound : ¬ ∃ position, BoundAt ops label position) : (assemble ops).labels[label.index]? = some none := by
  rw [← assemble_labels_length] at created
  obtain ⟨slot, found⟩ : ∃ slot, (assemble ops).labels[label.index]? = some slot :=
    ⟨_, List.getElem?_eq_getElem created⟩
  cases slot with
  | none => exact found
  | some position => exact absurd ⟨position, (boundAt_iff ops label position).mpr found⟩ unbound

section Placed

variable {ops : List BuilderOp} {address : Nat}

theorem internal_displacement (short : totalSize ops < 2 ^ 31) (fits : address + totalSize ops ≤ usizeMax)
    {fixup : RelativeFixup} {label : Label} {position : Nat} (aims : fixup.target = .label label)
    (bound : BoundAt ops label position) (inside : fixup.nextInstructionOffset ≤ totalSize ops) :
    (assemble ops).displacement address fixup = .ok ((position : Int) - fixup.nextInstructionOffset) := by
  have within := bound.le
  have target : checkedAdd address position = some (address + position) := checkedAdd_some.mpr ⟨rfl, by omega⟩
  have next : checkedAdd address fixup.nextInstructionOffset = some (address + fixup.nextInstructionOffset) :=
    checkedAdd_some.mpr ⟨rfl, by omega⟩
  have reach : relativeOffset (address + fixup.nextInstructionOffset) (address + position) =
      .ok ((position : Int) - fixup.nextInstructionOffset) := by
    refine relativeOffset_ok.mpr ?_
    simp only [i32Min, i32Max]
    omega
  simp [Trampoline.displacement, Trampoline.resolve, aims, (boundAt_iff ops label position).mp bound, target, next,
    okOr, reach, bind, Except.bind]

theorem branchFails_relativeJump {stop destination : Nat} {error : PatchError} :
    BranchFails ops address stop (.relativeJump destination) error ↔
      ¬ WithinReach address stop destination ∧ error = .relativeJumpOutOfRange (address + stop) destination := by
  constructor
  · intro fails
    cases fails with
    | unbound aims => simp [BuilderOp.target] at aims
    | outOfReach far => exact ⟨far, rfl⟩
  · rintro ⟨far, rfl⟩
    exact .outOfReach far

theorem branchFails_label {stop : Nat} {op : BuilderOp} {label : Label} {error : PatchError}
    (aims : op.target = some (.label label)) :
    BranchFails ops address stop op error ↔
      (∀ position, ¬ BoundAt ops label position) ∧ error = .unboundLabel label.index := by
  constructor
  · intro fails
    cases fails with
    | unbound other free =>
      obtain rfl : label = _ := by simpa using aims.symm.trans other
      exact ⟨free, rfl⟩
    | outOfReach far => cases aims
  · rintro ⟨free, rfl⟩
    exact .unbound aims free

theorem displacement_error_iff (own : OwnLabels ops) (short : totalSize ops < 2 ^ 31)
    (fits : address + totalSize ops ≤ usizeMax) {before after : List BuilderOp} {op : BuilderOp}
    {fixup : RelativeFixup} (split : ops = before ++ op :: after) (branch : op.fixup (totalSize before) = some fixup)
    (failure : Failure) :
    (assemble ops).displacement address fixup = .error failure ↔
      ∃ error, failure = .error error ∧ BranchFails ops address (totalSize before + op.size) op error := by
  obtain ⟨target, aims, rfl⟩ := Option.map_eq_some_iff.mp branch
  have size : totalSize before + op.literal.length + 4 = totalSize before + op.size := by
    simp [BuilderOp.size, aims, Nat.add_assoc]
  have inside : totalSize before + op.size ≤ totalSize ops := by
    rw [split, totalSize_append, totalSize_cons]
    omega
  have next : checkedAdd address (totalSize before + op.size) = some (address + (totalSize before + op.size)) :=
    checkedAdd_some.mpr ⟨rfl, by omega⟩
  have member : op ∈ ops := by simp [split]
  rw [size]
  -- An absolute destination may be too far away; a label within the trampoline never is, but it may be unbound.
  cases target with
  | address destination =>
    have jump : op = .relativeJump destination := by
      cases op <;> simp_all [BuilderOp.target]
    have reduced : (assemble ops).displacement address
        ⟨totalSize before + op.literal.length, totalSize before + op.size, .address destination⟩ =
        relativeOffset (address + (totalSize before + op.size)) destination := by
      simp [Trampoline.displacement, Trampoline.resolve, next, okOr, bind, Except.bind]
    rw [reduced, relativeOffset_error_iff]
    subst jump
    simp only [branchFails_relativeJump]
    constructor
    · rintro ⟨far, rfl⟩
      exact ⟨_, rfl, far, rfl⟩
    · rintro ⟨error, rfl, far, rfl⟩
      exact ⟨far, rfl⟩
  | label label =>
    by_cases known : ∃ position, BoundAt ops label position
    · obtain ⟨position, bound⟩ := known
      rw [internal_displacement short fits rfl bound inside]
      simp only [branchFails_label aims, reduceCtorEq, false_iff]
      rintro ⟨error, -, free, -⟩
      exact free position bound
    · have unbound : (assemble ops).labels[label.index]? = some none :=
        unbound_label (own op member label (labelUsed_of_target aims)) known
      have failed : (assemble ops).displacement address
          ⟨totalSize before + op.literal.length, totalSize before + op.size, .label label⟩ =
          .err (.unboundLabel label.index) := by
        simp [Trampoline.displacement, Trampoline.resolve, unbound, bind, Except.bind]
      simp only [failed, branchFails_label aims]
      constructor
      · intro same
        exact ⟨_, (Except.error.inj same).symm, fun position bound => known ⟨position, bound⟩, rfl⟩
      · rintro ⟨error, rfl, -, rfl⟩
        rfl

theorem BranchFails.fixup {stop : Nat} {op : BuilderOp} {error : PatchError}
    (fails : BranchFails ops address stop op error) (offset : Nat) : ∃ fixup, op.fixup offset = some fixup := by
  cases fails with
  | unbound aims => exact ⟨_, by rw [BuilderOp.fixup, aims, Option.map_some]⟩
  | outOfReach => exact ⟨_, rfl⟩

theorem build_fails_iff (own : OwnLabels ops) (short : totalSize ops < 2 ^ 31)
    (fits : address + totalSize ops ≤ usizeMax) (failure : Failure) :
    (assemble ops).build address = .error failure ↔
      ∃ error, failure = .error error ∧ EarliestFails ops address error := by
  rw [build_error_iff]
  constructor
  · rintro ⟨first, fixup, second, fixups, fine, failed⟩
    rw [assemble_fixups] at fixups
    obtain ⟨before, op, after, split, branch, holes⟩ := holes_chunks_split fixups
    rw [Nat.zero_add] at branch
    obtain ⟨error, same, fails⟩ := (displacement_error_iff own short fits split branch failure).mp failed
    refine ⟨error, same, before, op, after, split, fails, ?_⟩
    intro earlier other rest place reason broken
    obtain ⟨its, found⟩ := broken.fixup (totalSize earlier)
    obtain ⟨later, placed⟩ := @assemble_fixups_at earlier rest other its found
    have member : its ∈ first := by
      rw [← holes, ← assemble_fixups, place, placed]
      simp
    have inside : ops = earlier ++ other :: (rest ++ op :: after) := by simp [split, place]
    obtain ⟨displacement, known⟩ := fine its member
    have contrary := (displacement_error_iff own short fits inside found _).mpr ⟨reason, rfl, broken⟩
    simp [known] at contrary
  · rintro ⟨error, rfl, before, op, after, split, fails, fine⟩
    obtain ⟨fixup, branch⟩ := fails.fixup (totalSize before)
    obtain ⟨later, placed⟩ := @assemble_fixups_at before after op fixup branch
    refine ⟨(assemble before).relativeFixups, fixup, later, by rw [split, placed], ?_, ?_⟩
    · intro its member
      obtain ⟨earlier, other, rest, place, found⟩ := mem_fixups member
      have inside : ops = earlier ++ other :: (rest ++ op :: after) := by simp [split, place]
      cases known : (assemble ops).displacement address its with
      | ok displacement => exact ⟨displacement, rfl⟩
      | error reason =>
        obtain ⟨broken, -, breaks⟩ := (displacement_error_iff own short fits inside found reason).mp known
        exact absurd breaks (fine earlier other rest place broken)
    · exact (displacement_error_iff own short fits split branch _).mpr ⟨error, rfl, fails⟩

theorem build_ok_iff (own : OwnLabels ops) (short : totalSize ops < 2 ^ 31)
    (fits : address + totalSize ops ≤ usizeMax) :
    (∃ code, (assemble ops).build address = .ok code) ↔
      ∀ before op after, ops = before ++ op :: after →
        ∀ error, ¬ BranchFails ops address (totalSize before + op.size) op error := by
  constructor
  · rintro ⟨code, built⟩ before op after split error fails
    obtain ⟨fixup, branch⟩ := fails.fixup (totalSize before)
    obtain ⟨later, placed⟩ := @assemble_fixups_at before after op fixup branch
    refine build_not_ok ops address ?_ ((displacement_error_iff own short fits split branch _).mpr
      ⟨error, rfl, fails⟩) built
    rw [split, placed]
    simp
  · intro fine
    cases built : (assemble ops).build address with
    | ok code => exact ⟨code, rfl⟩
    | error failure =>
      obtain ⟨error, -, before, op, after, split, fails, -⟩ := (build_fails_iff own short fits failure).mp built
      exact absurd fails (fine before op after split error)

theorem no_branch_fails_iff :
    (∀ before op after, ops = before ++ op :: after →
        ∀ error, ¬ BranchFails ops address (totalSize before + op.size) op error) ↔
      LabelsBound ops ∧ ∀ before destination after, ops = before ++ .relativeJump destination :: after →
        WithinReach address (totalSize before + 5) destination := by
  constructor
  · intro fine
    constructor
    · intro op member label aims
      obtain ⟨before, after, split⟩ := List.append_of_mem member
      by_contra unbound
      exact fine before op after split _ (.unbound aims fun position bound => unbound ⟨position, bound⟩)
    · intro before destination after split
      by_contra far
      exact fine before _ after split _ (.outOfReach far)
  · rintro ⟨bound, reach⟩ before op after split error fails
    cases fails with
    | unbound aims free =>
      obtain ⟨position, known⟩ := bound op (by simp [split]) _ aims
      exact free position known
    | outOfReach far => exact far (reach before _ after split)

theorem build_congr {other : Nat}
    (same : ∀ fixup ∈ (assemble ops).relativeFixups,
      (assemble ops).displacement address fixup = (assemble ops).displacement other fixup) :
    (assemble ops).build address = (assemble ops).build other := by
  rw [Trampoline.build, Trampoline.build, applyFixups_patchAll, applyFixups_patchAll]
  exact Backpatch.patchAll_congr (fun fixup member => by rw [same fixup member]) _

theorem build_position_independent (short : totalSize ops < 2 ^ 31) (bound : LabelsBound ops)
    (internal : ∀ destination, .relativeJump destination ∉ ops) (fits : address + totalSize ops ≤ usizeMax)
    {other : Nat} (otherFits : other + totalSize ops ≤ usizeMax) :
    (assemble ops).build address = (assemble ops).build other := by
  refine build_congr fun fixup member => ?_
  obtain ⟨before, op, after, split, branch⟩ := mem_fixups member
  obtain ⟨target, aims, rfl⟩ := Option.map_eq_some_iff.mp branch
  have used : op ∈ ops := by simp [split]
  have inside : totalSize before + op.literal.length + 4 ≤ totalSize ops := by
    rw [split, totalSize_append, totalSize_cons]
    simp only [BuilderOp.size, aims, Option.elim_some]
    omega
  cases target with
  | address destination =>
    have jump : op = .relativeJump destination := by
      cases op <;> simp_all [BuilderOp.target]
    exact absurd (jump ▸ used) (internal destination)
  | label label =>
    obtain ⟨position, known⟩ := bound op used label aims
    rw [internal_displacement short fits rfl known inside, internal_displacement short otherFits rfl known inside]

end Placed

/-- `build` succeeds exactly if every label branched to is bound and every relative jump is within reach of its
    destination, and otherwise reports the earliest branch that is not so. -/
theorem build_succeeds_iff (ops : List BuilderOp) (own : OwnLabels ops) (short : (assemble ops).len < 2 ^ 31) :
    (∀ address, address + (assemble ops).len ≤ usizeMax →
      ((∃ code, (assemble ops).build address = .ok code) ↔
        LabelsBound ops ∧ ∀ before destination after, ops = before ++ .relativeJump destination :: after →
          WithinReach address (totalSize before + 5) destination) ∧
      ∀ failure, (assemble ops).build address = .error failure ↔
        ∃ error, failure = .error error ∧ EarliestFails ops address error) ∧
    (LabelsBound ops → (∀ destination, .relativeJump destination ∉ ops) →
      ∃ code, ∀ address, address + (assemble ops).len ≤ usizeMax → (assemble ops).build address = .ok code) := by
  have length : (assemble ops).len = totalSize ops := assemble_length ops
  rw [length] at short ⊢
  constructor
  · intro address fits
    exact ⟨(build_ok_iff own short fits).trans no_branch_fails_iff, build_fails_iff own short fits⟩
  · intro bound internal
    have lowest : 0 + totalSize ops ≤ usizeMax := by
      simp only [usizeMax]
      omega
    obtain ⟨code, built⟩ := (build_ok_iff own short lowest).mpr (no_branch_fails_iff.mpr
      ⟨bound, fun before destination after split => absurd (by simp [split]) (internal destination)⟩)
    exact ⟨code, fun address fits => (build_position_independent short bound internal fits lowest).trans built⟩

-- A loop back over three bytes is the same code wherever it is placed.
theorem build_succeeds_iff_loop :
    let ops := [.newLabel, .bind ⟨0⟩, .bytes [0x90, 0x90, 0x90], .jumpIf .notEqual ⟨0⟩]
    ∃ code, ∀ address, address + (assemble ops).len ≤ usizeMax → (assemble ops).build address = .ok code := by
  intro ops
  refine (build_succeeds_iff ops (by decide) (by decide)).2 ?_ (by simp [ops])
  intro op member label aims
  obtain rfl : label = ⟨0⟩ := by
    simp only [ops, List.mem_cons, List.not_mem_nil, or_false] at member
    rcases member with rfl | rfl | rfl | rfl <;> simp_all [BuilderOp.target]
  exact ⟨0, [.newLabel], [.bytes [0x90, 0x90, 0x90], .jumpIf .notEqual ⟨0⟩], rfl, by decide, by decide⟩

end Patchy
