import Patchy.Builder.Operations

set_option autoImplicit false

namespace Patchy

def BranchTo (address offset : Nat) (opcode : List Byte) (destination : Int) (code : List Byte) : Prop :=
  ∃ displacement : Int, i32Min ≤ displacement ∧ displacement ≤ i32Max ∧
    code = opcode ++ i32Bytes displacement ∧
    (address : Int) + (offset + opcode.length + 4) + displacement = destination

/-- The encoding of one operation, `offset` bytes into a trampoline of `ops` placed at `address`. -/
def Encodes (ops : List BuilderOp) (address offset : Nat) : BuilderOp → List Byte → Prop
  | .bytes contents, code => code = contents
  | .newLabel, code | .bind _, code => code = []
  | .absoluteCall function, code =>
      code = [0xFF, 0x15, 0x02, 0x00, 0x00, 0x00, 0xEB, 0x08] ++ usizeBytes function
  | .absoluteJump destination, code =>
      code = [0xFF, 0x25, 0x00, 0x00, 0x00, 0x00] ++ usizeBytes destination
  | .relativeJump destination, code => BranchTo address offset [0xE9] destination code
  | .jumpTo label, code =>
      ∃ position, BoundAt ops label position ∧ BranchTo address offset [0xE9] (address + position) code
  | .jumpIf condition label, code =>
      ∃ position, BoundAt ops label position ∧
        BranchTo address offset [0x0F, condition.code] (address + position) code
  | .preservedCall function argumentSetup resultHandling allowReturn, code =>
      code = Arch.pushPreservedCall [] function argumentSetup resultHandling allowReturn

theorem copyFromSlice_patchField (code : List Byte) (start stop : Nat) (field : List Byte) :
    copyFromSlice code start stop field =
      (Backpatch.patchField code start stop field).elim (.error .panic) .ok := by
  simp only [copyFromSlice, Backpatch.patchField]
  split <;> rfl

theorem applyFixups_patchAll (self : Trampoline) (address : Nat) (fixups : List RelativeFixup)
    (code : List Byte) :
    self.applyFixups address fixups code =
      Backpatch.patchAll Failure.panic RelativeFixup.span
        (fun fixup => (self.displacement address fixup).map i32Bytes) fixups code := by
  induction fixups generalizing code with
  | nil => rfl
  | cons fixup rest ih =>
    simp only [Trampoline.applyFixups, Backpatch.patchAll, copyFromSlice_patchField]
    cases self.displacement address fixup with
    | error failure => rfl
    | ok displacement =>
      simp only [Except.map, bind, Except.bind, RelativeFixup.span]
      cases Backpatch.patchField code fixup.displacementOffset (fixup.displacementOffset + 4)
        (i32Bytes displacement) with
      | none => rfl
      | some patched => exact ih patched

theorem resolve_label_ok {self : Trampoline} {address : Nat} {label : Label} {destination : Nat}
    (resolved : self.resolve address (.label label) = .ok destination) :
    ∃ position, self.labels[label.index]? = some (some position) ∧ destination = address + position := by
  simp only [Trampoline.resolve] at resolved
  split at resolved
  · contradiction
  · contradiction
  next position bound =>
    have sum := checkedAdd_some.mp (okOr_ok.mp resolved)
    exact ⟨position, bound, sum.1.symm⟩

theorem displacement_ok {self : Trampoline} {address : Nat} {fixup : RelativeFixup} {displacement : Int}
    (found : self.displacement address fixup = .ok displacement) :
    ∃ destination, self.resolve address fixup.target = .ok destination ∧
      i32Min ≤ displacement ∧ displacement ≤ i32Max ∧
      (address : Int) + fixup.nextInstructionOffset + displacement = destination := by
  simp only [Trampoline.displacement] at found
  cases resolved : self.resolve address fixup.target with
  | error failure => simp [resolved, bind, Except.bind] at found
  | ok destination =>
    cases next : checkedAdd address fixup.nextInstructionOffset with
    | none => simp [resolved, next, okOr, bind, Except.bind] at found
    | some nextInstruction =>
      simp only [resolved, next, okOr, bind, Except.bind] at found
      obtain ⟨sum, low, high⟩ := relativeOffset_ok.mp found
      have next := (checkedAdd_some.mp next).1
      exact ⟨destination, rfl, low, high, by omega⟩

theorem displacement_error {self : Trampoline} {address : Nat} {fixup : RelativeFixup} {failure : Failure}
    (failed : self.displacement address fixup = .error failure) :
    (∃ label, fixup.target = .label label ∧ self.labels[label.index]? = none ∧
        failure = .error (.invalidLabel label.index)) ∨
      (∃ label, fixup.target = .label label ∧ self.labels[label.index]? = some none ∧
        failure = .error (.unboundLabel label.index)) ∨
      failure = .error .addressOverflow ∨
      ∃ nextInstruction destination, failure = .error (.relativeJumpOutOfRange nextInstruction destination) := by
  simp only [Trampoline.displacement] at failed
  cases resolved : self.resolve address fixup.target with
  | ok destination =>
    refine Or.inr (Or.inr ?_)
    cases next : checkedAdd address fixup.nextInstructionOffset with
    | none =>
      simp only [resolved, next, okOr, bind, Except.bind] at failed
      exact Or.inl (Except.error.inj failed).symm
    | some nextInstruction =>
      simp only [resolved, next, okOr, bind, Except.bind] at failed
      exact Or.inr ⟨_, _, relativeOffset_error failed⟩
  | error reason =>
    simp only [resolved, bind, Except.bind, Except.error.injEq] at failed
    subst failed
    cases aims : fixup.target with
    | address destination => simp [aims, Trampoline.resolve] at resolved
    | label label =>
      simp only [aims, Trampoline.resolve] at resolved
      split at resolved
      next missing => exact Or.inl ⟨label, rfl, missing, (Except.error.inj resolved).symm⟩
      next unbound => exact Or.inr (Or.inl ⟨label, rfl, unbound, (Except.error.inj resolved).symm⟩)
      next position bound =>
        cases sum : checkedAdd address position with
        | none =>
          simp only [sum, okOr] at resolved
          exact Or.inr (Or.inr (Or.inl (Except.error.inj resolved).symm))
        | some destination => simp [sum, okOr] at resolved

theorem branch_encodes {self : Trampoline} {address offset : Nat} {op : BuilderOp} {target : Target}
    {field : List Byte}
    (filled : (self.displacement address ⟨offset + op.literal.length, offset + op.literal.length + 4, target⟩).map
      i32Bytes = .ok field) :
    ∃ destination, self.resolve address target = .ok destination ∧
      BranchTo address offset op.literal destination (op.literal ++ field) := by
  cases found : self.displacement address ⟨offset + op.literal.length, offset + op.literal.length + 4, target⟩ with
  | error failure => simp [found, Except.map] at filled
  | ok displacement =>
    obtain ⟨destination, resolved, low, high, sum⟩ := displacement_ok found
    simp only [found, Except.map, Except.ok.injEq] at filled
    refine ⟨destination, resolved, displacement, low, high, by rw [filled], ?_⟩
    push_cast at sum
    omega

theorem piece_encodes {ops : List BuilderOp} {address offset : Nat} {op : BuilderOp} {piece : List Byte}
    (rendered : Backpatch.Rendered blankField
      (fun fixup field => ((assemble ops).displacement address fixup).map i32Bytes = .ok field)
      offset [⟨op.literal, op.fixup offset⟩] piece) :
    Encodes ops address offset op piece := by
  cases branch : op.target with
  | none =>
    simp only [BuilderOp.fixup, branch, Option.map_none] at rendered
    cases rendered with
    | solid tail =>
      cases tail
      cases op <;> simp_all [BuilderOp.target, Encodes, BuilderOp.literal]
  | some target =>
    simp only [BuilderOp.fixup, branch, Option.map_some] at rendered
    cases rendered with
    | filled width filled tail =>
      cases tail
      rw [List.append_nil]
      obtain ⟨destination, resolved, leads⟩ := branch_encodes filled
      cases op with
      | relativeJump goal =>
        obtain rfl := Option.some.inj branch
        obtain rfl := Except.ok.inj resolved
        exact leads
      | jumpTo label | jumpIf _ label =>
        obtain rfl := Option.some.inj branch
        obtain ⟨position, bound, rfl⟩ := resolve_label_ok resolved
        exact ⟨position, (boundAt_iff ops label position).mpr bound, by exact_mod_cast leads⟩
      | _ => contradiction

theorem displacement_sized {self : Trampoline} {address : Nat} {fixup : RelativeFixup} {field : List Byte}
    (found : (self.displacement address fixup).map i32Bytes = .ok field) : field.length = 4 := by
  cases known : self.displacement address fixup with
  | error failure => simp [known, Except.map] at found
  | ok displacement =>
    simp only [known, Except.map, Except.ok.injEq] at found
    rw [← found, i32Bytes_length]

theorem assemble_fixup_fits {ops : List BuilderOp} {fixup : RelativeFixup}
    (member : fixup ∈ (assemble ops).relativeFixups) :
    fixup.displacementOffset + 4 ≤ (assemble ops).code.length := by
  induction ops using List.reverseRecOn with
  | nil => exact absurd member List.not_mem_nil
  | append_singleton ops op ih =>
    rw [assemble_snoc, apply_fixups] at member
    rw [assemble_snoc, apply_code]
    simp only [List.length_append]
    rcases List.mem_append.mp member with earlier | own
    · have bound := ih earlier
      omega
    · simp only [BuilderOp.fixup, Option.mem_toList, Option.map_eq_some_iff] at own
      obtain ⟨target, branch, rfl⟩ := own
      simp [branch, blankField]

theorem build_error_iff (ops : List BuilderOp) (address : Nat) (failure : Failure) :
    (assemble ops).build address = .error failure ↔
      ∃ before fixup after, (assemble ops).relativeFixups = before ++ fixup :: after ∧
        (∀ earlier ∈ before, ∃ displacement, (assemble ops).displacement address earlier = .ok displacement) ∧
        (assemble ops).displacement address fixup = .error failure := by
  have shape (fixup : RelativeFixup) :
      (∃ field, ((assemble ops).displacement address fixup).map i32Bytes = .ok field) ↔
        ∃ displacement, (assemble ops).displacement address fixup = .ok displacement := by
    cases (assemble ops).displacement address fixup <;> simp [Except.map]
  have failed (fixup : RelativeFixup) :
      ((assemble ops).displacement address fixup).map i32Bytes = .error failure ↔
        (assemble ops).displacement address fixup = .error failure := by
    cases (assemble ops).displacement address fixup <;> simp [Except.map]
  rw [Trampoline.build, applyFixups_patchAll, Backpatch.patchAll_error_iff]
  · simp only [shape, failed]
  · intro fixup member field found
    have inside := assemble_fixup_fits member
    have width := displacement_sized found
    simp only [RelativeFixup.span]
    omega

theorem build_not_ok (ops : List BuilderOp) (address : Nat) {fixup : RelativeFixup} {failure : Failure}
    (member : fixup ∈ (assemble ops).relativeFixups)
    (failed : (assemble ops).displacement address fixup = .error failure) {code : List Byte} :
    (assemble ops).build address ≠ .ok code := by
  intro built
  rw [Trampoline.build, applyFixups_patchAll] at built
  obtain ⟨field, found⟩ := Backpatch.patchAll_ok built fixup member
  simp [failed, Except.map] at found

theorem boundAt_unique {ops : List BuilderOp} {label : Label} {first second : Nat}
    (bound : BoundAt ops label first) (again : BoundAt ops label second) : first = second := by
  rw [boundAt_iff] at bound again
  simpa using bound.symm.trans again

/-- `build` assembles exactly the operations, in order, and touches nothing but displacements. -/
theorem build_assembles (ops : List BuilderOp) (address : Nat) (code : List Byte)
    (built : (assemble ops).build address = .ok code) :
    code.length = (assemble ops).len ∧ code.length = totalSize ops ∧
      (∀ before op after, ops = before ++ op :: after →
        Encodes ops address (totalSize before) op ((code.drop (totalSize before)).take op.size)) ∧
      (∀ index, (∀ fixup ∈ (assemble ops).relativeFixups,
          index < fixup.displacementOffset ∨ fixup.displacementOffset + 4 ≤ index) →
        code[index]? = (assemble ops).code[index]?) := by
  rw [Trampoline.build, applyFixups_patchAll] at built
  have length := Backpatch.patchAll_length built
  refine ⟨length, length.trans (assemble_length ops), ?_, fun index outside =>
    Backpatch.patchAll_outside built outside⟩
  intro before op after same
  have sized (fixup : RelativeFixup) (field : List Byte)
      (found : ((assemble ops).displacement address fixup).map i32Bytes = .ok field) :
      field.length = blankField.length := displacement_sized found
  rw [assemble_fixups, assemble_code] at built
  obtain ⟨rendered, rfl, whole⟩ := Backpatch.patchAll_rendered Failure.panic RelativeFixup.span _ sized
    (chunks 0 ops) [] code (chunks_spans 0 ops) built
  rw [List.length_nil] at whole
  have split : chunks 0 ops =
      chunks 0 before ++ ⟨op.literal, op.fixup (totalSize before)⟩ :: chunks (totalSize before + op.size) after := by
    rw [same, chunks_append, Nat.zero_add]
    rfl
  rw [split] at whole
  obtain ⟨piece, single, slice⟩ := whole.at
  rw [chunks_length, Nat.zero_add] at single
  rw [chunks_length, chunk_size] at slice
  rw [slice]
  exact piece_encodes single

-- A forward conditional branch over three bytes, and a jump to code outside the trampoline.
theorem build_assembles_mixed_branches :
    let ops := [.newLabel, .jumpIf .notEqual ⟨0⟩, .bytes [0x90, 0x90, 0x90], .bind ⟨0⟩,
      .relativeJump 0x180001000]
    let code := [0x0F, 0x85, 0x03, 0, 0, 0, 0x90, 0x90, 0x90, 0xE9, 0xF2, 0x0F, 0, 0]
    code.length = (assemble ops).len ∧
      Encodes ops 0x180000000 9 (.relativeJump 0x180001000) ((code.drop 9).take 5) := by
  intro ops code
  obtain ⟨length, -, pieces, -⟩ := build_assembles ops 0x180000000 code (by decide)
  exact ⟨length, pieces (ops.take 4) (.relativeJump 0x180001000) [] rfl⟩

end Patchy
