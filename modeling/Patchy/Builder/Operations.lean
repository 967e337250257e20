import Mathlib.Data.List.Induction
import Patchy.Core.Trampoline
import Patchy.Shared.Backpatch

set_option autoImplicit false

namespace Patchy

inductive BuilderOp where
  | bytes (bytes : List Byte)
  | newLabel
  | bind (label : Label)
  | absoluteCall (function : Nat)
  | absoluteJump (destination : Nat)
  | relativeJump (destination : Nat)
  | jumpTo (label : Label)
  | jumpIf (condition : Condition) (label : Label)
  | preservedCall (function : Nat) (argumentSetup resultHandling : List Byte) (allowReturn : ReturnType)
  deriving DecidableEq, Repr

namespace BuilderOp

def apply (self : Trampoline) : BuilderOp → Trampoline
  | .bytes contents => self.bytes contents
  | .newLabel => self.newLabel.2
  | .bind label => (self.bind label).2
  | .absoluteCall function => self.absoluteCall function
  | .absoluteJump destination => self.absoluteJump destination
  | .relativeJump destination => self.relativeJump destination
  | .jumpTo label => self.jumpTo label
  | .jumpIf condition label => self.jumpIf condition label
  | .preservedCall function argumentSetup resultHandling allowReturn =>
      self.preservedCall function argumentSetup resultHandling allowReturn

def literal : BuilderOp → List Byte
  | .bytes contents => contents
  | .newLabel | .bind _ => []
  | .absoluteCall function => [0xFF, 0x15, 0x02, 0x00, 0x00, 0x00, 0xEB, 0x08] ++ usizeBytes function
  | .absoluteJump destination => [0xFF, 0x25, 0x00, 0x00, 0x00, 0x00] ++ usizeBytes destination
  | .relativeJump _ | .jumpTo _ => [0xE9]
  | .jumpIf condition _ => [0x0F, condition.code]
  | .preservedCall function argumentSetup resultHandling allowReturn =>
      Arch.pushPreservedCall [] function argumentSetup resultHandling allowReturn

def target : BuilderOp → Option Target
  | .relativeJump destination => some (.address destination)
  | .jumpTo label | .jumpIf _ label => some (.label label)
  | _ => none

def size (op : BuilderOp) : Nat := op.literal.length + op.target.elim 0 fun _ => 4

def fixup (offset : Nat) (op : BuilderOp) : Option RelativeFixup :=
  op.target.map fun target => ⟨offset + op.literal.length, offset + op.literal.length + 4, target⟩

end BuilderOp

def totalSize (ops : List BuilderOp) : Nat := (ops.map BuilderOp.size).sum

def assembleFrom (self : Trampoline) (ops : List BuilderOp) : Trampoline := ops.foldl BuilderOp.apply self

def assemble (ops : List BuilderOp) : Trampoline := assembleFrom Trampoline.new ops

def chunks : (offset : Nat) → List BuilderOp → List (Backpatch.Chunk Byte RelativeFixup)
  | _, [] => []
  | offset, op :: rest => ⟨op.literal, op.fixup offset⟩ :: chunks (offset + op.size) rest

def blankField : List Byte := [0, 0, 0, 0]

def RelativeFixup.span (fixup : RelativeFixup) : Nat × Nat :=
  (fixup.displacementOffset, fixup.displacementOffset + 4)

@[simp] theorem totalSize_cons (op : BuilderOp) (rest : List BuilderOp) :
    totalSize (op :: rest) = op.size + totalSize rest := by
  simp [totalSize]

theorem assembleFrom_append (self : Trampoline) (first second : List BuilderOp) :
    assembleFrom self (first ++ second) = assembleFrom (assembleFrom self first) second :=
  List.foldl_append

theorem assemble_append (first second : List BuilderOp) :
    assemble (first ++ second) = assembleFrom (assemble first) second :=
  assembleFrom_append _ first second

theorem assemble_snoc (ops : List BuilderOp) (op : BuilderOp) :
    assemble (ops ++ [op]) = op.apply (assemble ops) := by
  rw [assemble_append]
  rfl

theorem chunks_append (offset : Nat) (first second : List BuilderOp) :
    chunks offset (first ++ second) = chunks offset first ++ chunks (offset + totalSize first) second := by
  induction first generalizing offset with
  | nil => simp [chunks, totalSize]
  | cons op rest ih => simp [chunks, ih, Nat.add_assoc]

@[simp] theorem chunk_size (offset : Nat) (op : BuilderOp) :
    Backpatch.Chunk.size blankField ⟨op.literal, op.fixup offset⟩ = op.size := by
  simp only [Backpatch.Chunk.size, Backpatch.Chunk.template, BuilderOp.fixup, BuilderOp.size]
  cases op.target <;> simp [blankField]

theorem chunks_length (offset : Nat) (ops : List BuilderOp) :
    ((chunks offset ops).flatMap (·.template blankField)).length = totalSize ops := by
  induction ops generalizing offset with
  | nil => rfl
  | cons op rest ih =>
    have size := chunk_size offset op
    rw [Backpatch.Chunk.size] at size
    rw [chunks, List.flatMap_cons, List.length_append, size, ih, totalSize_cons]

theorem chunks_spans (offset : Nat) (ops : List BuilderOp) :
    Backpatch.Spans blankField RelativeFixup.span offset (chunks offset ops) := by
  induction ops generalizing offset with
  | nil => trivial
  | cons op rest ih =>
    refine ⟨?_, ?_⟩
    · intro fixup member
      simp only [BuilderOp.fixup] at member
      cases found : op.target with
      | none => simp [found] at member
      | some target =>
        simp only [found, Option.map_some, Option.mem_def, Option.some.injEq] at member
        subst member
        rfl
    · rw [chunk_size]
      exact ih _

theorem apply_code (self : Trampoline) (op : BuilderOp) :
    (op.apply self).code = self.code ++ op.literal ++ op.target.elim [] fun _ => blankField := by
  cases op with
  | bind label =>
    simp only [BuilderOp.apply, Trampoline.bind, BuilderOp.literal, BuilderOp.target]
    split <;> simp
  | preservedCall => simp [BuilderOp.apply, Trampoline.preservedCall, Arch.pushPreservedCall,
      BuilderOp.literal, BuilderOp.target]
  | _ => simp [BuilderOp.apply, Trampoline.bytes, Trampoline.newLabel, Trampoline.absoluteCall,
      Trampoline.absoluteJump, Trampoline.relativeJump, Trampoline.jumpTo, Trampoline.jumpIf,
      Trampoline.pushRelativeFixup, BuilderOp.literal, BuilderOp.target, blankField]

theorem apply_fixups (self : Trampoline) (op : BuilderOp) :
    (op.apply self).relativeFixups = self.relativeFixups ++ (op.fixup self.code.length).toList := by
  cases op with
  | bind label =>
    simp only [BuilderOp.apply, Trampoline.bind, BuilderOp.fixup, BuilderOp.target]
    split <;> simp
  | _ => simp [BuilderOp.apply, Trampoline.bytes, Trampoline.newLabel, Trampoline.absoluteCall,
      Trampoline.absoluteJump, Trampoline.relativeJump, Trampoline.jumpTo, Trampoline.jumpIf,
      Trampoline.preservedCall, Trampoline.pushRelativeFixup, BuilderOp.fixup, BuilderOp.target,
      BuilderOp.literal]

theorem assemble_code (ops : List BuilderOp) :
    (assemble ops).code = (chunks 0 ops).flatMap (·.template blankField) := by
  induction ops using List.reverseRecOn with
  | nil => rfl
  | append_singleton ops op ih =>
    rw [assemble_snoc, apply_code, ih, chunks_append, List.flatMap_append, List.append_assoc]
    congr 1
    unfold chunks chunks Backpatch.Chunk.template BuilderOp.fixup
    cases op.target <;> simp

theorem assemble_length (ops : List BuilderOp) : (assemble ops).code.length = totalSize ops := by
  rw [assemble_code, chunks_length]

theorem assemble_fixups (ops : List BuilderOp) :
    (assemble ops).relativeFixups = Backpatch.holes (chunks 0 ops) := by
  induction ops using List.reverseRecOn with
  | nil => rfl
  | append_singleton ops op ih =>
    rw [assemble_snoc, apply_fixups, ih, chunks_append, assemble_length, Nat.zero_add]
    simp only [Backpatch.holes]
    rw [List.filterMap_append]
    cases found : op.fixup (totalSize ops) <;> simp [chunks, found]

theorem apply_labels_length (self : Trampoline) (op : BuilderOp) :
    (op.apply self).labels.length = self.labels.length + if op = .newLabel then 1 else 0 := by
  cases op with
  | bind label =>
    simp only [BuilderOp.apply, Trampoline.bind]
    split <;> simp
  | _ => simp [BuilderOp.apply, Trampoline.bytes, Trampoline.newLabel, Trampoline.absoluteCall,
      Trampoline.absoluteJump, Trampoline.relativeJump, Trampoline.jumpTo, Trampoline.jumpIf,
      Trampoline.preservedCall, Trampoline.pushRelativeFixup]

theorem assemble_labels_length (ops : List BuilderOp) :
    (assemble ops).labels.length = ops.count .newLabel := by
  induction ops using List.reverseRecOn with
  | nil => rfl
  | append_singleton ops op ih =>
    rw [assemble_snoc, apply_labels_length, ih, List.count_append, List.count_singleton]
    simp

def BoundAt (ops : List BuilderOp) (label : Label) (position : Nat) : Prop :=
  ∃ before after, ops = before ++ .bind label :: after ∧
    ((assemble before).bind label).1 = .ok () ∧ position = totalSize before

theorem bind_labels (self : Trampoline) (label : Label) (index : Nat) :
    (self.bind label).2.labels[index]? =
      if index = label.index ∧ self.labels[index]? = some none then some (some self.code.length)
      else self.labels[index]? := by
  simp only [Trampoline.bind]
  by_cases same : index = label.index
  · subst index
    cases found : self.labels[label.index]? with
    | none => simp [found]
    | some position =>
      cases position with
      | none =>
        have within := (List.getElem?_eq_some_iff.mp found).1
        simp [within]
      | some position => simp [found]
  · split <;> simp [same, List.getElem?_set_ne (Ne.symm same)]

theorem bind_ok_iff (self : Trampoline) (label : Label) :
    (self.bind label).1 = .ok () ↔ self.labels[label.index]? = some none := by
  simp only [Trampoline.bind]
  split <;> simp_all

theorem apply_bound (self : Trampoline) (op : BuilderOp) (label : Label) (position : Nat) :
    (op.apply self).labels[label.index]? = some (some position) ↔
      self.labels[label.index]? = some (some position) ∨
        op = .bind label ∧ (self.bind label).1 = .ok () ∧ position = self.code.length := by
  cases op with
  | bind other =>
    simp only [BuilderOp.apply, bind_labels, BuilderOp.bind.injEq, bind_ok_iff]
    by_cases same : label = other
    · subst other
      cases found : self.labels[label.index]? with
      | none => simp
      | some slot => cases slot <;> simp [eq_comm]
    · have different : label.index ≠ other.index := fun equal => same (by
        cases label
        cases other
        simpa using equal)
      simp [different, Ne.symm same]
  | newLabel =>
    simp only [BuilderOp.apply, Trampoline.newLabel, reduceCtorEq, false_and, or_false]
    rw [List.getElem?_append]
    split
    · rfl
    next beyond =>
      have missing : self.labels[label.index]? = none := List.getElem?_eq_none (by omega)
      simp [missing, List.getElem?_singleton]
  | _ => simp [BuilderOp.apply, Trampoline.bytes, Trampoline.absoluteCall,
      Trampoline.absoluteJump, Trampoline.relativeJump, Trampoline.jumpTo, Trampoline.jumpIf,
      Trampoline.preservedCall, Trampoline.pushRelativeFixup]

theorem boundAt_iff (ops : List BuilderOp) (label : Label) (position : Nat) :
    BoundAt ops label position ↔ (assemble ops).labels[label.index]? = some (some position) := by
  induction ops using List.reverseRecOn with
  | nil => simp [BoundAt, assemble, assembleFrom, Trampoline.new]
  | append_singleton ops op ih =>
    rw [assemble_snoc, apply_bound, ← ih, assemble_length]
    constructor
    · rintro ⟨before, after, same, bound, place⟩
      rcases List.eq_nil_or_concat after with rfl | ⟨middle, last, rfl⟩
      · obtain ⟨rfl, single⟩ := List.append_inj' same rfl
        exact Or.inr ⟨List.singleton_inj.mp single, bound, place⟩
      · rw [List.concat_eq_append, ← List.cons_append, ← List.append_assoc] at same
        obtain ⟨rfl, -⟩ := List.append_inj' same rfl
        exact Or.inl ⟨before, middle, rfl, bound, place⟩
    · rintro (⟨before, after, rfl, bound, place⟩ | ⟨rfl, bound, place⟩)
      · exact ⟨before, after ++ [op], by simp, bound, place⟩
      · exact ⟨ops, [], rfl, bound, place⟩

end Patchy
