import Patchy.Machine.Assembler
import Patchy.Machine.FramedCall
import Patchy.Machine.PreservedCall

set_option autoImplicit false

namespace Patchy

open X64

namespace PreservedCall

/-- What the code a preserved call is given has to do: argument setup, callback and result handling keep to the
    convention, one after the other, and `holds` of the state they leave behind. -/
def Behaves (processor : Processor) (reserved : Word → Prop) (entry : Cpu) (function : Nat)
    (argumentSetup resultHandling : List Byte) (allowReturn : ReturnType) (holds : Cpu → Prop) : Prop :=
  ∀ setup, Saving ((frame allowReturn).base entry) (frame allowReturn).size entry ⟨0, (frame allowReturn).saved⟩ setup →
    CodeAt setup.memory setup.rip argumentSetup →
    Surely processor.step (fun ready => setup.FallsThrough reserved argumentSetup.length ready ∧
      ∀ called, Calls (BitVec.ofNat 64 function) ready called → (ready.gpr .rsp).toNat % 16 = 0 →
        Surely processor.step (fun returned => called.Returns reserved returned ∧
          ∀ place, CodeAt returned.memory place resultHandling →
            Surely processor.step (fun handled =>
              { returned with rip := place }.FallsThrough reserved resultHandling.length handled ∧ holds handled)
              { returned with rip := place }) called) setup

theorem Behaves.framed {processor : Processor} {reserved : Word → Prop} {entry : Cpu} {function : Nat}
    {argumentSetup resultHandling : List Byte} {allowReturn : ReturnType} {holds : Cpu → Prop}
    (behaves : Behaves processor reserved entry function argumentSetup resultHandling allowReturn holds) :
    FramedCall.Behaves processor (frame allowReturn) reserved entry function argumentSetup resultHandling holds := by
  have homeless (offset : Nat) : ¬ FramedCall.Home (frame allowReturn) offset := by
    rintro ⟨home, slot, member, low, -⟩
    have above := above_home allowReturn slot member
    omega
  intro setup saving placed
  refine (behaves setup saving placed).mono fun ready ⟨falls, callee⟩ => ⟨falls, fun called calls aligned => ?_⟩
  refine (callee called calls aligned).mono fun returned ⟨returns, result⟩ => ⟨returns, fun place stored => ?_⟩
  exact (result place stored).mono fun handled ⟨handles, good⟩ =>
    ⟨handles, fun offset home => absurd home (homeless offset), good⟩

theorem shape (function : Nat) (argumentSetup resultHandling : List Byte) (allowReturn : ReturnType) :
    Arch.pushPreservedCall [] function argumentSetup resultHandling allowReturn =
      listing (frame allowReturn).saves ++ argumentSetup ++ (Arch.callBytes ++ usizeBytes function) ++ resultHandling ++
        listing (frame allowReturn).loads := by
  change _ = listing saves ++ argumentSetup ++ (Arch.callBytes ++ usizeBytes function) ++ resultHandling ++
    listing (loads allowReturn)
  rw [listing_saves, listing_loads]
  simp [Arch.pushPreservedCall]

end PreservedCall

namespace Program

structure Resides (frame : Frame) (address : Nat) (code : List Byte) (entry : Cpu) : Prop where
  holds : Holds address code entry.memory
  aligned : (entry.gpr .rsp).toNat % 16 = 0
  apart (location : Word) : Within (BitVec.ofNat 64 address) code.length location →
    ¬ Within (frame.base entry - 8) (frame.size + 8) location

variable {ops : List BuilderOp} {address index : Nat} {code : List Byte} {op : BuilderOp}

theorem codeAt_raw {contents : List Byte} {memory : Contents} (built : (assemble ops).build address = .ok code)
    (found : ops[index]? = some op) (plain : raw op = some contents)
    (placed : Holds address code memory) : CodeAt memory (point ops address index) contents := by
  obtain ⟨piece, encodes, here⟩ := codeAt_point built found placed
  cases op with
  | bytes | preservedCall =>
    obtain rfl := Option.some.inj plain
    obtain rfl := encodes
    exact here
  | _ => contradiction

theorem built_length (built : (assemble ops).build address = .ok code) : code.length = totalSize ops := by
  rw [Trampoline.build, applyFixups_patchAll] at built
  exact (Backpatch.patchAll_length built).trans (assemble_length ops)

theorem within_code (built : (assemble ops).build address = .ok code) (found : ops[index]? = some op) {location : Word}
    (inside : Within (point ops address index) op.size location) :
    Within (BitVec.ofNat 64 address) code.length location := by
  have before : totalSize (ops.take index) + op.size ≤ totalSize ops := by
    conv_rhs => rw [← List.take_append_drop (index + 1) ops, totalSize_append, take_succ found, totalSize_append]
    simp [totalSize]
  obtain ⟨offset, within, rfl⟩ := inside
  refine ⟨totalSize (ops.take index) + offset, by rw [built_length built]; omega, ?_⟩
  rw [point, ← BitVec.ofNat_add, ← BitVec.ofNat_add, Nat.add_assoc]

theorem Resides.placed {frame : Frame} {entry : Cpu} {contents : List Byte}
    (resides : Resides frame address code entry) (built : (assemble ops).build address = .ok code)
    (found : ops[index]? = some op) (plain : raw op = some contents) (sized : contents.length = op.size)
    (place : entry.rip = point ops address index) : frame.Placed contents entry where
  stored := place ▸ codeAt_raw built found plain resides.holds
  aligned := resides.aligned
  apart location inside := resides.apart location (within_code built found (sized ▸ place ▸ inside))

/-- A preserved call, and a conditional jump on the flags its result handling has left: the jump is taken as these
    say, and either way the hooked code's registers are back. -/
theorem predicate_branches (processor : Processor) (ops : List BuilderOp) (address : Nat) (code : List Byte)
    (built : (assemble ops).build address = .ok code) (index function : Nat)
    (argumentSetup resultHandling : List Byte) (allowReturn : ReturnType) (condition : Condition) (label : Label)
    (target : Nat)
    (call : ops[index]? = some (.preservedCall function argumentSetup resultHandling allowReturn))
    (jump : ops[index + 1]? = some (.jumpIf condition label)) (binds : Binds ops label target)
    (entry : Cpu) (place : entry.rip = point ops address index)
    (resides : Resides (PreservedCall.frame allowReturn) address code entry) (holds : Cpu → Prop)
    (behaves : PreservedCall.Behaves processor
      (Shielded (PreservedCall.frame allowReturn) (BitVec.ofNat 64 address) code entry) entry
      function argumentSetup resultHandling allowReturn holds) :
    Surely processor.step (fun final => ∃ handled, holds handled ∧ Resumes allowReturn entry handled final ∧
      final.flags = handled.flags ∧ final.memory = handled.memory ∧
      final.rip = point ops address (if condition.holds handled.flags then target else index + 2)) entry := by
  have sized : (Arch.pushPreservedCall [] function argumentSetup resultHandling allowReturn).length =
      (BuilderOp.preservedCall function argumentSetup resultHandling allowReturn).size := rfl
  have placed := resides.placed built call rfl sized place
  refine FramedCall.surely placed (PreservedCall.gives_back allowReturn) (by simp [PreservedCall.frame])
    (PreservedCall.shape _ _ _ _) ?_
    behaves.framed fun handled final good arrived resumes kept memory unwritten => ?_
  · exact fun location => Or.imp_right fun inside => within_code built call (place ▸ inside)
  have flags : final.flags = handled.flags := kept rfl
  have intact : Holds address code final.memory := resides.holds.congr fun location inside =>
    unwritten location (Or.inr inside) (resides.apart location inside)
  have next : final.rip = point ops address (index + 1) := by
    rw [arrived, place, point_succ call, sized]
  obtain ⟨piece, ⟨position, bound, leads⟩, here⟩ := codeAt_point built jump intact
  obtain rfl := boundAt_unique bound binds.boundAt
  have branches := @advance_jumpIf final _ _ _ _ _ next leads (next ▸ here)
  cases answer : condition.holds final.flags with
  | true =>
    refine Processor.surely_advance (branches.1 answer) (.done ⟨handled, good, resumes.jumped _, flags, memory, ?_⟩)
    simp [← flags, answer, point]
  | false =>
    refine Processor.surely_advance (branches.2 answer) (.done ⟨handled, good, resumes.jumped _, flags, memory, ?_⟩)
    have after : point ops address (index + 2) = point ops address (index + 1) + 6 := point_succ jump
    simp [← flags, answer, after, next]

theorem loaded_beyond {code : List Byte} {location : Word} (beyond : 0x1000 + code.length ≤ location.toNat) :
    (loaded code).memory location = 0 := by
  have offset : (location - 0x1000).toNat = location.toNat - 0x1000 :=
    BitVec.toNat_sub_of_le (show 0x1000 ≤ location.toNat by omega)
  change code.getD (location - 0x1000).toNat 0 = 0
  rw [offset, List.getD_eq_getElem?_getD, List.getElem?_eq_none (by omega), Option.getD_none]

def returning : Processor where
  step cpu next := next = cpu.advance.getD (leaves cpu)
  agrees advanced other := by rw [advanced, Option.getD_some]

def deciding : List BuilderOp :=
  [.newLabel, .preservedCall 0x7000 [] [] .none, .jumpIf .equal ⟨0⟩, .bytes [0x90], .bind ⟨0⟩]

def decidingCode : List Byte := Arch.pushPreservedCall [] 0x7000 [] [] .none ++ [0x0F, 0x84, 1, 0, 0, 0, 0x90]

theorem deciding_built : (assemble deciding).build 0x1000 = .ok decidingCode := by decide +kernel

theorem deciding_short : decidingCode.length ≤ 0x1000 := by decide +kernel

theorem blank_called {frame : Frame} {entry caller called : Cpu}
    (saving : Saving (frame.base entry) frame.size entry ⟨0, frame.saved⟩ caller) (calls : Calls 0x7000 caller called)
    (blank : ∀ index < longestInstruction, entry.memory (BitVec.ofNat 64 (0x7000 + index)) = 0)
    (above : 0x8000 ≤ (frame.base entry - 8).toNat)
    (below : (frame.base entry - 8).toNat + (frame.size + 8) ≤ 2 ^ 64) : called.advance = none := by
  have top : caller.gpr .rsp = frame.base entry := by
    rw [saving.top]
    exact BitVec.add_zero _
  refine Cpu.advance_blank fun index within => ?_
  have place : called.rip + BitVec.ofNat 64 index = BitVec.ofNat 64 (0x7000 + index) := by
    rw [calls.rip, BitVec.ofNat_add]
    rfl
  have far : ¬ Within (frame.base entry - 8) (frame.size + 8) (BitVec.ofNat 64 (0x7000 + index)) := by
    refine not_within_below ?_ below
    simp only [longestInstruction] at within
    rw [BitVec.toNat_ofNat, Nat.mod_eq_of_lt (by omega)]
    omega
  rw [place, calls.outside _ fun pushed => far (within_pushed (top ▸ pushed)),
    saving.outside _ fun covered => far (within_frame covered)]
  exact blank index within

theorem surely_returns {reserved : Word → Prop} {called : Cpu} {goal : Cpu → Prop} (stuck : called.advance = none)
    (rest : ∀ returned, called.Returns reserved returned → returned.memory = called.memory → goal returned) :
    Surely returning.step goal called := by
  refine .step ⟨leaves called, by simp [returning, stuck]⟩ fun returned same => .done ?_
  obtain rfl : returned = leaves called := by simpa [returning, stuck] using same
  exact rest _ (leaves_returns _ called) rfl

theorem deciding_behaves : PreservedCall.Behaves returning
    (Shielded (PreservedCall.frame .none) (BitVec.ofNat 64 0x1000) decidingCode (loaded decidingCode))
    (loaded decidingCode) 0x7000 [] [] .none fun _ => True := by
  intro setup saving _
  refine .done ⟨⟨⟨fun _ _ _ => rfl, fun _ _ => rfl⟩, by simp, rfl⟩, fun called calls _ => ?_⟩
  have blank (index : Nat) (within : index < longestInstruction) :
      (loaded decidingCode).memory (BitVec.ofNat 64 (0x7000 + index)) = 0 := by
    have short := deciding_short
    simp only [longestInstruction] at within
    refine loaded_beyond ?_
    rw [BitVec.toNat_ofNat, Nat.mod_eq_of_lt (by omega)]
    omega
  have stuck := blank_called saving calls blank (by decide) (by decide)
  exact surely_returns stuck fun returned returns _ =>
    ⟨returns, fun place _ => .done ⟨⟨⟨fun _ _ _ => rfl, fun _ _ => rfl⟩, by simp, rfl⟩, trivial⟩⟩

theorem deciding_apart (location : Word) (inside : Within (BitVec.ofNat 64 0x1000) decidingCode.length location) :
    ¬ Within ((PreservedCall.frame .none).base (loaded decidingCode) - 8) ((PreservedCall.frame .none).size + 8)
      location := by
  have bottom : (PreservedCall.frame .none).base (loaded decidingCode) = 0x1FF40 := by decide
  have short := deciding_short
  obtain ⟨offset, within, rfl⟩ := inside
  have place : (BitVec.ofNat 64 0x1000 + BitVec.ofNat 64 offset).toNat = 0x1000 + offset := by
    rw [← BitVec.ofNat_add, BitVec.toNat_ofNat, Nat.mod_eq_of_lt (by omega)]
  rw [bottom]
  exact not_within_below (show _ < 0x1FF38 by omega) (by decide)

theorem predicate_branches_deciding :
    Surely returning.step (fun final => ∃ handled, True ∧ Resumes .none (loaded decidingCode) handled final ∧
      final.flags = handled.flags ∧ final.memory = handled.memory ∧
      final.rip = point deciding 0x1000 (if Condition.equal.holds handled.flags then 4 else 3)) (loaded decidingCode) :=
  predicate_branches returning deciding 0x1000 decidingCode deciding_built 1 0x7000 [] [] .none .equal ⟨0⟩ 4 rfl rfl
    ⟨rfl, by decide, by decide⟩ (loaded decidingCode) rfl
    ⟨loaded_holds decidingCode deciding_short, by decide, deciding_apart⟩ _ deciding_behaves

end Program

end Patchy
