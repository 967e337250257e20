import Patchy.Core.Arch
import Patchy.Shared.StackFrame

set_option autoImplicit false

namespace Patchy

open X64

theorem leBytes_getElem (width value index : Nat) (within : index < (leBytes width value).length) :
    (leBytes width value)[index] = BitVec.ofNat 8 (value / 256 ^ index) := by
  induction width generalizing value index with
  | zero => simp at within
  | succ width ih =>
    cases index with
    | zero => simp [leBytes]
    | succ index =>
      have inner : index < (leBytes width (value / 256)).length := by
        simp only [leBytes_length] at within ⊢
        omega
      rw [pow_succ', ← Nat.div_div_eq_div_mul, ← ih (value / 256) index inner]
      rfl

def pushRax : Line := .mk (.push .rax) [0x50]
def popRax : Line := .mk (.pop .rax) [0x58]

def pushIntegers : List Line := [
  .mk (.push .rcx) [0x51],
  .mk (.push .rdx) [0x52],
  .mk (.push .r8) [0x41, 0x50],
  .mk (.push .r9) [0x41, 0x51],
  .mk (.push .r10) [0x41, 0x52],
  .mk (.push .r11) [0x41, 0x53]]

def popIntegers : List Line := [
  .mk (.pop .r11) [0x41, 0x5B],
  .mk (.pop .r10) [0x41, 0x5A],
  .mk (.pop .r9) [0x41, 0x59],
  .mk (.pop .r8) [0x41, 0x58],
  .mk (.pop .rdx) [0x5A],
  .mk (.pop .rcx) [0x59]]

def ReturnType.register : ReturnType → Option Register
  | .none => Option.none
  | .rax => some (.gpr .rax)
  | .xmm0 => some (.xmm .xmm0)

/-- The hooked code goes on as if nothing had happened, but for the register the hook answers in. -/
structure Resumes (allowReturn : ReturnType) (entry produced final : Cpu) : Prop where
  restored (register : Register) : allowReturn.register ≠ some register → final.get register = entry.get register
  selected (register : Register) : allowReturn.register = some register → final.get register = produced.get register

structure GivesBack (allowReturn : ReturnType) (frame : Frame) : Prop where
  covers : ∀ register ∈ volatileRegisters,
    allowReturn.register = some register ∨ ∃ slot ∈ frame.loaded, slot.register = register
  spares : ∀ slot ∈ frame.loaded, allowReturn.register ≠ some slot.register
  inside : ∀ slot ∈ frame.loaded, slot.stop ≤ frame.size

theorem GivesBack.resumes_iff {allowReturn : ReturnType} {frame : Frame} {entry middle produced source final : Cpu}
    (back : GivesBack allowReturn frame)
    (saving : Saving (frame.base entry) frame.size entry ⟨0, frame.saved⟩ middle)
    (loading : Loading (frame.base entry) source ⟨frame.size, frame.loaded, frame.keepsFlags⟩ final)
    (same : ∀ register, source.get register = produced.get register)
    (nonvolatile : ∀ register, register ≠ .gpr .rsp → register ∉ volatileRegisters →
      source.get register = middle.get register) :
    Resumes allowReturn entry produced final ↔
      ∀ slot ∈ frame.loaded, ∀ offset, slot.offset ≤ offset → offset < slot.stop →
        source.memory (cell (frame.base entry) offset) = middle.memory (cell (frame.base entry) offset) := by
  constructor
  · intro resumes slot member
    exact (Frame.restored_iff saving loading member).mp (resumes.restored _ (back.spares slot member))
  · intro kept
    refine ⟨fun register unselected => ?_, fun register selected => ?_⟩
    · by_cases clobbered : register ∈ volatileRegisters
      · rcases back.covers register clobbered with selected | ⟨slot, member, rfl⟩
        · exact absurd selected unselected
        · exact (Frame.restored_iff saving loading member).mpr (kept slot member)
      · exact Frame.nonvolatile_kept saving loading nonvolatile clobbered
    · have plain : register ≠ .gpr .rsp := by
        rintro rfl
        cases allowReturn <;> contradiction
      have unloaded : ∀ slot ∈ frame.loaded, slot.register ≠ register := fun slot member loaded =>
        back.spares slot member (loaded ▸ selected)
      exact (loading.kept register plain unloaded).trans (same register)

theorem load_usizeBytes {memory : Contents} {address : Word} {value : Nat}
    (placed : CodeAt memory address (usizeBytes value)) : load memory address 8 = BitVec.ofNat 64 value := by
  apply BitVec.eq_of_getLsbD_eq
  intro index inside
  have within : index / 8 < (usizeBytes value).length := by
    rw [usizeBytes_length]
    omega
  have byte : memory (address + BitVec.ofNat 64 (index / 8)) = BitVec.ofNat 8 (value / 256 ^ (index / 8)) := by
    rw [placed _ within]
    exact leBytes_getElem 8 value _ within
  have bit : index % 8 < 8 := Nat.mod_lt _ (by decide)
  have position : 8 * (index / 8) + index % 8 = index := Nat.div_add_mod index 8
  rw [load_getLsbD, byte, show (256 : Nat) = 2 ^ 8 from rfl, ← pow_mul, BitVec.getLsbD_ofNat, BitVec.getLsbD_ofNat,
    Nat.testBit_div_two_pow, Nat.add_comm, position]
  simp [inside, bit]

structure Calls (function : Word) (caller called : Cpu) : Prop where
  step : caller.step = some called
  rip : called.rip = function
  top : called.gpr .rsp = caller.gpr .rsp - 8
  kept (register : Register) : register ≠ .gpr .rsp → called.get register = caller.get register
  returnAddress : load called.memory (called.gpr .rsp) 8 = caller.rip + 6
  outside (location : Word) : ¬ Within (caller.gpr .rsp - 8) 8 location →
    called.memory location = caller.memory location

theorem callBytes_length (function : Nat) : (Arch.callBytes ++ usizeBytes function).length = 16 := by
  simp [Arch.callBytes]

theorem callBytes_calls {caller : Cpu} {function : Nat}
    (placed : CodeAt caller.memory caller.rip (Arch.callBytes ++ usizeBytes function)) :
    caller.AtCall ∧ ∃ called, Calls (BitVec.ofNat 64 function) caller called := by
  have parts : CodeAt caller.memory caller.rip ([0xFF, 0x15, 0x02, 0x00, 0x00, 0x00] ++ [0xEB, 0x08]) := placed.left
  have instruction := parts.left
  have decodes : decode [0xFF, 0x15, 0x02, 0x00, 0x00, 0x00] = some (.call 2, []) := by decide
  have pointer := load_usizeBytes placed.right
  refine ⟨⟨2, 6, Cpu.fetch_of_codeAt instruction decodes (by decide)⟩, caller.execute 6 (.call 2),
    Cpu.step_of_codeAt instruction decodes (by decide), ?_, ?_, ?_, ?_, ?_⟩
  · rw [← pointer]
    simp only [Cpu.execute, BitVec.add_assoc]
    rfl
  · simp [Cpu.execute]
  · rintro (other | other) plain
    · exact Function.update_of_ne (by simpa using plain) _ _
    · rfl
  · have stored := @load_store_same caller.memory (caller.gpr .rsp - 8) 8 (caller.rip + 6) (by decide)
    simpa [Cpu.execute] using stored
  · exact fun location outside => store_outside _ _ outside

theorem Calls.resumes {function : Word} {caller called returned : Cpu} {reserved : Word → Prop} {pointer : List Byte}
    (calls : Calls function caller called) (returns : called.Returns reserved returned)
    (placed : CodeAt returned.memory caller.rip (Arch.callBytes ++ pointer)) :
    returned.rip = caller.rip + 6 ∧ returned.gpr .rsp = caller.gpr .rsp ∧
      returned.step = some { returned with rip := caller.rip + 16 } := by
  have back : returned.rip = caller.rip + 6 := returns.rip.trans calls.returnAddress
  have parts : CodeAt returned.memory caller.rip ([0xFF, 0x15, 0x02, 0x00, 0x00, 0x00] ++ [0xEB, 0x08]) := placed.left
  have jump : CodeAt returned.memory returned.rip [0xEB, 0x08] := by
    rw [back]
    exact parts.right
  have decodes : decode [0xEB, 0x08] = some (.jmp 8, []) := by decide
  refine ⟨back, ?_, ?_⟩
  · rw [returns.rsp, calls.top, BitVec.sub_add_cancel]
  · rw [Cpu.step_of_codeAt jump decodes (by decide)]
    simp only [Cpu.execute, back, BitVec.add_assoc]
    rfl

section

variable {frame : Frame} {entry caller called : Cpu} {code : List Byte} {function : Word}

theorem Calls.keeps_frame (calls : Calls function caller called) (top : caller.gpr .rsp = frame.base entry)
    {offset : Nat} (within : offset < frame.size) :
    called.memory (cell (frame.base entry) offset) = caller.memory (cell (frame.base entry) offset) := by
  have small := frame.small
  refine calls.outside _ fun below => ?_
  have shifted : cell (frame.base entry - 8) 8 = frame.base entry := BitVec.sub_add_cancel _ _
  have start : caller.gpr .rsp - 8 = cell (frame.base entry - 8) 0 := by simp [top, cell]
  rw [← shifted, start] at below
  refine @cell_apart (frame.base entry - 8) (8 + offset) 1 0 8 ?_ ?_ (by decide) _ ⟨0, by decide, ?_⟩ below
  · exact Or.inr (by omega)
  · omega
  · simp only [cell, add_ofNat_add, Nat.add_zero]

theorem Calls.keeps (calls : Calls function caller called) (top : caller.gpr .rsp = frame.base entry)
    (placed : frame.Placed code entry) : Cpu.Keeps (frame.Reserved code entry) caller called where
  nonvolatile register plain _ := calls.kept register plain
  memory location reserved := by
    rcases reserved with ⟨offset, -, within, rfl⟩ | inside
    · exact calls.keeps_frame top within
    · exact calls.outside location (top ▸ placed.return_apart location inside)

end

def loaded (code : List Byte) : Cpu where
  rip := 0x1000
  gpr register := if register = .rsp then 0x20000 else if register = .rcx then 1 else 0
  xmm _ := 0
  flags := ⟨false, false, false, false, false, false⟩
  memory location := code.getD (location - 0x1000).toNat 0

theorem loaded_placed (frame : Frame) (code : List Byte) (few : frame.size ≤ 0x1000) (short : code.length ≤ 0x1000) :
    frame.Placed code (loaded code) where
  stored index within := by
    have offset : (0x1000 + BitVec.ofNat 64 index - 0x1000 : Word).toNat = index := by
      rw [BitVec.add_comm, BitVec.add_sub_cancel, BitVec.toNat_ofNat, Nat.mod_eq_of_lt (by omega)]
    change code.getD (0x1000 + BitVec.ofNat 64 index - 0x1000 : Word).toNat 0 = _
    rw [offset]
    simp [within]
  aligned := by simp [loaded]
  apart location inside below := by
    obtain ⟨index, within, rfl⟩ := inside
    obtain ⟨offset, below, place⟩ := below
    have size : (BitVec.ofNat 64 frame.size).toNat = frame.size := by
      rw [BitVec.toNat_ofNat, Nat.mod_eq_of_lt (by omega)]
    have bottom : frame.base (loaded code) - 8 = cell 0x1000 (0x1F000 - frame.size - 8) := by
      have saved := @cell_sub 0x1000 0x1F000 (BitVec.ofNat 64 frame.size) (by omega)
      have pushed := @cell_sub 0x1000 (0x1F000 - frame.size) 8 (show 8 ≤ _ by omega)
      rw [size] at saved
      rw [← saved] at pushed
      exact pushed
    rw [bottom, cell, add_ofNat_add] at place
    have same := (@cell_inj 0x1000 _ _ (by omega) (by omega)).mp place
    omega

def leaves (called : Cpu) : Cpu :=
  { called with
    rip := load called.memory (called.gpr .rsp) 8
    gpr := Function.update called.gpr .rsp (called.gpr .rsp + 8) }

theorem leaves_returns (reserved : Word → Prop) (called : Cpu) : called.Returns reserved (leaves called) where
  nonvolatile register plain _ := by
    cases register with
    | gpr register => exact Function.update_of_ne (by simpa using plain) _ _
    | xmm register => rfl
  memory _ _ := rfl
  rip := rfl
  rsp := by simp [leaves]

end Patchy
