import Patchy.Machine.Predicate
import Patchy.System.History

set_option autoImplicit false

namespace Patchy

open X64

/-- A processor's memory holds what has been recorded: the ranges that were written, and the pages of the registry. -/
def System.Loaded (platform : Platform) (system : System) (memory : Contents) : Prop :=
  ∀ location ≤ usizeMax,
    (∃ record ∈ system.recorded, record.Covers location) ∨
        (∃ base, system.Owns base none ∧ Memory.Inside base platform.pageSize location) →
      memory (BitVec.ofNat 64 location) = system.process.memory location

theorem System.Loaded.congr {platform : Platform} {first second : System} {memory : Contents}
    (loaded : first.Loaded platform memory) (same : first.process = second.process) :
    second.Loaded platform memory := by
  simpa only [Loaded, recorded, Owns, same] using loaded

theorem codeAt_of_readAt {memory : Contents} {contents : ProcessMemory} {address : Nat} {code : List Byte}
    (stored : Memory.readAt contents address code.length = code)
    (same : ∀ location, Memory.Inside address code.length location →
      memory (BitVec.ofNat 64 location) = contents location) : CodeAt memory (BitVec.ofNat 64 address) code := by
  intro index within
  rw [← BitVec.ofNat_add, same _ ⟨Nat.le_add_right _ _, Nat.add_lt_add_left within _⟩]
  exact Memory.readAt_eq_iff.mp stored index within

structure Arrives (preparation : Preparation) (before : ProcessMemory) (address : Nat) (code : List Byte) (cpu : Cpu) :
    Prop where
  meant : preparation.CodeAt before address code
  placed : Program.Holds address code cpu.memory
  jumps : cpu.rip = BitVec.ofNat 64 preparation.source.address →
    cpu.advance = some { cpu with rip := BitVec.ofNat 64 address }

section

variable {platform : Platform} {memory : ProcessMemory} {history : History}

theorem installed_arrives (reachable : (History.machine platform memory).Reachable history) {entry : Entry}
    (member : entry ∈ history.installed) {address : Nat} (succeeded : entry.result = .ok ⟨some address⟩) {cpu : Cpu}
    (loaded : history.system.Loaded platform cpu.memory) :
    ∃ code, Arrives entry.preparation entry.memory address code cpu := by
  have followed := History.reachable_followed reachable
  obtain ⟨⟨jump, expected, jumps, committed⟩, code, page, meant, stored, owned, low, high⟩ :=
    followed.lasting entry member address succeeded
  refine ⟨code, meant, codeAt_of_readAt stored fun location inside => ?_, fun place => ?_⟩
  · have fits := System.reachable_recorded_inSpace (History.reachable_system reachable) owned
    have positive := platform.pageSize_pos
    simp only [Memory.Inside] at inside
    exact loaded location (by omega) (Or.inr ⟨page, owned, by simp only [Memory.Inside]; omega⟩)
  · have range := (followed.system.formed _ committed).range.bounded
    obtain ⟨-, displacement, smallest, largest, sum, bytes⟩ := buildNearJump_ok jumps
    have written := History.committed_bytes followed.system committed
    have source : CodeAt cpu.memory (BitVec.ofNat 64 entry.preparation.source.address) jump := by
      refine codeAt_of_readAt written fun location inside => ?_
      simp only [PendingPatch.installed, Memory.Inside] at range inside
      refine loaded location (by omega) (Or.inl ⟨⟨entry.preparation.source.address, jump.length⟩, ?_, inside⟩)
      rw [followed.system.recorded]
      exact List.mem_map_of_mem committed
    rw [bytes, ← place] at source
    have leads : BranchTo entry.preparation.source.address 0 [0xE9] address (nearJump :: i32Bytes displacement) := by
      refine ⟨displacement, smallest, largest, rfl, ?_⟩
      have length : (([0xE9] : List Byte).length : Int) = 1 := rfl
      omega
    exact @advance_jump cpu entry.preparation.source.address 0 _ _ place leads source.left

theorem Arrives.runs {ops : List BuilderOp} {address size place : Nat} {before : ProcessMemory} {code : List Byte}
    {cpu : Cpu} {processor : Processor} {goal : Cpu → Prop}
    (arrives : Arrives (.detourTrampoline address size (assemble ops)) before place code cpu)
    (here : cpu.rip = BitVec.ofNat 64 address)
    (comes : ∀ code, (assemble ops).build place = .ok code → Program.Holds place code cpu.memory →
      Surely (Program.Step processor ops place (Program.Holds place code)) (fun config => goal (config.cpu ops place))
        (.ready 0 cpu)) : Surely processor.step goal cpu := by
  have built : (assemble ops).build place = .ok code := arrives.meant
  refine Processor.surely_advance (arrives.jumps here) ?_
  exact (Program.lockstep processor built).surely (fun _ _ follows same => by rw [follows.1]; exact same)
    (comes code built arrives.placed) (Program.follows_ready arrives.placed)

end

def hooked (contents : ProcessMemory) : Cpu where
  rip := 0x140001000
  gpr register := if register = .rsp then 0x20000 else 0
  xmm _ := 0
  flags := ⟨false, false, false, false, false, false⟩
  memory location :=
    if 0x140000000 ≤ location.toNat ∧ location.toNat < 0x140002000 then contents location.toNat else 0

theorem hooked_loaded {system : System} {source : InstalledPatch} (recorded : system.recorded = [source])
    (start : source.address = 0x140001000) (short : source.size ≤ 0x1000)
    (pages : ∀ base, system.Owns base none → base = 0x140000000) :
    system.Loaded ⟨0x1000, 0x10000, by decide, by decide⟩ (hooked system.process.memory).memory := by
  intro location bounded known
  have place : (BitVec.ofNat 64 location).toNat = location := by
    rw [BitVec.toNat_ofNat, Nat.mod_eq_of_lt (by simp only [usizeMax] at bounded; omega)]
  have inside : 0x140000000 ≤ location ∧ location < 0x140002000 := by
    rcases known with ⟨record, member, covers⟩ | ⟨base, owned, covers⟩
    · rw [recorded, List.mem_singleton] at member
      simp only [member, InstalledPatch.Covers, Memory.Inside, start] at covers
      omega
    · rw [pages base owned] at covers
      simp only [Memory.Inside] at covers
      omega
  simp only [hooked, place, inside, and_self, if_true]

namespace Program

end Program

namespace HookCall

/-- What a hook has to do: keep to the convention, and leave its home area alone where registers are saved in it. -/
def Behaves (processor : Processor) (reserved : Word → Prop) (entry : Cpu) (function : Nat) (allowReturn : ReturnType)
    (holds : Cpu → Prop) : Prop :=
  ∀ caller called,
    Saving ((frame allowReturn).base entry) (frame allowReturn).size entry ⟨0, (frame allowReturn).saved⟩ caller →
    Calls (BitVec.ofNat 64 function) caller called → (caller.gpr .rsp).toNat % 16 = 0 →
    Surely processor.step (fun returned => called.Returns reserved returned ∧
      (∀ offset, HomeBytes allowReturn offset →
        returned.memory (cell (caller.gpr .rsp) offset) = called.memory (cell (caller.gpr .rsp) offset)) ∧
      holds returned) called

theorem Behaves.framed {processor : Processor} {reserved : Word → Prop} {entry : Cpu} {function : Nat}
    {allowReturn : ReturnType} {holds : Cpu → Prop}
    (behaves : Behaves processor reserved entry function allowReturn holds) :
    FramedCall.Behaves processor (frame allowReturn) reserved entry function [] []
      fun handled => ∃ returned place, holds returned ∧ handled = { returned with rip := place } := by
  intro setup saving _
  refine .done ⟨⟨⟨fun _ _ _ => rfl, fun _ _ => rfl⟩, by simp, rfl⟩, fun called calls aligned => ?_⟩
  have top : setup.gpr .rsp = (frame allowReturn).base entry := by
    rw [saving.top]
    exact BitVec.add_zero _
  refine (behaves setup called saving calls aligned).mono fun returned ⟨returns, spared, good⟩ =>
    ⟨returns, fun place _ => .done ⟨⟨⟨fun _ _ _ => rfl, fun _ _ => rfl⟩, by simp, rfl⟩, fun offset home => ?_,
      returned, place, good, rfl⟩⟩
  have ⟨_, slot, member, _, high⟩ := home
  have within := Nat.lt_of_lt_of_le high ((gives_back allowReturn).inside slot member)
  have same := spared offset ((homeBytes_iff allowReturn offset).mpr home)
  rw [top] at same
  exact same.trans (calls.keeps_frame top within)

theorem shape (function : Nat) (allowReturn : ReturnType) :
    Arch.buildCall function allowReturn =
      listing (frame allowReturn).saves ++ [] ++ (Arch.callBytes ++ usizeBytes function) ++ [] ++
        listing (frame allowReturn).loads := by
  rw [listing_buildCall, List.append_nil, List.append_nil]
  rfl

theorem frame_even (allowReturn : ReturnType) : (frame allowReturn).size % 16 = 0 := by cases allowReturn <;> rfl

/-- The overwritten instructions have run at the head of the trampoline, and the hook behind them behaves. -/
structure Replayed (processor : Processor) (start : Word) (overwritten code : List Byte) (function : Nat)
    (allowReturn : ReturnType) (holds : Cpu → Prop) (entry : Cpu) : Prop where
  rip : entry.rip = start + BitVec.ofNat 64 overwritten.length
  intact : CodeAt entry.memory start code
  aligned : (entry.gpr .rsp).toNat % 16 = 0
  apart (location : Word) : Within start code.length location →
    ¬ Within ((frame allowReturn).base entry - 8) ((frame allowReturn).size + 8) location
  behaves : Behaves processor (Shielded (frame allowReturn) start code entry) entry function allowReturn holds

-- LEA RCX, [RSP+8]
def leaRcx : List Byte := [0x48, 0x8D, 0x4C, 0x24, 0x08]

theorem leaRcx_built :
    PatchSession.callBuilder (leaRcx ++ Arch.buildCall 0x7000 .none ++ [nearJump, 0, 0, 0, 0])
      ((leaRcx ++ Arch.buildCall 0x7000 .none).length + 1) 0x140001005 0x140000000 =
      .ok (leaRcx ++ Arch.buildCall 0x7000 .none ++ nearJump :: i32Bytes 3967) := by
  decide +kernel

def clobbers (called : Cpu) : Cpu :=
  { leaves called with
    gpr := Function.update (Function.update (leaves called).gpr .rcx 0) .rdx 1
    xmm := Function.update called.xmm .xmm0 1 }

theorem clobbers_returns (reserved : Word → Prop) (called : Cpu) : called.Returns reserved (clobbers called) where
  nonvolatile register plain preserved := by
    cases register with
    | gpr register =>
      have other : register ≠ .rcx ∧ register ≠ .rdx ∧ register ≠ .rsp := by
        refine ⟨?_, ?_, ?_⟩ <;> rintro rfl <;> simp [volatileRegisters] at plain preserved
      simp [Cpu.get, clobbers, leaves, other]
    | xmm register =>
      have other : register ≠ .xmm0 := by
        rintro rfl
        simp [volatileRegisters] at preserved
      simp [Cpu.get, clobbers, other]
  memory _ _ := rfl
  rip := rfl
  rsp := by simp [clobbers, leaves]

def clobbering : Processor where
  step cpu next := next = cpu.advance.getD (clobbers cpu)
  agrees advanced other := by rw [advanced, Option.getD_some]

end HookCall

end Patchy
