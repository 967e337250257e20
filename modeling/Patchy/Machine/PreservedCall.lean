import Patchy.Core.Trampoline
import Patchy.Machine.HookCall

set_option autoImplicit false

namespace Patchy

open X64

namespace PreservedCall

def saves : List Line := pushRax :: pushIntegers ++ [
  .mk (.sub .rsp 0x88) [0x48, 0x81, 0xEC, 0x88, 0x00, 0x00, 0x00],
  .mk (.movdquStore 0x20 .xmm0) [0xF3, 0x0F, 0x7F, 0x44, 0x24, 0x20],
  .mk (.movdquStore 0x30 .xmm1) [0xF3, 0x0F, 0x7F, 0x4C, 0x24, 0x30],
  .mk (.movdquStore 0x40 .xmm2) [0xF3, 0x0F, 0x7F, 0x54, 0x24, 0x40],
  .mk (.movdquStore 0x50 .xmm3) [0xF3, 0x0F, 0x7F, 0x5C, 0x24, 0x50],
  .mk (.movdquStore 0x60 .xmm4) [0xF3, 0x0F, 0x7F, 0x64, 0x24, 0x60],
  .mk (.movdquStore 0x70 .xmm5) [0xF3, 0x0F, 0x7F, 0x6C, 0x24, 0x70]]

def loads (allowReturn : ReturnType) : List Line :=
  (if allowReturn ≠ .xmm0 then [.mk (.movdquLoad .xmm0 0x20) [0xF3, 0x0F, 0x6F, 0x44, 0x24, 0x20]] else []) ++
  [.mk (.movdquLoad .xmm1 0x30) [0xF3, 0x0F, 0x6F, 0x4C, 0x24, 0x30],
  .mk (.movdquLoad .xmm2 0x40) [0xF3, 0x0F, 0x6F, 0x54, 0x24, 0x40],
  .mk (.movdquLoad .xmm3 0x50) [0xF3, 0x0F, 0x6F, 0x5C, 0x24, 0x50],
  .mk (.movdquLoad .xmm4 0x60) [0xF3, 0x0F, 0x6F, 0x64, 0x24, 0x60],
  .mk (.movdquLoad .xmm5 0x70) [0xF3, 0x0F, 0x6F, 0x6C, 0x24, 0x70],
  .mk (.lea .rsp 0x88) [0x48, 0x8D, 0xA4, 0x24, 0x88, 0x00, 0x00, 0x00]] ++
  popIntegers ++
  (if allowReturn = .rax then [.mk (.lea .rsp 8) [0x48, 0x8D, 0x64, 0x24, 0x08]] else [popRax])

theorem listing_saves : listing saves = Arch.preservedCallEntry := rfl

theorem listing_loads (allowReturn : ReturnType) :
    listing (loads allowReturn) = Arch.preservedCallExit allowReturn := by
  cases allowReturn <;> rfl

def vectorSlots : List Slot :=
  [⟨0x30, .xmm .xmm1⟩, ⟨0x40, .xmm .xmm2⟩, ⟨0x50, .xmm .xmm3⟩, ⟨0x60, .xmm .xmm4⟩, ⟨0x70, .xmm .xmm5⟩]

def integerSlots : List Slot :=
  [⟨0x88, .gpr .r11⟩, ⟨0x90, .gpr .r10⟩, ⟨0x98, .gpr .r9⟩, ⟨0xA0, .gpr .r8⟩, ⟨0xA8, .gpr .rdx⟩,
    ⟨0xB0, .gpr .rcx⟩]

def frame (allowReturn : ReturnType) : Frame where
  size := 0xC0
  saves := saves
  loads := loads allowReturn
  saved := ⟨0xB8, .gpr .rax⟩ :: integerSlots.reverse ++ ⟨0x20, .xmm .xmm0⟩ :: vectorSlots
  loaded := (if allowReturn ≠ .xmm0 then [⟨0x20, .xmm .xmm0⟩] else []) ++ vectorSlots ++ integerSlots ++
    (if allowReturn ≠ .rax then [⟨0xB8, .gpr .rax⟩] else [])
  keepsFlags := true
  small := by decide
  saving := by decide
  loading := by cases allowReturn <;> decide
  subset := by cases allowReturn <;> decide
  volatile := by cases allowReturn <;> decide

theorem gives_back (allowReturn : ReturnType) : GivesBack allowReturn (frame allowReturn) where
  covers := by cases allowReturn <;> decide
  spares := by cases allowReturn <;> decide
  inside := by cases allowReturn <;> decide

theorem above_home (allowReturn : ReturnType) : ∀ slot ∈ (frame allowReturn).loaded, 0x20 ≤ slot.offset := by
  cases allowReturn <;> decide

theorem appended_eq {trampoline : Trampoline} {function : Nat} {argumentSetup resultHandling code : List Byte}
    {allowReturn : ReturnType}
    (appended : (trampoline.preservedCall function argumentSetup resultHandling allowReturn).code =
      trampoline.code ++ code) :
    code = listing saves ++ argumentSetup ++ (Arch.callBytes ++ usizeBytes function) ++ resultHandling ++
      listing (loads allowReturn) := by
  rw [listing_saves, listing_loads]
  refine List.append_cancel_left (show trampoline.code ++ _ = trampoline.code ++ _ from ?_)
  rw [← appended]
  simp [Trampoline.preservedCall, Arch.pushPreservedCall]

/-- Around a preserved call the registers are as its setup, its callback and its result handling expect
    them, whatever these do within the convention, and in the end as they were before. -/
theorem preservedCall_transparent (trampoline : Trampoline) (function : Nat)
    (argumentSetup resultHandling code : List Byte) (allowReturn : ReturnType) (entry : Cpu)
    (appended : (trampoline.preservedCall function argumentSetup resultHandling allowReturn).code =
      trampoline.code ++ code)
    (placed : (frame allowReturn).Placed code entry) :
    ∃ setup, entry.Until (Cpu.At (entry.rip + BitVec.ofNat 64 Arch.preservedCallEntry.length)) setup ∧
      (∀ register, register ≠ .gpr .rsp → setup.get register = entry.get register) ∧
      ∀ ready, setup.FallsThrough ((frame allowReturn).Reserved code entry) argumentSetup.length ready →
        (ready.gpr .rsp).toNat % 16 = 0 ∧
        ∃ called, ready.step = some called ∧ called.rip = BitVec.ofNat 64 function ∧
          (∀ register, register ≠ .gpr .rsp → called.get register = ready.get register) ∧
          ∀ returned, called.Returns ((frame allowReturn).Reserved code entry) returned →
            ∃ handling, returned.Until (Cpu.At (ready.rip + 16)) handling ∧
              (∀ register, handling.get register = returned.get register) ∧
              ∀ handled,
                handling.FallsThrough ((frame allowReturn).Reserved code entry) resultHandling.length handled →
                ∃ final, handled.Until (Cpu.At (entry.rip + BitVec.ofNat 64 code.length)) final ∧
                  Resumes allowReturn entry handled final ∧ final.flags = handled.flags ∧
                  final.memory = handled.memory := by
  obtain rfl := appended_eq appended
  have total := placed.short
  simp only [List.length_append] at total
  obtain ⟨setup, path, saving, arrived⟩ := @Frame.enter (frame allowReturn) entry _
    (Cpu.At (entry.rip + BitVec.ofNat 64 (listing saves).length)) placed
    ⟨_, by simp only [List.append_assoc]; rfl⟩ fun cpu offset within place _ => Cpu.not_at place within (by omega)
  refine ⟨setup, ⟨path, arrived⟩, saving.kept, fun ready falls => ?_⟩
  have top : ready.gpr .rsp = (frame allowReturn).base entry := by
    rw [falls.rsp, saving.top]
    exact BitVec.add_zero _
  -- Nothing in between may write into the frame above the home area, where all registers are saved.
  have stored := Frame.stored_of_keeps falls.toKeeps (placed.saved saving)
  have atCall : ready.rip = entry.rip + BitVec.ofNat 64 (listing saves ++ argumentSetup).length := by
    rw [falls.rip, arrived, add_length_append]
    rfl
  obtain ⟨-, called, calls⟩ := callBytes_calls (atCall ▸ stored.left.left.right)
  have aligned := placed.base_aligned (show 0xC0 % 16 = 0 from rfl)
  refine ⟨top ▸ aligned, called, calls.step, calls.rip, calls.kept, fun returned returns => ?_⟩
  have keeps := (calls.keeps top placed).trans returns.toKeeps
  have after := Frame.stored_of_keeps keeps stored
  obtain ⟨back, above, stepped⟩ := calls.resumes returns (atCall ▸ after.left.left.right)
  have early : ¬ returned.At (ready.rip + 16) :=
    Cpu.not_at (show returned.rip = ready.rip + BitVec.ofNat 64 6 from back) (show 6 < 16 by decide) (by decide)
  refine ⟨{ returned with rip := ready.rip + 16 }, ⟨.step early stepped (.refl _), rfl⟩,
    Cpu.get_jumped returned _, fun handled handles => ?_⟩
  have whole := (keeps.trans (Cpu.keeps_jump _ _ _)).trans handles.toKeeps
  have position : handled.rip = entry.rip + BitVec.ofNat 64
      (listing saves ++ argumentSetup ++ (Arch.callBytes ++ usizeBytes function) ++ resultHandling).length := by
    have jumped : handled.rip = ready.rip + 16 + BitVec.ofNat 64 resultHandling.length := handles.rip
    rw [jumped, atCall, add_length_append _ _ resultHandling,
      add_length_append _ _ (Arch.callBytes ++ usizeBytes function), callBytes_length]
    rfl
  obtain ⟨final, run, loading⟩ := @Frame.leave (frame allowReturn) entry handled _
    (handles.rsp.trans (above.trans top)) (Frame.stored_of_keeps whole stored) position placed.short
  refine ⟨final, run, ?_, loading.flags rfl, loading.memory⟩
  have since := falls.toKeeps.trans whole
  rw [(gives_back allowReturn).resumes_iff saving loading (fun _ => rfl) since.nonvolatile]
  intro slot member offset low high
  have within := Nat.lt_of_lt_of_le high ((gives_back allowReturn).inside slot member)
  exact since.memory _ (Or.inl ⟨offset, Nat.le_trans (above_home allowReturn slot member) low, within, rfl⟩)

-- `MOV RCX, RDI` ahead of a callback that returns at once, and `TEST AL, AL` behind it.
theorem preservedCall_transparent_predicate :
    let code := Arch.pushPreservedCall [] 0x7000 [0x48, 0x89, 0xF9] [0x84, 0xC0] .none
    ∃ called handled final : Cpu, called.rip = 0x7000 ∧ called.gpr .rcx = 0 ∧
      handled.Until (Cpu.At (0x1000 + BitVec.ofNat 64 code.length)) final ∧
      Resumes .none (loaded code) handled final ∧ final.flags.zero = true := by
  intro code
  have placed : (frame .none).Placed code (loaded code) := by
    refine loaded_placed _ _ (by decide) ?_
    simp [code, Arch.pushPreservedCall, Arch.preservedCallEntry, Arch.callBytes, Arch.preservedCallExit]
  obtain ⟨setup, -, entered, following⟩ :=
    preservedCall_transparent Trampoline.new 0x7000 [0x48, 0x89, 0xF9] [0x84, 0xC0] code .none (loaded code) rfl placed
  let ready : Cpu := { setup with
    rip := setup.rip + 3
    gpr := Function.update setup.gpr .rcx (setup.gpr .rdi) }
  have moved : ready.gpr .rcx = setup.gpr .rdi := by simp [ready]
  have falls : setup.FallsThrough ((frame .none).Reserved code (loaded code)) 3 ready := by
    refine ⟨⟨?_, fun _ _ => rfl⟩, rfl, by simp [ready]⟩
    rintro (other | other) - preserved
    · exact Function.update_of_ne (by rintro rfl; exact preserved (by decide)) _ _
    · rfl
  obtain ⟨-, called, -, target, arguments, following⟩ := following ready falls
  obtain ⟨handling, -, -, following⟩ := following (leaves called) (leaves_returns _ called)
  let handled : Cpu := { handling with
    rip := handling.rip + 2
    flags := ⟨false, true, false, true, false, false⟩ }
  have handles : handling.FallsThrough ((frame .none).Reserved code (loaded code)) 2 handled :=
    ⟨⟨fun register _ _ => by cases register <;> rfl, fun _ _ => rfl⟩, rfl, rfl⟩
  obtain ⟨final, run, resumes, flags, -⟩ := following handled handles
  refine ⟨called, handled, final, target, ?_, run, resumes, by rw [flags]⟩
  have passed := arguments (.gpr .rcx) (by decide)
  have source := entered (.gpr .rdi) (by decide)
  simp only [Cpu.get_gpr] at passed source
  rw [passed, moved, source]
  rfl

end PreservedCall

end Patchy
