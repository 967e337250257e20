import Patchy.Machine.Call
import Patchy.Shared.X64Branch

set_option autoImplicit false

namespace Patchy

open X64

theorem keeps_mono {reserved wider : Word → Prop} (covers : ∀ location, reserved location → wider location)
    {before after : Cpu} (keeps : Cpu.Keeps wider before after) : Cpu.Keeps reserved before after :=
  ⟨keeps.nonvolatile, fun location inside => keeps.memory location (covers location inside)⟩

theorem returns_mono {reserved wider : Word → Prop} (covers : ∀ location, reserved location → wider location)
    {before after : Cpu} (returns : before.Returns wider after) : before.Returns reserved after :=
  ⟨keeps_mono covers returns.toKeeps, returns.rip, returns.rsp⟩

theorem within_frame {frame : Frame} {entry : Cpu} {location : Word}
    (inside : Within (frame.base entry) frame.size location) :
    Within (frame.base entry - 8) (frame.size + 8) location := by
  have shifted : cell (frame.base entry - 8) 8 = frame.base entry := BitVec.sub_add_cancel _ _
  rw [← shifted] at inside
  exact within_of_cell (Nat.le_of_eq (Nat.add_comm _ _)) inside

theorem within_pushed {frame : Frame} {entry : Cpu} {location : Word}
    (inside : Within (frame.base entry - 8) 8 location) : Within (frame.base entry - 8) (frame.size + 8) location := by
  obtain ⟨offset, within, place⟩ := inside
  exact ⟨offset, by omega, place⟩

theorem Resumes.jumped {allowReturn : ReturnType} {entry produced final : Cpu}
    (resumes : Resumes allowReturn entry produced final) (address : Word) :
    Resumes allowReturn entry produced { final with rip := address } :=
  ⟨fun register other => (Cpu.get_jumped final _ register).trans (resumes.restored register other),
    fun register same => (Cpu.get_jumped final _ register).trans (resumes.selected register same)⟩

def Shielded (frame : Frame) (start : Word) (code : List Byte) (entry : Cpu) (location : Word) : Prop :=
  (∃ offset, 0x20 ≤ offset ∧ offset < frame.size ∧ location = cell (frame.base entry) offset) ∨
    Within start code.length location

namespace FramedCall

def Home (frame : Frame) (offset : Nat) : Prop :=
  offset < 0x20 ∧ ∃ slot ∈ frame.loaded, slot.offset ≤ offset ∧ offset < slot.stop

/-- What the code inside of a frame has to do: argument setup, callee and result handling keep to the convention, one
    after the other, and leave saved registers alone, and `holds` of the state they end in. -/
def Behaves (processor : Processor) (frame : Frame) (reserved : Word → Prop) (entry : Cpu) (function : Nat)
    (argumentSetup resultHandling : List Byte) (holds : Cpu → Prop) : Prop :=
  ∀ setup, Saving (frame.base entry) frame.size entry ⟨0, frame.saved⟩ setup →
    CodeAt setup.memory setup.rip argumentSetup →
    Surely processor.step (fun ready => setup.FallsThrough reserved argumentSetup.length ready ∧
      ∀ called, Calls (BitVec.ofNat 64 function) ready called → (ready.gpr .rsp).toNat % 16 = 0 →
        Surely processor.step (fun returned => called.Returns reserved returned ∧
          ∀ place, CodeAt returned.memory place resultHandling →
            Surely processor.step (fun handled =>
              { returned with rip := place }.FallsThrough reserved resultHandling.length handled ∧
                (∀ offset, Home frame offset →
                  handled.memory (cell (frame.base entry) offset) = setup.memory (cell (frame.base entry) offset)) ∧
                holds handled)
              { returned with rip := place }) called) setup

variable {processor : Processor} {frame : Frame} {reserved : Word → Prop} {entry : Cpu} {function : Nat}
  {argumentSetup resultHandling code : List Byte} {allowReturn : ReturnType} {holds goal : Cpu → Prop}

theorem surely (placed : frame.Placed code entry) (back : GivesBack allowReturn frame) (even : frame.size % 16 = 0)
    (shape : code = listing frame.saves ++ argumentSetup ++ (Arch.callBytes ++ usizeBytes function) ++ resultHandling ++
      listing frame.loads)
    (covers : ∀ location, frame.Reserved code entry location → reserved location)
    (behaves : Behaves processor frame reserved entry function argumentSetup resultHandling holds)
    (rest : ∀ handled final, holds handled → final.rip = entry.rip + BitVec.ofNat 64 code.length →
      Resumes allowReturn entry handled final → (frame.keepsFlags = true → final.flags = handled.flags) →
      final.memory = handled.memory →
      (∀ location, reserved location → ¬ Within (frame.base entry - 8) (frame.size + 8) location →
        final.memory location = entry.memory location) →
      Surely processor.step goal final) : Surely processor.step goal entry := by
  subst shape
  have total := placed.short
  simp only [List.length_append] at total
  obtain ⟨setup, path, saving, arrived⟩ := @Frame.enter frame entry _
    (Cpu.At (entry.rip + BitVec.ofNat 64 (listing frame.saves).length)) placed
    ⟨_, by simp only [List.append_assoc]; rfl⟩ fun cpu offset within place _ => Cpu.not_at place within (by omega)
  have saved := placed.saved saving
  -- Registers are saved and the argument setup runs.
  refine Processor.surely_path path ((behaves setup saving (arrived ▸ saved.left.left.left.right)).bind ?_)
  rintro ready ⟨falls, callee⟩
  have top : ready.gpr .rsp = frame.base entry := by
    rw [falls.rsp, saving.top]
    exact BitVec.add_zero _
  have stored := Frame.stored_of_keeps (keeps_mono covers falls.toKeeps) saved
  have atCall : ready.rip = entry.rip + BitVec.ofNat 64 (listing frame.saves ++ argumentSetup).length := by
    rw [falls.rip, arrived, add_length_append]
  -- The callee runs and comes back to the jump over its own address.
  obtain ⟨-, called, calls⟩ := callBytes_calls (atCall ▸ stored.left.left.right)
  have aligned := placed.base_aligned even
  refine Processor.surely_step calls.step ((callee called calls (top ▸ aligned)).bind ?_)
  rintro returned ⟨returns, result⟩
  have keeps := (calls.keeps top placed).trans (keeps_mono covers returns.toKeeps)
  have after := Frame.stored_of_keeps keeps stored
  obtain ⟨returnAddress, above, stepped⟩ := calls.resumes (returns_mono covers returns) (atCall ▸ after.left.left.right)
  have behind : ready.rip + 16 = entry.rip + BitVec.ofNat 64
      (listing frame.saves ++ argumentSetup ++ (Arch.callBytes ++ usizeBytes function)).length := by
    rw [atCall, add_length_append _ _ (Arch.callBytes ++ usizeBytes function), callBytes_length]
    rfl
  -- The result handling runs, and registers are loaded again.
  refine Processor.surely_step stepped ((result _ (behind ▸ after.left.right)).bind ?_)
  rintro handled ⟨handles, spared, good⟩
  have whole := (keeps.trans (Cpu.keeps_jump _ _ _)).trans (keeps_mono covers handles.toKeeps)
  have position : handled.rip = entry.rip + BitVec.ofNat 64
      (listing frame.saves ++ argumentSetup ++ (Arch.callBytes ++ usizeBytes function) ++ resultHandling).length := by
    have jumped : handled.rip = ready.rip + 16 + BitVec.ofNat 64 resultHandling.length := handles.rip
    rw [jumped, behind, add_length_append _ _ resultHandling]
  obtain ⟨final, ⟨run, finished⟩, loading⟩ := @Frame.leave frame entry handled _
    (handles.rsp.trans (above.trans top)) (Frame.stored_of_keeps whole stored) position placed.short
  refine Processor.surely_path run (rest handled final good finished ?_ loading.flags loading.memory ?_)
  · have since := (keeps_mono covers falls.toKeeps).trans whole
    rw [back.resumes_iff saving loading (fun _ => rfl) since.nonvolatile]
    intro slot member offset low high
    -- Below 0x20 lies the callee's home area, which it has to leave alone as far as registers are saved there.
    by_cases home : offset < 0x20
    · exact spared offset ⟨home, slot, member, low, high⟩
    · have within := Nat.lt_of_lt_of_le high (back.inside slot member)
      exact since.memory _ (Or.inl ⟨offset, Nat.le_of_not_lt home, within, rfl⟩)
  · intro location inside apart
    calc final.memory location
      _ = handled.memory location := congrFun loading.memory location
      _ = returned.memory location := handles.memory location inside
      _ = called.memory location := returns.memory location inside
      _ = ready.memory location := calls.outside location fun pushed => apart (within_pushed (top ▸ pushed))
      _ = setup.memory location := falls.memory location inside
      _ = entry.memory location := saving.outside location fun covered => apart (within_frame covered)

end FramedCall

end Patchy
