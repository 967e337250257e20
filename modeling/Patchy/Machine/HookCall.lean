import Patchy.Machine.Call

set_option autoImplicit false

namespace Patchy

open X64

namespace HookCall

def saveRegisters : List Line := pushIntegers ++ [
  .mk (.sub .rsp 0x60) [0x48, 0x83, 0xEC, 0x60],
  .mk (.movdquStore 0x10 .xmm1) [0xF3, 0x0F, 0x7F, 0x4C, 0x24, 0x10],
  .mk (.movdquStore 0x20 .xmm2) [0xF3, 0x0F, 0x7F, 0x54, 0x24, 0x20],
  .mk (.movdquStore 0x30 .xmm3) [0xF3, 0x0F, 0x7F, 0x5C, 0x24, 0x30],
  .mk (.movdquStore 0x40 .xmm4) [0xF3, 0x0F, 0x7F, 0x64, 0x24, 0x40],
  .mk (.movdquStore 0x50 .xmm5) [0xF3, 0x0F, 0x7F, 0x6C, 0x24, 0x50]]

def loadRegisters : List Line := [
  .mk (.movdquLoad .xmm1 0x10) [0xF3, 0x0F, 0x6F, 0x4C, 0x24, 0x10],
  .mk (.movdquLoad .xmm2 0x20) [0xF3, 0x0F, 0x6F, 0x54, 0x24, 0x20],
  .mk (.movdquLoad .xmm3 0x30) [0xF3, 0x0F, 0x6F, 0x5C, 0x24, 0x30],
  .mk (.movdquLoad .xmm4 0x40) [0xF3, 0x0F, 0x6F, 0x64, 0x24, 0x40],
  .mk (.movdquLoad .xmm5 0x50) [0xF3, 0x0F, 0x6F, 0x6C, 0x24, 0x50],
  .mk (.add .rsp 0x60) [0x48, 0x83, 0xC4, 0x60]] ++ popIntegers

def saves (allowReturn : ReturnType) : List Line :=
  (if allowReturn ≠ .rax then [pushRax] else []) ++
  saveRegisters ++
  (if allowReturn ≠ .rax then [.mk (.sub .rsp 8) [0x48, 0x83, 0xEC, 0x08]] else []) ++
  (if allowReturn ≠ .xmm0 then [.mk (.movdquStore 0 .xmm0) [0xF3, 0x0F, 0x7F, 0x04, 0x24]] else [])

def loads (allowReturn : ReturnType) : List Line :=
  (if allowReturn ≠ .xmm0 then [.mk (.movdquLoad .xmm0 0) [0xF3, 0x0F, 0x6F, 0x04, 0x24]] else []) ++
  (if allowReturn ≠ .rax then [.mk (.add .rsp 8) [0x48, 0x83, 0xC4, 0x08]] else []) ++
  loadRegisters ++
  (if allowReturn ≠ .rax then [popRax] else [])

theorem listing_buildCall (function : Nat) (allowReturn : ReturnType) :
    Arch.buildCall function allowReturn =
      listing (saves allowReturn) ++ (Arch.callBytes ++ usizeBytes function) ++ listing (loads allowReturn) := by
  cases allowReturn <;> simp [Arch.buildCall, saves, loads, saveRegisters, loadRegisters, pushRax,
    popRax, pushIntegers, popIntegers, listing, Arch.saveRax,
    Arch.saveRegisters, Arch.alignStack, Arch.saveXmm0, Arch.loadXmm0, Arch.unalignStack, Arch.loadRegisters,
    Arch.loadRax]

-- `RAX` and the alignment take 8 bytes each, and are left out together.
def alignment : ReturnType → Nat
  | .rax => 0
  | _ => 8

def vectorSlots (allowReturn : ReturnType) : List Slot :=
  [⟨alignment allowReturn + 0x10, .xmm .xmm1⟩, ⟨alignment allowReturn + 0x20, .xmm .xmm2⟩,
    ⟨alignment allowReturn + 0x30, .xmm .xmm3⟩, ⟨alignment allowReturn + 0x40, .xmm .xmm4⟩,
    ⟨alignment allowReturn + 0x50, .xmm .xmm5⟩]

def integerSlots (allowReturn : ReturnType) : List Slot :=
  [⟨alignment allowReturn + 0x60, .gpr .r11⟩, ⟨alignment allowReturn + 0x68, .gpr .r10⟩,
    ⟨alignment allowReturn + 0x70, .gpr .r9⟩, ⟨alignment allowReturn + 0x78, .gpr .r8⟩,
    ⟨alignment allowReturn + 0x80, .gpr .rdx⟩, ⟨alignment allowReturn + 0x88, .gpr .rcx⟩]

def raxSlot (allowReturn : ReturnType) : List Slot := if allowReturn ≠ .rax then [⟨0x98, .gpr .rax⟩] else []

def xmm0Slot (allowReturn : ReturnType) : List Slot := if allowReturn ≠ .xmm0 then [⟨0, .xmm .xmm0⟩] else []

def frame (allowReturn : ReturnType) : Frame where
  size := 0x90 + 2 * alignment allowReturn
  saves := saves allowReturn
  loads := loads allowReturn
  saved := raxSlot allowReturn ++ (integerSlots allowReturn).reverse ++ vectorSlots allowReturn ++
    xmm0Slot allowReturn
  loaded := xmm0Slot allowReturn ++ vectorSlots allowReturn ++ integerSlots allowReturn ++ raxSlot allowReturn
  keepsFlags := false
  small := by cases allowReturn <;> decide
  saving := by cases allowReturn <;> decide
  loading := by cases allowReturn <;> decide
  subset := by cases allowReturn <;> decide
  volatile := by cases allowReturn <;> decide

/-- The bytes of the hook's home area that registers are saved in. -/
def HomeBytes (allowReturn : ReturnType) (offset : Nat) : Prop :=
  match allowReturn with
  | .none => offset < 0x10 ∨ 0x18 ≤ offset ∧ offset < 0x20
  | .rax => offset < 0x20
  | .xmm0 => 0x18 ≤ offset ∧ offset < 0x20

theorem homeBytes_iff (allowReturn : ReturnType) (offset : Nat) :
    HomeBytes allowReturn offset ↔
      offset < 0x20 ∧ ∃ slot ∈ (frame allowReturn).loaded, slot.offset ≤ offset ∧ offset < slot.stop := by
  cases allowReturn <;>
    simp [HomeBytes, frame, xmm0Slot, vectorSlots, integerSlots, raxSlot, alignment, Slot.stop,
      Register.width] <;>
    omega

theorem gives_back (allowReturn : ReturnType) : GivesBack allowReturn (frame allowReturn) where
  covers := by cases allowReturn <;> decide
  spares := by cases allowReturn <;> decide
  inside := by cases allowReturn <;> decide

theorem runs {function : Nat} {allowReturn : ReturnType} {entry : Cpu}
    (placed : (frame allowReturn).Placed (Arch.buildCall function allowReturn) entry) :
    ∃ caller called, entry.Until Cpu.AtCall caller ∧ caller.gpr .rsp = (frame allowReturn).base entry ∧
      Saving ((frame allowReturn).base entry) (frame allowReturn).size entry ⟨0, (frame allowReturn).saved⟩ caller ∧
      Calls (BitVec.ofNat 64 function) caller called ∧
      ∀ returned, called.Returns ((frame allowReturn).Reserved (Arch.buildCall function allowReturn) entry) returned →
        ((∃ final,
            returned.Until (Cpu.At (entry.rip +
              BitVec.ofNat 64 (Arch.buildCall function allowReturn).length)) final ∧
            Resumes allowReturn entry returned final) ↔
          ∀ offset, HomeBytes allowReturn offset →
            returned.memory (caller.gpr .rsp + BitVec.ofNat 64 offset) =
              called.memory (caller.gpr .rsp + BitVec.ofNat 64 offset)) := by
  rw [listing_buildCall] at placed ⊢
  obtain ⟨caller, path, saving, arrived⟩ := @Frame.enter (frame allowReturn) entry _ Cpu.AtCall placed
    ⟨_, (List.append_assoc _ _ _).symm⟩ fun _ _ _ _ => id
  change caller.rip = entry.rip + BitVec.ofNat 64 (listing (saves allowReturn)).length at arrived
  have stored := placed.saved saving
  have top : caller.gpr .rsp = (frame allowReturn).base entry := by
    rw [saving.top]
    exact BitVec.add_zero _
  obtain ⟨atCall, called, calls⟩ := callBytes_calls (arrived ▸ stored.left.right)
  refine ⟨caller, called, ⟨path, atCall⟩, top, saving, calls, fun returned returns => ?_⟩
  have keeps := (calls.keeps top placed).trans returns.toKeeps
  have after := Frame.stored_of_keeps keeps stored
  obtain ⟨back, above, stepped⟩ := calls.resumes returns (arrived ▸ after.left.right)
  have early : ¬ returned.At _ := Cpu.not_at (show returned.rip = entry.rip +
      BitVec.ofNat 64 ((listing (saves allowReturn)).length + 6) by rw [back, arrived]; exact add_ofNat_add _ _ 6)
    (by rw [List.length_append, List.length_append, callBytes_length]; omega) placed.short
  have resumed : caller.rip + 16 = entry.rip +
      BitVec.ofNat 64 (listing (saves allowReturn) ++ (Arch.callBytes ++ usizeBytes function)).length := by
    rw [arrived, add_length_append, callBytes_length]
    rfl
  obtain ⟨final, ⟨rest, reached⟩, loading⟩ := @Frame.leave (frame allowReturn) entry
    { returned with rip := caller.rip + 16 } _ (above.trans top) after resumed placed.short
  rw [Cpu.Until.exists_iff ⟨.step early stepped rest, reached⟩,
    (gives_back allowReturn).resumes_iff saving loading (Cpu.get_jumped returned _)
      (keeps.trans (Cpu.keeps_jump _ _ _)).nonvolatile, top]
  -- What is loaded is what was saved, except where the hook may have written: in its home area.
  constructor
  · intro kept offset home
    obtain ⟨-, slot, member, low, high⟩ := (homeBytes_iff allowReturn offset).mp home
    have within := Nat.lt_of_lt_of_le high ((gives_back allowReturn).inside slot member)
    exact (kept slot member offset low high).trans (calls.keeps_frame top within).symm
  · intro home slot member offset low high
    have within := Nat.lt_of_lt_of_le high ((gives_back allowReturn).inside slot member)
    by_cases inHome : offset < 0x20
    · have same := home offset ((homeBytes_iff allowReturn offset).mpr ⟨inHome, slot, member, low, high⟩)
      exact same.trans (calls.keeps_frame top within)
    · exact keeps.memory _ (Or.inl ⟨offset, Nat.le_of_not_lt inHome, within, rfl⟩)

/-- The call reaches the hook, and afterwards the hooked code goes on undisturbed exactly if the hook has
    left alone the part of its home area that registers are saved in. -/
theorem buildCall_transparent_iff (function : Nat) (allowReturn : ReturnType) (entry : Cpu)
    (placed : (frame allowReturn).Placed (Arch.buildCall function allowReturn) entry) :
    ∃ caller called, entry.Until Cpu.AtCall caller ∧ (caller.gpr .rsp).toNat % 16 = 0 ∧
      caller.step = some called ∧ called.rip = BitVec.ofNat 64 function ∧
      ∀ returned, called.Returns ((frame allowReturn).Reserved (Arch.buildCall function allowReturn) entry) returned →
        ((∃ final,
            returned.Until (Cpu.At (entry.rip +
              BitVec.ofNat 64 (Arch.buildCall function allowReturn).length)) final ∧
            Resumes allowReturn entry returned final) ↔
          ∀ offset, HomeBytes allowReturn offset →
            returned.memory (caller.gpr .rsp + BitVec.ofNat 64 offset) =
              called.memory (caller.gpr .rsp + BitVec.ofNat 64 offset)) := by
  obtain ⟨caller, called, reached, top, -, calls, outcome⟩ := runs placed
  have aligned := placed.base_aligned (by cases allowReturn <;> rfl)
  exact ⟨caller, called, reached, top ▸ aligned, calls.step, calls.rip, outcome⟩

theorem buildCall_short (function : Nat) (allowReturn : ReturnType) :
    (Arch.buildCall function allowReturn).length ≤ 0x1000 := by
  cases allowReturn <;> simp [Arch.buildCall, Arch.saveRax, Arch.saveRegisters, Arch.alignStack, Arch.saveXmm0,
    Arch.callBytes, Arch.loadXmm0, Arch.unalignStack, Arch.loadRegisters, Arch.loadRax]

-- A hook that returns at once leaves its home area alone.
theorem buildCall_transparent_leaves :
    ∃ called, called.rip = 0x7000 ∧ ∃ final,
      (leaves called).Until (Cpu.At (0x1000 + BitVec.ofNat 64 (Arch.buildCall 0x7000 .none).length)) final ∧
        Resumes .none (loaded (Arch.buildCall 0x7000 .none)) (leaves called) final := by
  have placed := loaded_placed (frame .none) (Arch.buildCall 0x7000 .none) (by decide)
    (buildCall_short 0x7000 .none)
  obtain ⟨caller, called, -, -, -, target, outcome⟩ := buildCall_transparent_iff 0x7000 .none _ placed
  exact ⟨called, target, (outcome (leaves called) (leaves_returns _ called)).mpr fun _ _ => rfl⟩

-- A hook that spills `RCX` into its home area, as the convention lets it, overwrites the saved `XMM0`.
theorem home_spill_corrupts :
    let entry := loaded (Arch.buildCall 0x7000 .none)
    ∃ caller called, entry.Until Cpu.AtCall caller ∧ caller.step = some called ∧ called.rip = 0x7000 ∧
      let returned := { leaves called with
        memory := store called.memory (called.gpr .rsp + 8) 8 (called.gpr .rcx) }
      called.Returns ((frame .none).Reserved (Arch.buildCall 0x7000 .none) entry) returned ∧
        ¬ ∃ final,
          returned.Until (Cpu.At (entry.rip + BitVec.ofNat 64 (Arch.buildCall 0x7000 .none).length)) final ∧
            Resumes .none entry returned final := by
  intro entry
  have placed := loaded_placed (frame .none) (Arch.buildCall 0x7000 .none) (by decide)
    (buildCall_short 0x7000 .none)
  obtain ⟨caller, called, reached, top, saving, calls, outcome⟩ := runs placed
  refine ⟨caller, called, reached, calls.step, calls.rip, ?_⟩
  intro returned
  have back : called.gpr .rsp + 8 = (frame .none).base entry := by
    rw [calls.top, top]
    exact BitVec.sub_add_cancel _ _
  have spilled : returned.memory = store called.memory ((frame .none).base entry) 8 (called.gpr .rcx) := by
    rw [← back]
  have returns : called.Returns ((frame .none).Reserved (Arch.buildCall 0x7000 .none) entry) returned := by
    have returns := leaves_returns ((frame .none).Reserved (Arch.buildCall 0x7000 .none) entry) called
    refine ⟨⟨fun register plain preserved => ?_, fun location reserved => ?_⟩, returns.rip, returns.rsp⟩
    · rw [← returns.nonvolatile register plain preserved]
      cases register <;> rfl
    · rw [spilled]
      refine store_outside _ _ fun home => placed.home_free (by decide) ?_ reserved
      obtain ⟨index, within, place⟩ := home
      exact ⟨index, by omega, place⟩
  refine ⟨returns, fun transparent => ?_⟩
  have kept := (outcome returned returns).mp transparent 0 (Or.inl (by decide))
  have argument : called.gpr .rcx = 1 := by
    have passed := (calls.kept (.gpr .rcx) (by decide)).trans (saving.kept (.gpr .rcx) (by decide))
    simpa [loaded] using passed
  have vector : called.memory ((frame .none).base entry + BitVec.ofNat 64 0) = 0 := by
    have saved : load caller.memory (cell ((frame .none).base entry) 0) 16 = 0 :=
      (saving.saved ⟨0, .xmm .xmm0⟩ (by decide)).2
    have byte := @load_byte caller.memory ((frame .none).base entry + BitVec.ofNat 64 0) 16 0 (by decide)
    rw [show load caller.memory ((frame .none).base entry + BitVec.ofNat 64 0) 16 = 0 from saved, add_ofNat_add] at byte
    exact (calls.keeps_frame top (show 0 < (frame .none).size by decide)).trans byte.symm
  rw [top, spilled, store_byte _ _ _ (by decide) (by decide), argument, vector] at kept
  exact absurd kept (by decide)

end HookCall

end Patchy
