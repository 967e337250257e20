import Patchy.Shared.X64

set_option autoImplicit false

/-! Straight-line code that saves registers in a stack frame and loads them back, followed through by
    computing which register lies where. -/

namespace X64

structure Line where
  instruction : Instruction
  bytes : List (BitVec 8)
  decodes : decode bytes = some (instruction, []) := by decide
  short : bytes.length ≤ longestInstruction := by decide

def listing (lines : List Line) : List (BitVec 8) := lines.flatMap (·.bytes)

def Cpu.AtCall (cpu : Cpu) : Prop := ∃ displacement length, cpu.fetch = some (.call displacement, length)

/-- What can be said about the states between the instructions of straight-line code. -/
structure Analysis (σ : Type) where
  transfer : Instruction → σ → Option σ
  Holds : σ → Cpu → Prop
  noCall (displacement : Word) (state : σ) : transfer (.call displacement) state = none
  sound {instruction : Instruction} {before after : σ} {cpu : Cpu}
    (transferred : transfer instruction before = some after) (holds : Holds before cpu) (length : Nat) :
    Holds after (cpu.execute length instruction) ∧
      (cpu.execute length instruction).rip = cpu.rip + BitVec.ofNat 64 length

def follow {σ : Type} (transfer : Instruction → σ → Option σ) : List Line → σ → Option σ
  | [], state => some state
  | line :: rest, state => (transfer line.instruction state).bind (follow transfer rest)

namespace Analysis

variable {σ : Type}

theorem path (analysis : Analysis σ) {lines : List Line} {before after : σ} {stop : Cpu → Prop} {cpu : Cpu}
    {start : Word} (ran : follow analysis.transfer lines before = some after) (holds : analysis.Holds before cpu)
    (at_start : cpu.rip = start)
    (placed : ∀ state cpu, analysis.Holds state cpu → CodeAt cpu.memory start (listing lines))
    (short : ∀ (cpu : Cpu) (offset : Nat), offset < (listing lines).length →
      cpu.rip = start + BitVec.ofNat 64 offset → ¬ cpu.AtCall → ¬ stop cpu) :
    ∃ final, Cpu.Path stop cpu final ∧ analysis.Holds after final ∧
      final.rip = start + BitVec.ofNat 64 (listing lines).length := by
  -- Induction on the instructions, each of which lies where the one ahead of it ends.
  induction lines generalizing before cpu start with
  | nil =>
    obtain rfl := Option.some.inj ran
    exact ⟨cpu, .refl cpu, holds, by simp [listing, at_start]⟩
  | cons line rest ih =>
    obtain ⟨middle, transferred, ran⟩ := Option.bind_eq_some_iff.mp ran
    have split : listing (line :: rest) = line.bytes ++ listing rest := rfl
    have here : CodeAt cpu.memory cpu.rip line.bytes := by
      rw [at_start]
      exact (split ▸ placed before cpu holds).left
    have fetched := Cpu.fetch_of_codeAt here line.decodes line.short
    -- The analysis rejects calls, so none of the lines is one.
    have noCall : ¬ cpu.AtCall := by
      rintro ⟨displacement, length, called⟩
      have same := congrArg Prod.fst (Option.some.inj (fetched.symm.trans called))
      change line.instruction = .call displacement at same
      rw [same, analysis.noCall] at transferred
      contradiction
    have nonempty : line.bytes ≠ [] := fun none => by
      have decodes := line.decodes
      rw [none] at decodes
      contradiction
    have positive := List.length_pos_of_ne_nil nonempty
    have notYet : ¬ stop cpu := by
      refine short cpu 0 ?_ (by simpa using at_start) noCall
      rw [split, List.length_append]
      omega
    obtain ⟨holds, advanced⟩ := analysis.sound transferred holds line.bytes.length
    have next : _ = start + BitVec.ofNat 64 line.bytes.length := advanced.trans (congrArg (· + _) at_start)
    obtain ⟨final, path, holds, finished⟩ := ih ran holds next
      (fun state cpu holds => (split ▸ placed state cpu holds).right)
      fun cpu offset within place => short cpu (line.bytes.length + offset)
        (by rw [split, List.length_append]; omega) (by rw [place, add_ofNat_add])
    refine ⟨final, .step notYet (Cpu.step_of_codeAt here line.decodes line.short) path, holds, ?_⟩
    rw [finished, add_ofNat_add, split, List.length_append]

end Analysis

abbrev Cpu.At (address : Word) (cpu : Cpu) : Prop := cpu.rip = address

structure Slot where
  offset : Nat
  register : Register
  deriving DecidableEq, Repr

abbrev Slot.stop (slot : Slot) : Nat := slot.offset + slot.register.width

def cell (base : Word) (offset : Nat) : Word := base + BitVec.ofNat 64 offset

theorem cell_add (base : Word) (offset : Nat) (displacement : Word) :
    cell base offset + displacement = cell base (offset + displacement.toNat) := by
  rw [cell, cell, ← add_ofNat_add, BitVec.ofNat_toNat, BitVec.setWidth_eq]

theorem cell_sub (base : Word) {offset : Nat} {displacement : Word} (within : displacement.toNat ≤ offset) :
    cell base offset - displacement = cell base (offset - displacement.toNat) := by
  have back := cell_add base (offset - displacement.toNat) displacement
  rw [Nat.sub_add_cancel within] at back
  rw [← back, BitVec.add_sub_cancel]

theorem cell_inj {base : Word} {first second : Nat} (small : first < 2 ^ 64) (otherSmall : second < 2 ^ 64) :
    cell base first = cell base second ↔ first = second := by
  constructor
  · intro same
    have offsets := congrArg BitVec.toNat ((BitVec.add_right_inj base).mp same)
    rwa [BitVec.toNat_ofNat, BitVec.toNat_ofNat, Nat.mod_eq_of_lt small, Nat.mod_eq_of_lt otherSmall] at offsets
  · exact fun same => congrArg _ same

theorem Cpu.not_at {cpu : Cpu} {start : Word} {first second : Nat} (place : cpu.rip = start + BitVec.ofNat 64 first)
    (before : first < second) (small : second < 2 ^ 64) : ¬ cpu.At (start + BitVec.ofNat 64 second) := by
  intro there
  have same := (cell_inj (Nat.lt_trans before small) small).mp (place.symm.trans there)
  omega

theorem cell_apart {base : Word} {offset count other size : Nat} (apart : Memory.Apart offset count other size)
    (small : offset + count ≤ 2 ^ 64) (otherSmall : other + size ≤ 2 ^ 64) (location : Word)
    (inside : Within (cell base offset) count location) : ¬ Within (cell base other) size location := by
  rintro ⟨second, within, place⟩
  obtain ⟨first, inside, rfl⟩ := inside
  simp only [cell] at place
  rw [add_ofNat_add, add_ofNat_add] at place
  have same := (cell_inj (by omega) (by omega)).mp place
  simp only [Memory.Apart] at apart
  omega

theorem within_of_cell {base location : Word} {offset count size : Nat} (bounded : offset + count ≤ size)
    (inside : Within (cell base offset) count location) : Within base size location := by
  obtain ⟨index, within, rfl⟩ := inside
  exact ⟨offset + index, by omega, add_ofNat_add base offset index⟩

structure SaveState where
  offset : Nat
  slots : List Slot
  deriving DecidableEq, Repr

def SaveState.record (size : Nat) (state : SaveState) (slot : Slot) (offset : Nat) : Option SaveState :=
  if slot.stop ≤ size ∧ ∀ other ∈ state.slots,
      Memory.Apart other.offset other.register.width slot.offset slot.register.width then
    some ⟨offset, state.slots ++ [slot]⟩
  else none

def saveTransfer (size : Nat) : Instruction → SaveState → Option SaveState
  | .push register, state =>
      if register ≠ .rsp ∧ 8 ≤ state.offset then
        state.record size ⟨state.offset - 8, .gpr register⟩ (state.offset - 8)
      else none
  | .sub .rsp immediate, state =>
      if immediate.toNat ≤ state.offset then some { state with offset := state.offset - immediate.toNat }
      else none
  | .movdquStore displacement register, state =>
      state.record size ⟨state.offset + displacement.toNat, .xmm register⟩ state.offset
  | _, _ => none

structure Saving (base : Word) (size : Nat) (entry : Cpu) (state : SaveState) (cpu : Cpu) : Prop where
  top : cpu.gpr .rsp = cell base state.offset
  kept (register : Register) : register ≠ .gpr .rsp → cpu.get register = entry.get register
  outside (location : Word) : ¬ Within base size location → cpu.memory location = entry.memory location
  saved (slot : Slot) : slot ∈ state.slots → slot.stop ≤ size ∧
    load cpu.memory (cell base slot.offset) slot.register.width = entry.get slot.register

section

variable {base : Word} {size : Nat} {entry : Cpu} {before after : SaveState} {cpu : Cpu}

theorem Saving.store (bounded : size < 2 ^ 64) (saving : Saving base size entry before cpu) {slot : Slot}
    {offset : Nat} (other : slot.register ≠ .gpr .rsp) (recorded : before.record size slot offset = some after)
    {moved : Cpu} (top : moved.gpr .rsp = cell base offset)
    (kept : ∀ register, register ≠ .gpr .rsp → moved.get register = cpu.get register)
    (memory : moved.memory =
      store cpu.memory (cell base slot.offset) slot.register.width (cpu.get slot.register)) :
    Saving base size entry after moved := by
  simp only [SaveState.record] at recorded
  split at recorded
  next fits =>
    obtain ⟨inFrame, apart⟩ := fits
    change slot.offset + slot.register.width ≤ size at inFrame
    obtain rfl := Option.some.inj recorded
    have width : slot.register.width < 2 ^ 64 := by omega
    refine ⟨top, fun register plain => (kept register plain).trans (saving.kept register plain), ?_, ?_⟩
    · intro location outside
      rw [memory, store_outside _ _ fun inside => outside (within_of_cell inFrame inside)]
      exact saving.outside location outside
    · intro known member
      rw [memory]
      rcases List.mem_append.mp member with earlier | new
      · obtain ⟨stop, saved⟩ := saving.saved known earlier
        change known.offset + known.register.width ≤ size at stop
        refine ⟨stop, ?_⟩
        rw [load_store_apart _ _ (cell_apart (apart known earlier) (by omega) (by omega)), saved]
      · obtain rfl := List.mem_singleton.mp new
        exact ⟨inFrame, by rw [load_store_same _ _ _ width, saving.kept _ other]⟩
  next => contradiction

theorem saveTransfer_sound (bounded : size < 2 ^ 64) {instruction : Instruction}
    (transferred : saveTransfer size instruction before = some after) (saving : Saving base size entry before cpu)
    (length : Nat) :
    Saving base size entry after (cpu.execute length instruction) ∧
      (cpu.execute length instruction).rip = cpu.rip + BitVec.ofNat 64 length := by
  cases instruction with
  | push register =>
    simp only [saveTransfer] at transferred
    split at transferred
    next room =>
      have lower : cpu.gpr .rsp - 8 = cell base (before.offset - 8) := by
        rw [saving.top, cell_sub base (show (8 : Word).toNat ≤ before.offset from room.2)]
        rfl
      refine ⟨saving.store bounded (by simpa using room.1) transferred ?_ ?_ ?_, rfl⟩
      · simpa [Cpu.execute] using lower
      · rintro (other | other) plain
        · exact Function.update_of_ne (by simpa using plain) _ _
        · rfl
      · simp only [Cpu.execute, lower]
        rfl
    next => contradiction
  | sub register immediate =>
    cases register with
    | rsp =>
      simp only [saveTransfer] at transferred
      split at transferred
      next room =>
        obtain rfl := Option.some.inj transferred
        refine ⟨⟨?_, ?_, saving.outside, saving.saved⟩, rfl⟩
        · simp [Cpu.execute, saving.top, cell_sub base room]
        · rintro (other | other) plain
          · exact (Function.update_of_ne (by simpa using plain) _ _).trans (saving.kept _ plain)
          · exact saving.kept _ plain
      next => contradiction
    | _ => contradiction
  | movdquStore displacement register =>
    refine ⟨saving.store bounded (by simp) transferred saving.top (fun _ _ => rfl) ?_, rfl⟩
    simp only [Cpu.execute, saving.top, cell_add]
    rfl
  | _ => contradiction

def saveAnalysis (base : Word) (size : Nat) (bounded : size < 2 ^ 64) (entry : Cpu) : Analysis SaveState where
  transfer := saveTransfer size
  Holds := Saving base size entry
  noCall _ _ := rfl
  sound := saveTransfer_sound bounded

end

structure LoadState where
  offset : Nat
  slots : List Slot
  flags : Bool -- still untouched
  deriving DecidableEq, Repr

def LoadState.record (state : LoadState) (slot : Slot) (offset : Nat) : Option LoadState :=
  if slot.register ≠ .gpr .rsp ∧ ∀ other ∈ state.slots, other.register ≠ slot.register then
    some { state with offset := offset, slots := state.slots ++ [slot] }
  else none

def loadTransfer : Instruction → LoadState → Option LoadState
  | .pop register, state => state.record ⟨state.offset, .gpr register⟩ (state.offset + 8)
  | .movdquLoad register displacement, state =>
      state.record ⟨state.offset + displacement.toNat, .xmm register⟩ state.offset
  | .add .rsp immediate, state => some { state with offset := state.offset + immediate.toNat, flags := false }
  | .lea .rsp displacement, state => some { state with offset := state.offset + displacement.toNat }
  | _, _ => none

structure Loading (base : Word) (source : Cpu) (state : LoadState) (cpu : Cpu) : Prop where
  top : cpu.gpr .rsp = cell base state.offset
  memory : cpu.memory = source.memory
  plain (slot : Slot) : slot ∈ state.slots → slot.register ≠ .gpr .rsp
  loaded (slot : Slot) : slot ∈ state.slots →
    cpu.get slot.register = load source.memory (cell base slot.offset) slot.register.width
  kept (register : Register) : register ≠ .gpr .rsp → (∀ slot ∈ state.slots, slot.register ≠ register) →
    cpu.get register = source.get register
  flags : state.flags = true → cpu.flags = source.flags

section

variable {base : Word} {source : Cpu} {before after : LoadState} {cpu : Cpu}

theorem Loading.move (loading : Loading base source before cpu) {offset : Nat} {flags : Bool} {moved : Cpu}
    (top : moved.gpr .rsp = cell base offset)
    (kept : ∀ register, register ≠ .gpr .rsp → moved.get register = cpu.get register)
    (memory : moved.memory = cpu.memory)
    (untouched : flags = true → before.flags = true ∧ moved.flags = cpu.flags) :
    Loading base source ⟨offset, before.slots, flags⟩ moved where
  top := top
  memory := memory.trans loading.memory
  plain := loading.plain
  loaded slot member := (kept _ (loading.plain slot member)).trans (loading.loaded slot member)
  kept _ other unloaded := (kept _ other).trans (loading.kept _ other unloaded)
  flags clean := (untouched clean).2.trans (loading.flags (untouched clean).1)

theorem Loading.load (loading : Loading base source before cpu) {slot : Slot} {offset : Nat}
    (recorded : before.record slot offset = some after) {moved : Cpu} (top : moved.gpr .rsp = cell base offset)
    (value : moved.get slot.register = load cpu.memory (cell base slot.offset) slot.register.width)
    (kept : ∀ register, register ≠ .gpr .rsp → register ≠ slot.register → moved.get register = cpu.get register)
    (memory : moved.memory = cpu.memory) (flags : moved.flags = cpu.flags) : Loading base source after moved := by
  simp only [LoadState.record] at recorded
  split at recorded
  next fits =>
    obtain ⟨plain, distinct⟩ := fits
    obtain rfl := Option.some.inj recorded
    refine ⟨top, memory.trans loading.memory, ?_, ?_, ?_, fun clean => flags.trans (loading.flags clean)⟩
    · intro known member
      rcases List.mem_append.mp member with earlier | new
      · exact loading.plain known earlier
      · exact List.mem_singleton.mp new ▸ plain
    · intro known member
      rcases List.mem_append.mp member with earlier | new
      · rw [kept _ (loading.plain known earlier) (distinct known earlier)]
        exact loading.loaded known earlier
      · obtain rfl := List.mem_singleton.mp new
        rw [value, loading.memory]
    · intro register other unloaded
      have fresh := unloaded slot (List.mem_append_right _ (List.mem_singleton_self _))
      rw [kept _ other fresh.symm]
      exact loading.kept _ other fun known earlier => unloaded known (List.mem_append_left _ earlier)
  next => contradiction

theorem loadTransfer_sound {instruction : Instruction}
    (transferred : loadTransfer instruction before = some after) (loading : Loading base source before cpu)
    (length : Nat) :
    Loading base source after (cpu.execute length instruction) ∧
      (cpu.execute length instruction).rip = cpu.rip + BitVec.ofNat 64 length := by
  cases instruction with
  | pop register =>
    by_cases stack : register = .rsp
    · subst stack
      simp [loadTransfer, LoadState.record] at transferred
    · refine ⟨loading.load transferred ?_ ?_ ?_ rfl rfl, rfl⟩
      · rw [← show (8 : Word).toNat = 8 from rfl, ← cell_add, ← loading.top]
        simp [Cpu.execute, Function.update_of_ne (Ne.symm stack)]
      · simp [Cpu.execute, Cpu.get, loading.top]
      · rintro (other | other) plain distinct
        · have notStack : other ≠ .rsp := by simpa using plain
          have notLoaded : other ≠ register := by simpa using distinct
          exact (Function.update_of_ne notLoaded _ _).trans (Function.update_of_ne notStack _ _)
        · rfl
  | movdquLoad register displacement =>
    refine ⟨loading.load transferred loading.top ?_ ?_ rfl rfl, rfl⟩
    · simp [Cpu.execute, Cpu.get, loading.top, cell_add]
    · rintro (other | other) plain distinct
      · rfl
      · exact Function.update_of_ne (by simpa using distinct) _ _
  -- Of all the instructions that load, ADD is the only one to touch flags.
  | add register immediate =>
    cases register with
    | rsp =>
      obtain rfl := Option.some.inj transferred
      refine ⟨loading.move ?_ ?_ rfl (fun touched => by contradiction), rfl⟩
      · simp [Cpu.execute, loading.top, cell_add]
      · rintro (other | other) plain
        · exact Function.update_of_ne (by simpa using plain) _ _
        · rfl
    | _ => contradiction
  | lea register displacement =>
    cases register with
    | rsp =>
      obtain rfl := Option.some.inj transferred
      refine ⟨loading.move ?_ ?_ rfl (fun clean => ⟨clean, rfl⟩), rfl⟩
      · simp [Cpu.execute, loading.top, cell_add]
      · rintro (other | other) plain
        · exact Function.update_of_ne (by simpa using plain) _ _
        · rfl
    | _ => contradiction
  | _ => contradiction

def loadAnalysis (base : Word) (source : Cpu) : Analysis LoadState where
  transfer := loadTransfer
  Holds := Loading base source
  noCall _ _ := rfl
  sound := loadTransfer_sound

end

def volatileRegisters : List Register :=
  [.gpr .rax, .gpr .rcx, .gpr .rdx, .gpr .r8, .gpr .r9, .gpr .r10, .gpr .r11,
    .xmm .xmm0, .xmm .xmm1, .xmm .xmm2, .xmm .xmm3, .xmm .xmm4, .xmm .xmm5]

/-- Code that keeps to the convention, and away from what is reserved. -/
structure Cpu.Keeps (reserved : Word → Prop) (before after : Cpu) : Prop where
  nonvolatile (register : Register) : register ≠ .gpr .rsp → register ∉ volatileRegisters →
    after.get register = before.get register
  memory (location : Word) : reserved location → after.memory location = before.memory location

theorem Cpu.Keeps.trans {reserved : Word → Prop} {before middle after : Cpu} (first : Cpu.Keeps reserved before middle)
    (second : Cpu.Keeps reserved middle after) : Cpu.Keeps reserved before after where
  nonvolatile register plain preserved :=
    (second.nonvolatile register plain preserved).trans (first.nonvolatile register plain preserved)
  memory location kept := (second.memory location kept).trans (first.memory location kept)

theorem Cpu.keeps_jump (reserved : Word → Prop) (cpu : Cpu) (address : Word) :
    Cpu.Keeps reserved cpu { cpu with rip := address } :=
  ⟨fun register _ _ => get_jumped cpu address register, fun _ _ => rfl⟩

structure Cpu.Returns (reserved : Word → Prop) (called returned : Cpu) : Prop
    extends Cpu.Keeps reserved called returned where
  rip : returned.rip = load called.memory (called.gpr .rsp) 8
  rsp : returned.gpr .rsp = called.gpr .rsp + 8

structure Cpu.FallsThrough (reserved : Word → Prop) (length : Nat) (before after : Cpu) : Prop
    extends Cpu.Keeps reserved before after where
  rip : after.rip = before.rip + BitVec.ofNat 64 length
  rsp : after.gpr .rsp = before.gpr .rsp

/-- Code that saves registers in a frame of its own and code that loads some of them back. -/
structure Frame where
  size : Nat
  saves : List Line
  loads : List Line
  saved : List Slot
  loaded : List Slot
  keepsFlags : Bool
  small : size + 8 ≤ 2 ^ 63 := by decide
  saving : follow (saveTransfer size) saves ⟨size, []⟩ = some ⟨0, saved⟩ := by decide
  loading : follow loadTransfer loads ⟨0, [], true⟩ = some ⟨size, loaded, keepsFlags⟩ := by decide
  subset : ∀ slot ∈ loaded, slot ∈ saved := by decide
  volatile : ∀ slot ∈ loaded, slot.register ∈ volatileRegisters := by decide

namespace Frame

def base (frame : Frame) (entry : Cpu) : Word := entry.gpr .rsp - BitVec.ofNat 64 frame.size

structure Placed (frame : Frame) (code : List (BitVec 8)) (entry : Cpu) : Prop where
  stored : CodeAt entry.memory entry.rip code
  aligned : (entry.gpr .rsp).toNat % 16 = 0
  apart (location : Word) : Within entry.rip code.length location →
    ¬ Within (frame.base entry - 8) (frame.size + 8) location

/-- What the code in between must not write: itself, and the frame above a callee's home area. -/
def Reserved (frame : Frame) (code : List (BitVec 8)) (entry : Cpu) (location : Word) : Prop :=
  (∃ offset, 0x20 ≤ offset ∧ offset < frame.size ∧ location = cell (frame.base entry) offset) ∨
    Within entry.rip code.length location

variable {frame : Frame} {entry : Cpu} {code : List (BitVec 8)}

theorem top_eq (frame : Frame) (entry : Cpu) : entry.gpr .rsp = cell (frame.base entry) frame.size := by
  rw [cell, base, BitVec.sub_add_cancel]

theorem Placed.base_aligned (placed : frame.Placed code entry) (even : frame.size % 16 = 0) :
    (frame.base entry).toNat % 16 = 0 := by
  have aligned := placed.aligned
  have small := frame.small
  rw [base, BitVec.toNat_sub, BitVec.toNat_ofNat]
  omega

theorem Placed.short (placed : frame.Placed code entry) : code.length < 2 ^ 64 := by
  by_contra long
  refine placed.apart (frame.base entry - 8) ⟨(frame.base entry - 8 - entry.rip).toNat, by omega, ?_⟩
    ⟨0, by omega, (BitVec.add_zero _).symm⟩
  rw [BitVec.ofNat_toNat, BitVec.setWidth_eq, BitVec.add_comm, BitVec.sub_add_cancel]

theorem Placed.frame_apart (placed : frame.Placed code entry) (location : Word)
    (inside : Within entry.rip code.length location) : ¬ Within (frame.base entry) frame.size location := by
  intro covered
  have shifted : cell (frame.base entry - 8) 8 = frame.base entry := BitVec.sub_add_cancel _ _
  rw [← shifted] at covered
  exact placed.apart location inside (within_of_cell (Nat.le_of_eq (Nat.add_comm _ _)) covered)

theorem Placed.return_apart (placed : frame.Placed code entry) (location : Word)
    (inside : Within entry.rip code.length location) : ¬ Within (frame.base entry - 8) 8 location := by
  rintro ⟨offset, within, place⟩
  exact placed.apart location inside ⟨offset, by omega, place⟩

theorem Placed.home_free (placed : frame.Placed code entry) (room : 0x20 ≤ frame.size) {location : Word}
    (home : Within (frame.base entry) 0x20 location) : ¬ frame.Reserved code entry location := by
  obtain ⟨index, within, place⟩ := home
  rintro (⟨offset, low, high, other⟩ | inside)
  · have small := frame.small
    have same := (cell_inj (by omega) (by omega)).mp (place.symm.trans other)
    omega
  · exact placed.frame_apart location inside ⟨index, Nat.lt_of_lt_of_le within room, place⟩

theorem Placed.saved (placed : frame.Placed code entry) {state : SaveState} {middle : Cpu}
    (saving : Saving (frame.base entry) frame.size entry state middle) : CodeAt middle.memory entry.rip code :=
  placed.stored.congr fun location inside => saving.outside location (placed.frame_apart location inside)

theorem stored_of_keeps {before after : Cpu} (keeps : Cpu.Keeps (frame.Reserved code entry) before after)
    (stored : CodeAt before.memory entry.rip code) : CodeAt after.memory entry.rip code :=
  stored.congr fun location inside => keeps.memory location (Or.inr inside)

theorem enter {stop : Cpu → Prop} (placed : frame.Placed code entry) (begins : listing frame.saves <+: code)
    (short : ∀ (cpu : Cpu) (offset : Nat), offset < (listing frame.saves).length →
      cpu.rip = entry.rip + BitVec.ofNat 64 offset → ¬ cpu.AtCall → ¬ stop cpu) :
    ∃ middle, Cpu.Path stop entry middle ∧ Saving (frame.base entry) frame.size entry ⟨0, frame.saved⟩ middle ∧
      middle.rip = entry.rip + BitVec.ofNat 64 (listing frame.saves).length := by
  obtain ⟨rest, rfl⟩ := begins
  have bounded : frame.size < 2 ^ 64 := by
    have small := frame.small
    omega
  have start : Saving (frame.base entry) frame.size entry ⟨frame.size, []⟩ entry :=
    ⟨top_eq frame entry, fun _ _ => rfl, fun _ _ => rfl, by simp⟩
  exact (saveAnalysis (frame.base entry) frame.size bounded entry).path frame.saving start rfl
    (fun state cpu saving => (placed.saved saving).left) short

theorem leave {source : Cpu} {front : List (BitVec 8)} (top : source.gpr .rsp = frame.base entry)
    (stored : CodeAt source.memory entry.rip (front ++ listing frame.loads))
    (arrived : source.rip = entry.rip + BitVec.ofNat 64 front.length)
    (short : (front ++ listing frame.loads).length < 2 ^ 64) :
    ∃ final, source.Until (Cpu.At (entry.rip + BitVec.ofNat 64 (front ++ listing frame.loads).length)) final ∧
      Loading (frame.base entry) source ⟨frame.size, frame.loaded, frame.keepsFlags⟩ final := by
  have start : Loading (frame.base entry) source ⟨0, [], true⟩ source :=
    ⟨by simp [top, cell], rfl, by simp, by simp, fun _ _ _ => rfl, fun _ => rfl⟩
  have placed : CodeAt source.memory source.rip (listing frame.loads) := arrived ▸ stored.right
  have notYet (cpu : Cpu) (offset : Nat) (within : offset < (listing frame.loads).length)
      (place : cpu.rip = source.rip + BitVec.ofNat 64 offset) :
      ¬ cpu.At (entry.rip + BitVec.ofNat 64 (front ++ listing frame.loads).length) := by
    rw [arrived, add_ofNat_add] at place
    exact Cpu.not_at place (by rw [List.length_append]; omega) short
  obtain ⟨final, path, loading, finished⟩ := (loadAnalysis (frame.base entry) source).path frame.loading start rfl
    (fun state cpu loading => by rwa [show cpu.memory = source.memory from loading.memory])
    fun cpu offset within place _ => notYet cpu offset within place
  refine ⟨final, ⟨path, ?_⟩, loading⟩
  rw [Cpu.At, finished, arrived, add_ofNat_add, List.length_append]

section

variable {middle source final : Cpu} (saving : Saving (frame.base entry) frame.size entry ⟨0, frame.saved⟩ middle)
  (loading : Loading (frame.base entry) source ⟨frame.size, frame.loaded, frame.keepsFlags⟩ final)

include saving loading

theorem restored_iff {slot : Slot} (member : slot ∈ frame.loaded) :
    final.get slot.register = entry.get slot.register ↔
      ∀ offset, slot.offset ≤ offset → offset < slot.stop →
        source.memory (cell (frame.base entry) offset) = middle.memory (cell (frame.base entry) offset) := by
  rw [loading.loaded slot member, ← (saving.saved slot (frame.subset slot member)).2, load_eq_iff]
  constructor
  · intro same offset low high
    have bytes := same (offset - slot.offset) ((Nat.sub_lt_iff_lt_add' low).mpr high)
    simp only [cell] at bytes
    rwa [add_ofNat_add, Nat.add_sub_cancel' low] at bytes
  · intro same offset within
    simp only [cell]
    rw [add_ofNat_add]
    exact same (slot.offset + offset) (Nat.le_add_right _ _) (Nat.add_lt_add_left within _)

theorem nonvolatile_kept (kept : ∀ register, register ≠ .gpr .rsp → register ∉ volatileRegisters →
      source.get register = middle.get register) {register : Register} (nonvolatile : register ∉ volatileRegisters) :
    final.get register = entry.get register := by
  by_cases stack : register = .gpr .rsp
  · subst stack
    exact loading.top.trans (top_eq frame entry).symm
  · have unloaded : ∀ slot ∈ frame.loaded, slot.register ≠ register := fun slot member same =>
      nonvolatile (same ▸ frame.volatile slot member)
    rw [loading.kept register stack unloaded, kept register stack nonvolatile, saving.kept register stack]

end

end Frame

end X64
