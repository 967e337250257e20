import Mathlib.Algebra.Group.Nat.Defs
import Mathlib.Logic.Function.Basic
import Patchy.Shared.Memory

set_option autoImplicit false

/-! The x86-64 instructions that stack saves, a call through a pointer and stack restores are made of.
    Addresses wrap around, and accesses do not fault. -/

namespace X64

abbrev Word := BitVec 64
abbrev Contents := Word → BitVec 8

inductive Gpr where
  | rax | rcx | rdx | rbx | rsp | rbp | rsi | rdi
  | r8 | r9 | r10 | r11 | r12 | r13 | r14 | r15
  deriving DecidableEq, Repr

def Gpr.ofNumber : Nat → Gpr
  | 0 => .rax
  | 1 => .rcx
  | 2 => .rdx
  | 3 => .rbx
  | 4 => .rsp
  | 5 => .rbp
  | 6 => .rsi
  | 7 => .rdi
  | 8 => .r8
  | 9 => .r9
  | 10 => .r10
  | 11 => .r11
  | 12 => .r12
  | 13 => .r13
  | 14 => .r14
  | _ => .r15

inductive Xmm where
  | xmm0 | xmm1 | xmm2 | xmm3 | xmm4 | xmm5 | xmm6 | xmm7
  | xmm8 | xmm9 | xmm10 | xmm11 | xmm12 | xmm13 | xmm14 | xmm15
  deriving DecidableEq, Repr

-- Only a REX prefix, which MOVDQU is decoded without, reaches the upper half.
def Xmm.ofNumber : Nat → Xmm
  | 0 => .xmm0
  | 1 => .xmm1
  | 2 => .xmm2
  | 3 => .xmm3
  | 4 => .xmm4
  | 5 => .xmm5
  | 6 => .xmm6
  | _ => .xmm7

inductive Register where
  | gpr (register : Gpr)
  | xmm (register : Xmm)
  deriving DecidableEq, Repr

abbrev Register.width : Register → Nat
  | .gpr _ => 8
  | .xmm _ => 16

structure Flags where
  carry : Bool
  parity : Bool
  adjust : Bool
  zero : Bool
  sign : Bool
  overflow : Bool
  deriving DecidableEq, Repr

structure Cpu where
  rip : Word
  gpr : Gpr → Word
  xmm : Xmm → BitVec 128
  flags : Flags
  memory : Contents

def load (memory : Contents) (address : Word) : (count : Nat) → BitVec (8 * count)
  | 0 => 0
  | count + 1 =>
      (memory (address + BitVec.ofNat 64 count) ++ load memory address count).cast (by omega)

def store (memory : Contents) (address : Word) (count : Nat) (value : BitVec (8 * count)) : Contents :=
  fun location =>
    let offset := (location - address).toNat
    if offset < count then value.extractLsb' (8 * offset) 8 else memory location

def Within (start : Word) (size : Nat) (location : Word) : Prop :=
  ∃ offset < size, location = start + BitVec.ofNat 64 offset

def CodeAt (memory : Contents) (address : Word) (code : List (BitVec 8)) : Prop :=
  ∀ index, (within : index < code.length) → memory (address + BitVec.ofNat 64 index) = code[index]

inductive Instruction where
  | push (register : Gpr)
  | pop (register : Gpr)
  | add (register : Gpr) (immediate : Word)
  | sub (register : Gpr) (immediate : Word)
  | lea (register : Gpr) (displacement : Word) -- LEA register, [RSP+displacement]
  | movdquStore (displacement : Word) (register : Xmm) -- MOVDQU [RSP+displacement], register
  | movdquLoad (register : Xmm) (displacement : Word) -- MOVDQU register, [RSP+displacement]
  | call (displacement : Word) -- CALL [RIP+displacement]
  | jmp (displacement : Word)
  deriving DecidableEq, Repr

-- PF looks at the low byte of the result only.
def evenParity (result : Word) : Bool :=
  ((List.range 8).countP fun index => result.getLsbD index) % 2 == 0

def addFlags (first second : Word) : Flags :=
  let result := first + second
  { carry := decide (2 ^ 64 ≤ first.toNat + second.toNat)
    parity := evenParity result
    adjust := decide (16 ≤ first.toNat % 16 + second.toNat % 16)
    zero := result == 0
    sign := result.msb
    overflow := first.msb == second.msb && result.msb != first.msb }

def subFlags (first second : Word) : Flags :=
  let result := first - second
  { carry := decide (first.toNat < second.toNat)
    parity := evenParity result
    adjust := decide (first.toNat % 16 < second.toNat % 16)
    zero := result == 0
    sign := result.msb
    overflow := first.msb != second.msb && result.msb != first.msb }

namespace Cpu

def get (cpu : Cpu) : (register : Register) → BitVec (8 * register.width)
  | .gpr register => cpu.gpr register
  | .xmm register => cpu.xmm register

def execute (cpu : Cpu) (length : Nat) : Instruction → Cpu
  | .push register =>
      let top := cpu.gpr .rsp - 8
      { cpu with
        rip := cpu.rip + BitVec.ofNat 64 length
        gpr := Function.update cpu.gpr .rsp top
        memory := store cpu.memory top 8 (cpu.gpr register) }
  | .pop register =>
      let value := load cpu.memory (cpu.gpr .rsp) 8
      { cpu with
        rip := cpu.rip + BitVec.ofNat 64 length
        gpr := Function.update (Function.update cpu.gpr .rsp (cpu.gpr .rsp + 8)) register value }
  | .add register immediate =>
      { cpu with
        rip := cpu.rip + BitVec.ofNat 64 length
        gpr := Function.update cpu.gpr register (cpu.gpr register + immediate)
        flags := addFlags (cpu.gpr register) immediate }
  | .sub register immediate =>
      { cpu with
        rip := cpu.rip + BitVec.ofNat 64 length
        gpr := Function.update cpu.gpr register (cpu.gpr register - immediate)
        flags := subFlags (cpu.gpr register) immediate }
  | .lea register displacement =>
      { cpu with
        rip := cpu.rip + BitVec.ofNat 64 length
        gpr := Function.update cpu.gpr register (cpu.gpr .rsp + displacement) }
  | .movdquStore displacement register =>
      { cpu with
        rip := cpu.rip + BitVec.ofNat 64 length
        memory := store cpu.memory (cpu.gpr .rsp + displacement) 16 (cpu.xmm register) }
  | .movdquLoad register displacement =>
      { cpu with
        rip := cpu.rip + BitVec.ofNat 64 length
        xmm := Function.update cpu.xmm register (load cpu.memory (cpu.gpr .rsp + displacement) 16) }
  | .call displacement =>
      let next := cpu.rip + BitVec.ofNat 64 length
      let top := cpu.gpr .rsp - 8
      { cpu with
        rip := load cpu.memory (next + displacement) 8
        gpr := Function.update cpu.gpr .rsp top
        memory := store cpu.memory top 8 next }
  | .jmp displacement => { cpu with rip := cpu.rip + BitVec.ofNat 64 length + displacement }

end Cpu

def immediate8 : List (BitVec 8) → Option (Word × List (BitVec 8))
  | byte :: rest => some (byte.signExtend 64, rest)
  | [] => none

def immediate32 : List (BitVec 8) → Option (Word × List (BitVec 8))
  | first :: second :: third :: fourth :: rest =>
      some ((fourth ++ third ++ second ++ first : BitVec 32).signExtend 64, rest)
  | _ => none

-- ModRM and SIB of a [RSP+displacement] operand; the other operand is the register field.
def stackOperand : List (BitVec 8) → Option (Nat × Word × List (BitVec 8))
  | modrm :: sib :: rest =>
      let register := modrm.toNat / 8 % 8
      if modrm.toNat % 8 = 4 ∧ sib = 0x24 then
        match modrm.toNat / 64 with
        | 0 => some (register, 0, rest)
        | 1 => (immediate8 rest).map fun (displacement, rest) => (register, displacement, rest)
        | 2 => (immediate32 rest).map fun (displacement, rest) => (register, displacement, rest)
        | _ => none
      else none
  | _ => none

-- Opcodes 50+r and 58+r; REX.B selects the upper half of the registers.
def decodeStack (opcode : BitVec 8) (high : Nat) : Option Instruction :=
  match opcode.toNat / 8 with
  | 10 => some (.push (Gpr.ofNumber (opcode.toNat % 8 + high)))
  | 11 => some (.pop (Gpr.ofNumber (opcode.toNat % 8 + high)))
  | _ => none

-- The immediate group, with a register operand: /0 is ADD and /5 is SUB.
def decodeImmediate (modrm : BitVec 8) (immediate : Word) : Option Instruction :=
  if modrm.toNat / 64 = 3 then
    match modrm.toNat / 8 % 8 with
    | 0 => some (.add (Gpr.ofNumber (modrm.toNat % 8)) immediate)
    | 5 => some (.sub (Gpr.ofNumber (modrm.toNat % 8)) immediate)
    | _ => none
  else none

def decodeWide : List (BitVec 8) → Option (Instruction × List (BitVec 8))
  | opcode :: rest =>
      if opcode = 0x83 then
        match rest with
        | modrm :: rest => do
            let (immediate, rest) ← immediate8 rest
            (decodeImmediate modrm immediate).map fun instruction => (instruction, rest)
        | [] => none
      else if opcode = 0x81 then
        match rest with
        | modrm :: rest => do
            let (immediate, rest) ← immediate32 rest
            (decodeImmediate modrm immediate).map fun instruction => (instruction, rest)
        | [] => none
      else if opcode = 0x8D then
        (stackOperand rest).map fun (register, displacement, rest) =>
          (.lea (Gpr.ofNumber register) displacement, rest)
      else none
  | [] => none

-- What follows the mandatory prefix F3: MOVDQU in its two directions.
def decodeMovdqu : List (BitVec 8) → Option (Instruction × List (BitVec 8))
  | escape :: opcode :: rest => do
      let (register, displacement, rest) ← stackOperand rest
      if escape = 0x0F ∧ opcode = 0x6F then some (.movdquLoad (Xmm.ofNumber register) displacement, rest)
      else if escape = 0x0F ∧ opcode = 0x7F then some (.movdquStore displacement (Xmm.ofNumber register), rest)
      else none
  | _ => none

def decode : List (BitVec 8) → Option (Instruction × List (BitVec 8))
  | opcode :: rest =>
      if opcode = 0x41 then
        match rest with
        | opcode :: rest => (decodeStack opcode 8).map fun instruction => (instruction, rest)
        | [] => none
      else if opcode = 0x48 then decodeWide rest
      else if opcode = 0xF3 then decodeMovdqu rest
      else if opcode = 0xEB then
        (immediate8 rest).map fun (displacement, rest) => (.jmp displacement, rest)
      else if opcode = 0xFF then
        match rest with
        | modrm :: rest =>
            if modrm = 0x15 then
              (immediate32 rest).map fun (displacement, rest) => (.call displacement, rest)
            else none
        | [] => none
      else (decodeStack opcode 0).map fun instruction => (instruction, rest)
  | [] => none

def longestInstruction : Nat := 15

namespace Cpu

def fetch (cpu : Cpu) : Option (Instruction × Nat) := do
  let window := (List.range longestInstruction).map fun index => cpu.memory (cpu.rip + BitVec.ofNat 64 index)
  let (instruction, rest) ← decode window
  return (instruction, window.length - rest.length)

def step (cpu : Cpu) : Option Cpu := do
  let (instruction, length) ← cpu.fetch
  return cpu.execute length instruction

inductive Path (stop : Cpu → Prop) : Cpu → Cpu → Prop
  | refl (cpu : Cpu) : Path stop cpu cpu
  | step {before middle after : Cpu} (short : ¬ stop before) (stepped : before.step = some middle)
      (rest : Path stop middle after) : Path stop before after

def Until (before : Cpu) (stop : Cpu → Prop) (after : Cpu) : Prop := Path stop before after ∧ stop after

end Cpu

theorem load_getLsbD (memory : Contents) (address : Word) (count index : Nat) :
    (load memory address count).getLsbD index =
      (decide (index < 8 * count) && (memory (address + BitVec.ofNat 64 (index / 8))).getLsbD (index % 8)) := by
  induction count with
  | zero => simp [load]
  | succ count ih =>
    rw [load, BitVec.getLsbD_cast, BitVec.getLsbD_append, ih]
    by_cases low : index < 8 * count
    · have within : index < 8 * (count + 1) := by omega
      simp [low, within]
    · by_cases within : index < 8 * (count + 1)
      · have byte : index / 8 = count := by omega
        have bit : index - 8 * count = index % 8 := by omega
        simp [low, within, byte, bit]
      · have beyond : 8 ≤ index - 8 * count := by omega
        simp [low, within, BitVec.getLsbD_of_ge _ _ beyond]

theorem load_byte (memory : Contents) (address : Word) {count offset : Nat} (within : offset < count) :
    (load memory address count).extractLsb' (8 * offset) 8 = memory (address + BitVec.ofNat 64 offset) := by
  apply BitVec.eq_of_getLsbD_eq
  intro bit small
  have inside : 8 * offset + bit < 8 * count := by omega
  have byte : (8 * offset + bit) / 8 = offset := by omega
  have position : (8 * offset + bit) % 8 = bit := by omega
  simp only [BitVec.getLsbD_extractLsb', load_getLsbD, small, inside, byte, position, decide_true, Bool.true_and]

theorem load_eq_iff {first second : Contents} {address : Word} {count : Nat} :
    load first address count = load second address count ↔
      ∀ offset < count, first (address + BitVec.ofNat 64 offset) = second (address + BitVec.ofNat 64 offset) := by
  constructor
  · intro same offset within
    rw [← load_byte first address within, same, load_byte second address within]
  · intro agree
    apply BitVec.eq_of_getLsbD_eq
    intro index inside
    rw [load_getLsbD, load_getLsbD, agree (index / 8) (by omega)]

theorem store_outside (memory : Contents) {address location : Word} {count : Nat} (value : BitVec (8 * count))
    (outside : ¬ Within address count location) : store memory address count value location = memory location := by
  simp only [store]
  rw [if_neg]
  intro inside
  refine outside ⟨(location - address).toNat, inside, ?_⟩
  rw [BitVec.ofNat_toNat, BitVec.setWidth_eq, BitVec.add_comm, BitVec.sub_add_cancel]

theorem store_byte (memory : Contents) (address : Word) {count offset : Nat} (value : BitVec (8 * count))
    (within : offset < count) (small : count < 2 ^ 64) :
    store memory address count value (address + BitVec.ofNat 64 offset) = value.extractLsb' (8 * offset) 8 := by
  have place : (address + BitVec.ofNat 64 offset - address).toNat = offset := by
    rw [BitVec.add_comm, BitVec.add_sub_cancel, BitVec.toNat_ofNat, Nat.mod_eq_of_lt (by omega)]
  simp only [store, place, within, if_true]

theorem load_store_same (memory : Contents) (address : Word) {count : Nat} (value : BitVec (8 * count))
    (small : count < 2 ^ 64) : load (store memory address count value) address count = value := by
  apply BitVec.eq_of_getLsbD_eq
  intro index inside
  have position : 8 * (index / 8) + index % 8 = index := by omega
  have bit : index % 8 < 8 := Nat.mod_lt _ (by decide)
  rw [load_getLsbD, store_byte memory address value (show index / 8 < count by omega) small,
    BitVec.getLsbD_extractLsb', position]
  simp only [inside, bit, decide_true, Bool.true_and]

theorem load_store_apart (memory : Contents) {address target : Word} {count size : Nat} (value : BitVec (8 * size))
    (apart : ∀ location, Within address count location → ¬ Within target size location) :
    load (store memory target size value) address count = load memory address count :=
  load_eq_iff.mpr fun offset within => store_outside memory value (apart _ ⟨offset, within, rfl⟩)

theorem add_ofNat_add (address : Word) (first second : Nat) :
    address + BitVec.ofNat 64 first + BitVec.ofNat 64 second = address + BitVec.ofNat 64 (first + second) := by
  rw [BitVec.add_assoc, ← BitVec.ofNat_add]

theorem add_length_append (address : Word) (first second : List (BitVec 8)) :
    address + BitVec.ofNat 64 (first ++ second).length =
      address + BitVec.ofNat 64 first.length + BitVec.ofNat 64 second.length := by
  rw [List.length_append, add_ofNat_add]

theorem CodeAt.left {memory : Contents} {address : Word} {first second : List (BitVec 8)}
    (placed : CodeAt memory address (first ++ second)) : CodeAt memory address first := by
  intro index within
  have longer : index < (first ++ second).length := by
    rw [List.length_append]
    omega
  rw [placed index longer, List.getElem_append_left within]

theorem CodeAt.right {memory : Contents} {address : Word} {first second : List (BitVec 8)}
    (placed : CodeAt memory address (first ++ second)) :
    CodeAt memory (address + BitVec.ofNat 64 first.length) second := by
  intro index within
  have longer : first.length + index < (first ++ second).length := by
    rw [List.length_append]
    omega
  rw [add_ofNat_add, placed _ longer, List.getElem_append_right (Nat.le_add_right _ _)]
  simp

theorem CodeAt.congr {first second : Contents} {address : Word} {code : List (BitVec 8)}
    (placed : CodeAt first address code)
    (agree : ∀ location, Within address code.length location → second location = first location) :
    CodeAt second address code := by
  intro index within
  rw [agree _ ⟨index, within, rfl⟩]
  exact placed index within

theorem immediate8_append {bytes rest : List (BitVec 8)} {value : Word} (more : List (BitVec 8))
    (read : immediate8 bytes = some (value, rest)) : immediate8 (bytes ++ more) = some (value, rest ++ more) := by
  cases bytes with
  | nil => contradiction
  | cons byte tail =>
    obtain ⟨rfl, rfl⟩ := Prod.mk.inj (Option.some.inj read)
    rfl

theorem immediate32_append {bytes rest : List (BitVec 8)} {value : Word} (more : List (BitVec 8))
    (read : immediate32 bytes = some (value, rest)) : immediate32 (bytes ++ more) = some (value, rest ++ more) := by
  match bytes, read with
  | first :: second :: third :: fourth :: tail, read =>
    obtain ⟨rfl, rfl⟩ := Prod.mk.inj (Option.some.inj read)
    rfl

theorem stackOperand_append {bytes rest : List (BitVec 8)} {register : Nat} {displacement : Word}
    (more : List (BitVec 8)) (read : stackOperand bytes = some (register, displacement, rest)) :
    stackOperand (bytes ++ more) = some (register, displacement, rest ++ more) := by
  match bytes, read with
  | modrm :: sib :: tail, read =>
    simp only [stackOperand, List.cons_append] at read ⊢
    split at read
    next form =>
      rw [if_pos form]
      split at read
      next => grind
      next mode =>
        obtain ⟨⟨value, left⟩, found, same⟩ := Option.map_eq_some_iff.mp read
        rw [immediate8_append more found]
        grind
      next mode =>
        obtain ⟨⟨value, left⟩, found, same⟩ := Option.map_eq_some_iff.mp read
        rw [immediate32_append more found]
        grind
      next => contradiction
    next => contradiction

theorem map_pair_append {found : Option Instruction} {left rest : List (BitVec 8)} {instruction : Instruction}
    (more : List (BitVec 8)) (read : (found.map fun instruction => (instruction, left)) = some (instruction, rest)) :
    (found.map fun instruction => (instruction, left ++ more)) = some (instruction, rest ++ more) := by
  obtain ⟨_, rfl, same⟩ := Option.map_eq_some_iff.mp read
  obtain ⟨rfl, rfl⟩ := Prod.mk.inj same
  rfl

theorem decodeWide_append {bytes rest : List (BitVec 8)} {instruction : Instruction} (more : List (BitVec 8))
    (read : decodeWide bytes = some (instruction, rest)) :
    decodeWide (bytes ++ more) = some (instruction, rest ++ more) := by
  cases bytes with
  | nil => contradiction
  | cons opcode tail =>
    simp only [decodeWide, List.cons_append] at read ⊢
    split at read
    next byte =>
      rw [if_pos byte]
      cases tail with
      | nil => contradiction
      | cons modrm tail =>
        obtain ⟨⟨immediate, left⟩, found, same⟩ := Option.bind_eq_some_iff.mp read
        simp only [List.cons_append, immediate8_append more found, Option.bind_eq_bind, Option.bind_some]
        exact map_pair_append more same
    next =>
      split at read
      next notByte double =>
        rw [if_neg notByte, if_pos double]
        cases tail with
        | nil => contradiction
        | cons modrm tail =>
          obtain ⟨⟨immediate, left⟩, found, same⟩ := Option.bind_eq_some_iff.mp read
          simp only [List.cons_append, immediate32_append more found, Option.bind_eq_bind, Option.bind_some]
          exact map_pair_append more same
      next notByte notDouble =>
        split at read
        next lea =>
          rw [if_neg notByte, if_neg notDouble, if_pos lea]
          obtain ⟨⟨register, displacement, left⟩, found, same⟩ := Option.map_eq_some_iff.mp read
          rw [stackOperand_append more found]
          grind
        next => contradiction

theorem decodeMovdqu_append {bytes rest : List (BitVec 8)} {instruction : Instruction} (more : List (BitVec 8))
    (read : decodeMovdqu bytes = some (instruction, rest)) :
    decodeMovdqu (bytes ++ more) = some (instruction, rest ++ more) := by
  match bytes, read with
  | escape :: opcode :: tail, read =>
    obtain ⟨⟨register, displacement, left⟩, found, same⟩ := Option.bind_eq_some_iff.mp read
    simp only [decodeMovdqu, List.cons_append, stackOperand_append more found, Option.bind_eq_bind,
      Option.bind_some]
    grind

theorem decode_append {bytes rest : List (BitVec 8)} {instruction : Instruction} (more : List (BitVec 8))
    (read : decode bytes = some (instruction, rest)) :
    decode (bytes ++ more) = some (instruction, rest ++ more) := by
  cases bytes with
  | nil => contradiction
  | cons opcode tail =>
    simp only [decode, List.cons_append] at read ⊢
    split at read
    next high =>
      rw [if_pos high]
      cases tail with
      | nil => contradiction
      | cons opcode tail => exact map_pair_append more read
    next notHigh =>
      rw [if_neg notHigh]
      split at read
      next wide =>
        rw [if_pos wide]
        exact decodeWide_append more read
      next notWide =>
        rw [if_neg notWide]
        split at read
        next vector =>
          rw [if_pos vector]
          exact decodeMovdqu_append more read
        next notVector =>
          rw [if_neg notVector]
          split at read
          next jump =>
            obtain ⟨⟨displacement, left⟩, found, same⟩ := Option.map_eq_some_iff.mp read
            rw [if_pos jump, immediate8_append more found]
            grind
          next notJump =>
            rw [if_neg notJump]
            split at read
            next call =>
              rw [if_pos call]
              cases tail with
              | nil => contradiction
              | cons modrm tail =>
                dsimp only [List.cons_append] at read ⊢
                split at read
                next relative =>
                  obtain ⟨⟨displacement, left⟩, found, same⟩ := Option.map_eq_some_iff.mp read
                  rw [if_pos relative, immediate32_append more found]
                  grind
                next => contradiction
            next notCall =>
              rw [if_neg notCall]
              exact map_pair_append more read

example : decode [0xF3, 0x0F, 0x7F, 0x4C, 0x24, 0x10, 0x90] = some (.movdquStore 0x10 .xmm1, [0x90]) := by decide

namespace Cpu

@[simp] theorem get_gpr (cpu : Cpu) (register : Gpr) : cpu.get (.gpr register) = cpu.gpr register := rfl

@[simp] theorem get_jumped (cpu : Cpu) (address : Word) (register : Register) :
    { cpu with rip := address }.get register = cpu.get register := by
  cases register <;> rfl

@[simp] theorem get_xmm (cpu : Cpu) (register : Xmm) : cpu.get (.xmm register) = cpu.xmm register := rfl

theorem fetch_of_codeAt {cpu : Cpu} {code : List (BitVec 8)} {instruction : Instruction}
    (placed : CodeAt cpu.memory cpu.rip code) (decodes : decode code = some (instruction, []))
    (short : code.length ≤ longestInstruction) : cpu.fetch = some (instruction, code.length) := by
  let window := (List.range longestInstruction).map fun index => cpu.memory (cpu.rip + BitVec.ofNat 64 index)
  have size : window.length = longestInstruction := by simp [window]
  have front : window = code ++ window.drop code.length := by
    apply List.ext_getElem
    · rw [List.length_append, List.length_drop, size]
      omega
    · intro index within other
      by_cases inside : index < code.length
      · rw [List.getElem_append_left inside, ← placed index inside]
        simp [window]
      · rw [List.getElem_append_right (by omega), List.getElem_drop]
        congr
        omega
  have read : decode window = some (instruction, window.drop code.length) := by
    have longer := decode_append (window.drop code.length) decodes
    rw [← front, List.nil_append] at longer
    exact longer
  have count : window.length - (window.drop code.length).length = code.length := by
    rw [List.length_drop, size]
    omega
  have fetched : cpu.fetch = (decode window).bind fun decoded =>
      some (decoded.1, window.length - decoded.2.length) := rfl
  rw [fetched, read, Option.bind_some, count]

theorem step_of_codeAt {cpu : Cpu} {code : List (BitVec 8)} {instruction : Instruction}
    (placed : CodeAt cpu.memory cpu.rip code) (decodes : decode code = some (instruction, []))
    (short : code.length ≤ longestInstruction) : cpu.step = some (cpu.execute code.length instruction) := by
  simp [step, fetch_of_codeAt placed decodes short]

theorem Until.unique {stop : Cpu → Prop} {start first second : Cpu} (one : start.Until stop first)
    (other : start.Until stop second) : first = second := by
  obtain ⟨path, stopped⟩ := one
  obtain ⟨otherPath, otherStopped⟩ := other
  induction path with
  | refl =>
    cases otherPath with
    | refl => rfl
    | step short => exact absurd stopped short
  | step short stepped _ ih =>
    cases otherPath with
    | refl => exact absurd otherStopped short
    | step _ otherStepped rest =>
      obtain rfl := Option.some.inj (stepped.symm.trans otherStepped)
      exact ih stopped rest

theorem Until.exists_iff {stop holds : Cpu → Prop} {start final : Cpu} (run : start.Until stop final) :
    (∃ other, start.Until stop other ∧ holds other) ↔ holds final := by
  constructor
  · rintro ⟨other, ends, good⟩
    exact ends.unique run ▸ good
  · exact fun good => ⟨final, run, good⟩

end Cpu

end X64
