import Mathlib.Algebra.Group.Int.Defs
import Patchy.Shared.Surely
import Patchy.Shared.X64

set_option autoImplicit false

/-! The near branches: with a 32-bit displacement, on a condition, and through a pointer in memory. -/

namespace X64

-- Conditions are numbered in pairs, and the odd one is the negation of the even one.
def Flags.test (flags : Flags) (condition : Nat) : Bool :=
  let holds :=
    match condition / 2 with
    | 0 => flags.overflow
    | 1 => flags.carry
    | 2 => flags.zero
    | 3 => flags.carry || flags.zero
    | 4 => flags.sign
    | 5 => flags.parity
    | 6 => flags.sign != flags.overflow
    | _ => flags.zero || flags.sign != flags.overflow
  holds != decide (condition % 2 = 1)

inductive Branch where
  | jump (displacement : Word)
  | jumpIf (condition : Nat) (displacement : Word)
  | jumpThrough (displacement : Word) -- JMP [RIP+displacement]
  deriving DecidableEq, Repr

def decodeBranch : List (BitVec 8) → Option (Branch × List (BitVec 8))
  | opcode :: rest =>
      if opcode = 0xE9 then
        (immediate32 rest).map fun (displacement, rest) => (.jump displacement, rest)
      else
        match rest with
        | second :: rest =>
            if opcode = 0x0F ∧ second.toNat / 16 = 8 then
              (immediate32 rest).map fun (displacement, rest) => (.jumpIf (second.toNat % 16) displacement, rest)
            else if opcode = 0xFF ∧ second = 0x25 then
              (immediate32 rest).map fun (displacement, rest) => (.jumpThrough displacement, rest)
            else none
        | [] => none
  | [] => none

theorem decodeBranch_append {bytes rest : List (BitVec 8)} {branch : Branch} (more : List (BitVec 8))
    (read : decodeBranch bytes = some (branch, rest)) :
    decodeBranch (bytes ++ more) = some (branch, rest ++ more) := by
  have extended {bytes rest : List (BitVec 8)} {form : Word → Branch}
      (read : (immediate32 bytes).map (fun (displacement, rest) => (form displacement, rest)) = some (branch, rest)) :
      (immediate32 (bytes ++ more)).map (fun (displacement, rest) => (form displacement, rest)) =
        some (branch, rest ++ more) := by
    obtain ⟨⟨displacement, left⟩, found, same⟩ := Option.map_eq_some_iff.mp read
    obtain ⟨rfl, rfl⟩ := Prod.mk.inj same
    rw [immediate32_append more found, Option.map_some]
  match bytes, read with
  | opcode :: tail, read =>
    simp only [decodeBranch, List.cons_append] at read ⊢
    split at read
    next jump =>
      rw [if_pos jump]
      exact extended read
    next notJump =>
      rw [if_neg notJump]
      match tail, read with
      | second :: tail, read =>
        simp only [List.cons_append] at read ⊢
        split at read
        next conditional =>
          rw [if_pos conditional]
          exact extended read
        next unconditional =>
          rw [if_neg unconditional]
          split at read
          next through =>
            rw [if_pos through]
            exact extended read
          next => contradiction

theorem decode_branch {bytes rest : List (BitVec 8)} {branch : Branch}
    (read : decodeBranch bytes = some (branch, rest)) : decode bytes = none := by
  match bytes, read with
  | opcode :: tail, read =>
    simp only [decodeBranch] at read
    split at read
    next jump =>
      subst jump
      rfl
    next =>
      match tail, read with
      | second :: tail, read =>
        dsimp only at read
        split at read
        next conditional =>
          obtain ⟨rfl, -⟩ := conditional
          rfl
        next =>
          split at read
          next through =>
            obtain ⟨rfl, rfl⟩ := through
            rfl
          next => contradiction

namespace Cpu

def window (cpu : Cpu) : List (BitVec 8) :=
  (List.range longestInstruction).map fun index => cpu.memory (cpu.rip + BitVec.ofNat 64 index)

def branch (cpu : Cpu) (length : Nat) : Branch → Cpu
  | .jump displacement => { cpu with rip := cpu.rip + BitVec.ofNat 64 length + displacement }
  | .jumpIf condition displacement =>
      { cpu with rip := cpu.rip + BitVec.ofNat 64 length + if cpu.flags.test condition then displacement else 0 }
  | .jumpThrough displacement =>
      { cpu with rip := load cpu.memory (cpu.rip + BitVec.ofNat 64 length + displacement) 8 }

def advance (cpu : Cpu) : Option Cpu :=
  match cpu.step with
  | some next => some next
  | none => (decodeBranch cpu.window).map fun (branch, rest) => cpu.branch (cpu.window.length - rest.length) branch

theorem advance_of_step {cpu next : Cpu} (stepped : cpu.step = some next) : cpu.advance = some next := by
  rw [advance, stepped]

theorem window_of_codeAt {cpu : Cpu} {code : List (BitVec 8)} (placed : CodeAt cpu.memory cpu.rip code)
    (short : code.length ≤ longestInstruction) : cpu.window = code ++ cpu.window.drop code.length := by
  have size : cpu.window.length = longestInstruction := by simp [window]
  apply List.ext_getElem
  · rw [List.length_append, List.length_drop, size]
    omega
  · intro index within other
    by_cases inside : index < code.length
    · rw [List.getElem_append_left inside, ← placed index inside]
      simp [window]
    · rw [List.getElem_append_right (by omega), List.getElem_drop]
      congr
      omega

theorem advance_of_branch {cpu : Cpu} {code : List (BitVec 8)} {branch : Branch}
    (placed : CodeAt cpu.memory cpu.rip code) (decodes : decodeBranch code = some (branch, []))
    (short : code.length ≤ longestInstruction) : cpu.advance = some (cpu.branch code.length branch) := by
  have front := window_of_codeAt placed short
  have size : cpu.window.length = longestInstruction := by simp [window]
  have read : decodeBranch cpu.window = some (branch, cpu.window.drop code.length) := by
    have longer := decodeBranch_append (cpu.window.drop code.length) decodes
    rw [← front, List.nil_append] at longer
    exact longer
  have stuck : cpu.step = none := by
    have fetched : cpu.fetch = (decode cpu.window).bind fun decoded =>
        some (decoded.1, cpu.window.length - decoded.2.length) := rfl
    rw [step, fetched, decode_branch read]
    rfl
  have count : cpu.window.length - (cpu.window.drop code.length).length = code.length := by
    rw [List.length_drop, size]
    omega
  rw [advance, stuck, read]
  simp only [Option.map_some, count]

end Cpu

theorem Cpu.advance_blank {cpu : Cpu}
    (blank : ∀ index < longestInstruction, cpu.memory (cpu.rip + BitVec.ofNat 64 index) = 0) : cpu.advance = none := by
  have zeros : cpu.window = List.replicate longestInstruction 0 := by
    apply List.ext_getElem
    · simp [window]
    · intro index within other
      simp only [window, List.getElem_map, List.getElem_range, List.getElem_replicate]
      exact blank index (by simpa using other)
  have stepped : cpu.step = (decode cpu.window).bind fun decoded =>
      some (cpu.execute (cpu.window.length - decoded.2.length) decoded.1) := by
    simp only [step, fetch, window]
    cases decode _ <;> rfl
  rw [advance, stepped, zeros]
  rfl

theorem not_within_below {start location : Word} {size : Nat} (below : location.toNat < start.toNat)
    (fits : start.toNat + size ≤ 2 ^ 64) : ¬ Within start size location := by
  rintro ⟨offset, within, rfl⟩
  have place : (start + BitVec.ofNat 64 offset).toNat = start.toNat + offset := by
    rw [BitVec.toNat_add, BitVec.toNat_ofNat, Nat.mod_eq_of_lt (by omega : offset < 2 ^ 64),
      Nat.mod_eq_of_lt (by omega)]
  omega

/-- A processor that carries out the instructions modelled here as they are modelled, and others in its own way. -/
structure Processor where
  step : Cpu → Cpu → Prop
  agrees {cpu next : Cpu} : cpu.advance = some next → ∀ other, step cpu other ↔ other = next

namespace Processor

def halting : Processor where
  step cpu next := next = cpu.advance.getD cpu
  agrees advanced other := by rw [advanced, Option.getD_some]

variable {processor : Processor} {goal stop : Cpu → Prop} {cpu next : Cpu}

theorem surely_advance (advanced : cpu.advance = some next) (rest : Surely processor.step goal next) :
    Surely processor.step goal cpu := rest.head (processor.agrees advanced)

theorem surely_step (stepped : cpu.step = some next) (rest : Surely processor.step goal next) :
    Surely processor.step goal cpu := surely_advance (Cpu.advance_of_step stepped) rest

theorem surely_path (path : Cpu.Path stop cpu next) (rest : Surely processor.step goal next) :
    Surely processor.step goal cpu := by
  induction path with
  | refl => exact rest
  | step _ stepped _ ih => exact surely_step stepped (ih rest)

end Processor

section Comparison

variable (first second : Word)

theorem subFlags_zero : (subFlags first second).zero = true ↔ first = second := by
  simp only [subFlags, beq_iff_eq]
  constructor
  · intro none
    rw [← BitVec.sub_add_cancel first second, none]
    exact BitVec.zero_add second
  · rintro rfl
    exact BitVec.sub_self first

theorem subFlags_carry : (subFlags first second).carry = true ↔ first.toNat < second.toNat := by
  simp [subFlags]

def difference : Int := first.toInt - second.toInt

theorem subFlags_overflow :
    (subFlags first second).overflow = true ↔ difference first second < -2 ^ 63 ∨ 2 ^ 63 ≤ difference first second := by
  have low := first.isLt
  have high := second.isLt
  simp only [subFlags, difference, BitVec.msb_eq_decide, BitVec.toInt_eq_toNat_cond, BitVec.toNat_sub,
    Bool.and_eq_true, bne_iff_ne, ne_eq, decide_eq_decide]
  split <;> split <;> omega

theorem subFlags_less :
    ((subFlags first second).sign != (subFlags first second).overflow) = true ↔ first.toInt < second.toInt := by
  have low := first.isLt
  have high := second.isLt
  have cut : (subFlags first second).sign = true ↔ 2 ^ 63 ≤ (2 ^ 64 - second.toNat + first.toNat) % 2 ^ 64 := by
    simp [subFlags, BitVec.msb_eq_decide, BitVec.toNat_sub]
  have overflow := subFlags_overflow first second
  have either (one other : Bool) : (one != other) = true ↔ ¬ (one = true ↔ other = true) := by
    cases one <;> cases other <;> decide
  rw [either, cut, overflow]
  simp only [difference, BitVec.toInt_eq_toNat_cond]
  split <;> split <;> omega

end Comparison

end X64
