import Patchy.Builder.Operations
import Patchy.Shared.X64Branch

set_option autoImplicit false

namespace Patchy

open X64

def Condition.holds (flags : Flags) : Condition → Bool
  | .overflow => flags.overflow
  | .notOverflow => !flags.overflow
  | .below => flags.carry
  | .aboveOrEqual => !flags.carry
  | .equal => flags.zero
  | .notEqual => !flags.zero
  | .belowOrEqual => flags.carry || flags.zero
  | .above => !(flags.carry || flags.zero)
  | .sign => flags.sign
  | .notSign => !flags.sign
  | .parity => flags.parity
  | .notParity => !flags.parity
  | .less => flags.sign != flags.overflow
  | .greaterOrEqual => !(flags.sign != flags.overflow)
  | .lessOrEqual => flags.zero || flags.sign != flags.overflow
  | .greater => !(flags.zero || flags.sign != flags.overflow)

namespace Program

def point (ops : List BuilderOp) (address index : Nat) : Word :=
  BitVec.ofNat 64 (address + totalSize (ops.take index))

/-- The operation that binds a label: the first to name it once the label has been handed out. -/
def Binds (ops : List BuilderOp) (label : Label) (index : Nat) : Prop :=
  ops[index]? = some (.bind label) ∧ label.index < (ops.take index).count .newLabel ∧
    ∀ earlier < index, ops[earlier]? = some (.bind label) → (ops.take earlier).count .newLabel ≤ label.index

def raw : BuilderOp → Option (List Byte)
  | .bytes contents => some contents
  | .preservedCall function argumentSetup resultHandling allowReturn =>
      some (Arch.pushPreservedCall [] function argumentSetup resultHandling allowReturn)
  | _ => none

inductive Config where
  | ready (index : Nat) (cpu : Cpu)
  | native (cpu : Cpu)

def called (cpu : Cpu) (function returnAddress : Word) : Cpu :=
  { cpu with
    rip := function
    gpr := Function.update cpu.gpr .rsp (cpu.gpr .rsp - 8)
    memory := store cpu.memory (cpu.gpr .rsp - 8) 8 returnAddress }

/-- A place that is neither the start of an operation nor inside of one, unless inside of raw code. -/
def Foreign (ops : List BuilderOp) (address : Nat) (location : Word) : Prop :=
  ∀ index op, ops[index]? = some op → Within (point ops address index) op.size location →
    (raw op).isSome ∧ location ≠ point ops address index

/-- What the operations of a builder mean, one after the other. Code outside of them may do what it likes, but
    it must leave the trampoline alone, and comes back only where an operation begins or a call returns. -/
inductive Step (processor : Processor) (ops : List BuilderOp) (address : Nat) (intact : Contents → Prop) :
    Config → Config → Prop
  | silent {index : Nat} {cpu : Cpu} {op : BuilderOp} (found : ops[index]? = some op) (empty : op.size = 0) :
      Step processor ops address intact (.ready index cpu) (.ready (index + 1) cpu)
  | raw {index : Nat} {cpu next : Cpu} {op : BuilderOp} (found : ops[index]? = some op) (plain : (raw op).isSome)
      (nonempty : op.size ≠ 0) (moved : processor.step { cpu with rip := point ops address index } next) :
      Step processor ops address intact (.ready index cpu) (.native next)
  | absoluteCall {index function : Nat} {cpu : Cpu} (found : ops[index]? = some (.absoluteCall function)) :
      Step processor ops address intact (.ready index cpu)
        (.native (called cpu (BitVec.ofNat 64 function) (point ops address index + 6)))
  | absoluteJump {index destination : Nat} {cpu : Cpu} (found : ops[index]? = some (.absoluteJump destination)) :
      Step processor ops address intact (.ready index cpu) (.native { cpu with rip := BitVec.ofNat 64 destination })
  | relativeJump {index destination : Nat} {cpu : Cpu} (found : ops[index]? = some (.relativeJump destination)) :
      Step processor ops address intact (.ready index cpu) (.native { cpu with rip := BitVec.ofNat 64 destination })
  | jumpTo {index target : Nat} {cpu : Cpu} {label : Label} (found : ops[index]? = some (.jumpTo label))
      (binds : Binds ops label target) :
      Step processor ops address intact (.ready index cpu) (.ready target cpu)
  | taken {index target : Nat} {cpu : Cpu} {condition : Condition} {label : Label}
      (found : ops[index]? = some (.jumpIf condition label)) (binds : Binds ops label target)
      (holds : condition.holds cpu.flags = true) :
      Step processor ops address intact (.ready index cpu) (.ready target cpu)
  | skipped {index : Nat} {cpu : Cpu} {condition : Condition} {label : Label}
      (found : ops[index]? = some (.jumpIf condition label)) (fails : condition.holds cpu.flags = false) :
      Step processor ops address intact (.ready index cpu) (.ready (index + 1) cpu)
  | finished {cpu : Cpu} :
      Step processor ops address intact (.ready ops.length cpu)
        (.native { cpu with rip := point ops address ops.length })
  | entered {index : Nat} {cpu : Cpu} {op : BuilderOp} (found : ops[index]? = some op) (nonempty : op.size ≠ 0)
      (place : cpu.rip = point ops address index) (kept : intact cpu.memory) :
      Step processor ops address intact (.native cpu) (.ready index cpu)
  | returned {index function : Nat} {cpu : Cpu} (found : ops[index]? = some (.absoluteCall function))
      (place : cpu.rip = point ops address index + 6) (kept : intact cpu.memory) :
      Step processor ops address intact (.native cpu) (.ready (index + 1) cpu)
  | elsewhere {cpu next : Cpu} (foreign : Foreign ops address cpu.rip) (moved : processor.step cpu next) :
      Step processor ops address intact (.native cpu) (.native next)

def Config.cpu (ops : List BuilderOp) (address : Nat) : Config → Cpu
  | .ready index cpu => { cpu with rip := point ops address index }
  | .native cpu => cpu

section

variable {ops : List BuilderOp} {index : Nat}

theorem Binds.unique {label : Label} {first second : Nat} (binds : Binds ops label first)
    (again : Binds ops label second) : first = second := by
  rcases Nat.lt_trichotomy first second with below | same | above
  · exact absurd (again.2.2 first below binds.1) (Nat.not_le.mpr binds.2.1)
  · exact same
  · exact absurd (binds.2.2 second above again.1) (Nat.not_le.mpr again.2.1)

variable {processor : Processor} {address : Nat} {intact : Contents → Prop} {cpu : Cpu}

theorem step_unique {next other : Config} (quiet : ∀ op, ops[index]? = some op → raw op = none ∨ op.size = 0)
    (moved : Step processor ops address intact (.ready index cpu) next)
    (again : Step processor ops address intact (.ready index cpu) other) : next = other := by
  cases moved <;> cases again <;> grind [BuilderOp.size, BuilderOp.literal, BuilderOp.target, Binds.unique]

theorem surely_quiet {next : Config} {goal : Config → Prop}
    (quiet : ∀ op, ops[index]? = some op → raw op = none ∨ op.size = 0)
    (moved : Step processor ops address intact (.ready index cpu) next)
    (rest : Surely (Step processor ops address intact) goal next) :
    Surely (Step processor ops address intact) goal (.ready index cpu) :=
  rest.head fun _ => ⟨fun again => step_unique quiet again moved, fun same => same ▸ moved⟩

end

end Program

def Condition.Compares (first second : Word) : Condition → Prop
  | .overflow => difference first second < -2 ^ 63 ∨ 2 ^ 63 ≤ difference first second
  | .notOverflow => -2 ^ 63 ≤ difference first second ∧ difference first second < 2 ^ 63
  | .below => first.toNat < second.toNat
  | .aboveOrEqual => second.toNat ≤ first.toNat
  | .equal => first = second
  | .notEqual => first ≠ second
  | .belowOrEqual => first.toNat ≤ second.toNat
  | .above => second.toNat < first.toNat
  | .sign => (first - second).toInt < 0
  | .notSign => 0 ≤ (first - second).toInt
  | .parity => evenParity (first - second) = true
  | .notParity => evenParity (first - second) = false
  | .less => first.toInt < second.toInt
  | .greaterOrEqual => second.toInt ≤ first.toInt
  | .lessOrEqual => first.toInt ≤ second.toInt
  | .greater => second.toInt < first.toInt

namespace Condition

theorem code_group (condition : Condition) : condition.code.toNat / 16 = 8 := by
  cases condition <;> rfl

theorem test_code (condition : Condition) (flags : Flags) :
    flags.test (condition.code.toNat % 16) = condition.holds flags := by
  cases condition <;> simp [Condition.code, Condition.holds, Flags.test]

theorem holds_subFlags (condition : Condition) (first second : Word) :
    condition.holds (subFlags first second) = true ↔ condition.Compares first second := by
  have zero := subFlags_zero first second
  have carry := subFlags_carry first second
  have overflow := subFlags_overflow first second
  have less := subFlags_less first second
  have sign : (subFlags first second).sign = true ↔ (first - second).toInt < 0 := by
    change (first - second).msb = true ↔ _
    rw [← BitVec.slt_zero_iff_msb_cond, BitVec.slt_iff_toInt_lt, BitVec.toInt_zero]
  have unsigned : first = second ↔ first.toNat = second.toNat := BitVec.toNat_inj.symm
  have signed : first = second ↔ first.toInt = second.toInt := BitVec.toInt_inj.symm
  have negated (flag : Bool) : (!flag) = true ↔ ¬ flag = true := by cases flag <;> decide
  cases condition <;> simp only [holds, Compares, negated, Bool.or_eq_true, zero, carry, overflow, less, sign]
  case notOverflow | aboveOrEqual | notSign | greaterOrEqual => omega
  case belowOrEqual | above =>
    rw [unsigned]
    omega
  case lessOrEqual | greater =>
    rw [signed]
    omega
  case parity => rfl
  case notParity => simp [subFlags]

end Condition

end Patchy
