import Patchy.Core.Arch

set_option autoImplicit false

namespace Patchy

structure Label where
  index : Nat
  deriving DecidableEq, Repr

inductive Condition where
  | overflow
  | notOverflow
  | below
  | aboveOrEqual
  | equal
  | notEqual
  | belowOrEqual
  | above
  | sign
  | notSign
  | parity
  | notParity
  | less
  | greaterOrEqual
  | lessOrEqual
  | greater
  deriving DecidableEq, Repr

def Condition.code : Condition → Byte
  | .overflow => 0x80
  | .notOverflow => 0x81
  | .below => 0x82
  | .aboveOrEqual => 0x83
  | .equal => 0x84
  | .notEqual => 0x85
  | .belowOrEqual => 0x86
  | .above => 0x87
  | .sign => 0x88
  | .notSign => 0x89
  | .parity => 0x8A
  | .notParity => 0x8B
  | .less => 0x8C
  | .greaterOrEqual => 0x8D
  | .lessOrEqual => 0x8E
  | .greater => 0x8F

inductive Target where
  | address (destination : Nat)
  | label (label : Label)
  deriving DecidableEq, Repr

structure RelativeFixup where
  displacementOffset : Nat
  nextInstructionOffset : Nat
  target : Target
  deriving DecidableEq, Repr

structure Trampoline where
  code : List Byte
  labels : List (Option Nat)
  relativeFixups : List RelativeFixup
  deriving DecidableEq, Repr

/-- `bytes[start..stop].copy_from_slice(source)`, which panics on a bad range or a length mismatch. -/
def copyFromSlice (bytes : List Byte) (start stop : Nat) (source : List Byte) : Result (List Byte) :=
  if start ≤ stop ∧ stop ≤ bytes.length ∧ stop - start = source.length then
    .ok (bytes.take start ++ source ++ bytes.drop stop)
  else .error .panic

namespace Trampoline

def new : Trampoline := ⟨[], [], []⟩

def len (self : Trampoline) : Nat := self.code.length

def bytes (self : Trampoline) (bytes : List Byte) : Trampoline :=
  { self with code := self.code ++ bytes }

def newLabel (self : Trampoline) : Label × Trampoline :=
  (⟨self.labels.length⟩, { self with labels := self.labels ++ [none] })

def bind (self : Trampoline) (label : Label) : Result Unit × Trampoline :=
  match self.labels[label.index]? with
  | none => (.err (.invalidLabel label.index), self)
  | some (some _) => (.err (.labelAlreadyBound label.index), self)
  | some none => (.ok (), { self with labels := self.labels.set label.index (some self.code.length) })

def absoluteCall (self : Trampoline) (function : Nat) : Trampoline :=
  { self with
    code := self.code ++ [0xFF, 0x15, 0x02, 0x00, 0x00, 0x00, 0xEB, 0x08] ++ usizeBytes function }

def absoluteJump (self : Trampoline) (destination : Nat) : Trampoline :=
  { self with
    code := self.code ++ [0xFF, 0x25, 0x00, 0x00, 0x00, 0x00] ++ usizeBytes destination }

def pushRelativeFixup (self : Trampoline) (target : Target) : Trampoline :=
  let displacementOffset := self.code.length
  let code := self.code ++ [0, 0, 0, 0]
  { self with
    code := code
    relativeFixups := self.relativeFixups ++ [⟨displacementOffset, code.length, target⟩] }

def relativeJump (self : Trampoline) (destination : Nat) : Trampoline :=
  { self with code := self.code ++ [0xE9] }.pushRelativeFixup (.address destination)

def jumpTo (self : Trampoline) (label : Label) : Trampoline :=
  { self with code := self.code ++ [0xE9] }.pushRelativeFixup (.label label)

def jumpIf (self : Trampoline) (condition : Condition) (label : Label) : Trampoline :=
  { self with code := self.code ++ [0x0F, condition.code] }.pushRelativeFixup (.label label)

def preservedCall (self : Trampoline) (function : Nat) (argumentSetup resultHandling : List Byte)
    (allowReturn : ReturnType) : Trampoline :=
  { self with
    code := Arch.pushPreservedCall self.code function argumentSetup resultHandling allowReturn }

-- The destination a fixup asks for when the trampoline is placed at `address`.
def resolve (self : Trampoline) (address : Nat) : Target → Result Nat
  | .address destination => .ok destination
  | .label label =>
      match self.labels[label.index]? with
      | none => .err (.invalidLabel label.index)
      | some none => .err (.unboundLabel label.index)
      | some (some position) => okOr (checkedAdd address position) .addressOverflow

def displacement (self : Trampoline) (address : Nat) (fixup : RelativeFixup) : Result Int := do
  let target ← self.resolve address fixup.target
  let nextInstruction ← okOr (checkedAdd address fixup.nextInstructionOffset) .addressOverflow
  relativeOffset nextInstruction target

-- The loop of `build`, with the code patched so far as its accumulator.
def applyFixups (self : Trampoline) (address : Nat) : List RelativeFixup → List Byte → Result (List Byte)
  | [], code => .ok code
  | fixup :: rest, code => do
      let displacement ← self.displacement address fixup
      let code ← copyFromSlice code fixup.displacementOffset (fixup.displacementOffset + 4)
        (i32Bytes displacement)
      self.applyFixups address rest code

def build (self : Trampoline) (address : Nat) : Result (List Byte) :=
  self.applyFixups address self.relativeFixups self.code

end Trampoline

end Patchy
