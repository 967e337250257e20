import Mathlib.Algebra.Group.Nat.Defs
import Patchy.Shared.Procedure

set_option autoImplicit false

namespace Patchy

def hexAddress (address : Nat) : String :=
  "0x" ++ String.ofList (Nat.toDigits 16 address)

inductive PatchError where
  | addressOverflow
  | emptyPatch
  | emptyTrampoline
  | instructionCache (address : Nat) (error : String)
  | mapping (error : String)
  | moduleLookup (error : String)
  | noMemoryCave (hook : Nat) (lastError : Option String)
  | patchTooSmall (size minimum : Nat)
  | overlappingPatch (first second : Nat)
  | protection (address : Nat) (error : String)
  | relativeJumpOutOfRange (nextInstruction destination : Nat)
  | sourceChanged (address : Nat)
  | trampolineTooLarge (size capacity : Nat)
  | unexpectedTrampolineSize (expected actual : Nat)
  | invalidLabel (label : Nat)
  | labelAlreadyBound (label : Nat)
  | unboundLabel (label : Nat)
  deriving DecidableEq, Repr

def PatchError.message : PatchError → String
  | .addressOverflow => "address calculation overflowed"
  | .emptyPatch => "a patch must overwrite at least one byte"
  | .emptyTrampoline => "a detour trampoline cannot be empty"
  | .instructionCache address error =>
      "unable to flush the instruction cache at " ++ hexAddress address ++ ": " ++ error
  | .mapping error => "memory mapping failed: " ++ error
  | .moduleLookup error => "unable to find process module: " ++ error
  | .noMemoryCave hook lastError =>
      "no usable trampoline page found near " ++ hexAddress hook ++
        (lastError.map fun error => ": " ++ error).getD ""
  | .patchTooSmall size minimum =>
      "patch requires at least " ++ toString minimum ++ " source bytes, but received " ++ toString size
  | .overlappingPatch first second =>
      "patch at " ++ hexAddress second ++ " overlaps the patch prepared at " ++ hexAddress first
  | .protection address error =>
      "unable to change protection at " ++ hexAddress address ++ ": " ++ error
  | .relativeJumpOutOfRange nextInstruction destination =>
      "relative jump from " ++ hexAddress nextInstruction ++ " to " ++ hexAddress destination ++
        " exceeds 32 bits"
  | .sourceChanged address =>
      "patch source at " ++ hexAddress address ++ " changed while patches were being prepared"
  | .trampolineTooLarge size capacity =>
      "trampoline requires " ++ toString size ++ " bytes but a page holds only " ++ toString capacity
  | .unexpectedTrampolineSize expected actual =>
      "trampoline builder produced " ++ toString actual ++ " bytes instead of " ++ toString expected
  | .invalidLabel label => "trampoline label " ++ toString label ++ " does not belong to this builder"
  | .labelAlreadyBound label => "trampoline label " ++ toString label ++ " was bound more than once"
  | .unboundLabel label => "trampoline label " ++ toString label ++ " was never bound"

/-- A Rust call that does not return `Ok` either returns a `PatchError` or panics. -/
inductive Failure where
  | error (error : PatchError)
  | panic
  deriving DecidableEq, Repr

abbrev Result (α : Type) := Except Failure α

abbrev Result.err {α : Type} (error : PatchError) : Result α := .error (.error error)

def okOr {α : Type} (value : Option α) (error : PatchError) : Result α :=
  match value with
  | some value => .ok value
  | none => .err error

-- `usize` is 64 bits wide on the only supported target.
def usizeMax : Nat := 2 ^ 64 - 1

def checkedAdd (left right : Nat) : Option Nat :=
  if left + right ≤ usizeMax then some (left + right) else none

def checkedSub (left right : Nat) : Option Nat :=
  if right ≤ left then some (left - right) else none

theorem checkedAdd_some {left right sum : Nat} :
    checkedAdd left right = some sum ↔ left + right = sum ∧ sum ≤ usizeMax := by
  simp only [checkedAdd]
  split <;> simp <;> omega

theorem checkedAdd_none {left right : Nat} :
    checkedAdd left right = none ↔ usizeMax < left + right := by
  simp only [checkedAdd]
  split <;> simp <;> omega

theorem checkedSub_some {left right difference : Nat} :
    checkedSub left right = some difference ↔ right ≤ left ∧ left - right = difference := by
  simp only [checkedSub]
  split <;> simp <;> omega

@[simp] theorem okOr_ok {α : Type} {option : Option α} {error : PatchError} {value : α} :
    okOr option error = .ok value ↔ option = some value := by
  cases option <;> simp [okOr]

@[simp] theorem okOr_error {α : Type} {option : Option α} {error : PatchError} {failure : Failure} :
    okOr option error = .error failure ↔ option = none ∧ failure = .error error := by
  cases option <;> simp [okOr, eq_comm]

end Patchy
