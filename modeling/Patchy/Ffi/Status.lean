import Patchy.Core.Error

set_option autoImplicit false

namespace Patchy.Ffi

inductive PatchyStatus where
  | ok
  | invalidArgument
  | addressOverflow
  | emptyPatch
  | emptyTrampoline
  | sourceChanged
  | overlappingPatch
  | relativeJumpOutOfRange
  | allocationFailed
  | protectionFailed
  | instructionCacheFailed
  | moduleLookupFailed
  | patchTooSmall
  | invalidLabel
  | unexpectedTrampolineSize
  | panic
  | internalError
  deriving DecidableEq, Repr

structure FfiError where
  status : PatchyStatus
  message : String
  failed : status ≠ .ok
  deriving DecidableEq, Repr

def FfiError.invalid (message : String) : FfiError := ⟨.invalidArgument, message, by decide⟩

def PatchyStatus.ofPatchError (error : PatchError) : PatchyStatus :=
  match error with
  | .addressOverflow => .addressOverflow
  | .emptyPatch => .emptyPatch
  | .emptyTrampoline => .emptyTrampoline
  | .instructionCache _ _ => .instructionCacheFailed
  | .mapping _ | .noMemoryCave _ _ | .trampolineTooLarge _ _ => .allocationFailed
  | .moduleLookup _ => .moduleLookupFailed
  | .patchTooSmall _ _ => .patchTooSmall
  | .overlappingPatch _ _ => .overlappingPatch
  | .protection _ _ => .protectionFailed
  | .relativeJumpOutOfRange _ _ => .relativeJumpOutOfRange
  | .sourceChanged _ => .sourceChanged
  | .unexpectedTrampolineSize _ _ => .unexpectedTrampolineSize
  | .invalidLabel _ | .labelAlreadyBound _ | .unboundLabel _ => .invalidLabel

def FfiError.ofPatchError (error : PatchError) : FfiError :=
  ⟨.ofPatchError error, error.message, by cases error <;> simp [PatchyStatus.ofPatchError]⟩

def PatchyStatus.ofFailure : Failure → PatchyStatus
  | .error error => .ofPatchError error
  | .panic => .panic

theorem PatchyStatus.ofFailure_ne_ok (failure : Failure) : PatchyStatus.ofFailure failure ≠ .ok := by
  cases failure with
  | error error => exact (FfiError.ofPatchError error).failed
  | panic => decide

inductive FfiFailure where
  | error (error : FfiError)
  | panic
  deriving DecidableEq, Repr

def FfiFailure.ofFailure : Failure → FfiFailure
  | .error cause => .error (.ofPatchError cause)
  | .panic => .panic

inductive Pointer where
  | null
  | valid
  deriving DecidableEq, Repr

abbrev FfiResult (α : Type) := Except FfiFailure α

def invalid {α : Type} (message : String) : FfiResult α := .error (.error (.invalid message))

-- `set_last_error` spells out the NUL characters a C string cannot hold.
def lastErrorText (message : String) : String :=
  String.join (message.toList.map fun character =>
    if character.toNat = 0 then "\\0" else character.toString)

def PatchyStatus.ofFfiResult : FfiResult Unit → PatchyStatus
  | .ok () => .ok
  | .error (.error error) => error.status
  | .error .panic => .panic

structure FfiOutcome (σ : Type) where
  status : PatchyStatus
  lastError : String
  state : σ
  deriving DecidableEq, Repr

-- `payload` is what a panic carries, if that is a text.
def ffiCall {σ : Type} (payload : Option String) (operation : Procedure FfiFailure σ Unit) (state : σ) :
    FfiOutcome σ :=
  match operation.exec state with
  | (.ok (), state) => ⟨.ok, lastErrorText "", state⟩
  | (.error (.error error), state) => ⟨error.status, lastErrorText error.message, state⟩
  | (.error .panic, state) => ⟨.panic, lastErrorText (payload.getD "unknown Rust panic"), state⟩

section

variable {σ : Type} (payload : Option String) (operation : Procedure FfiFailure σ Unit) (state : σ)

theorem ffiCall_state : (ffiCall payload operation state).state = (operation.exec state).2 := by
  simp only [ffiCall]
  split <;> simp_all

theorem ffiCall_status :
    (ffiCall payload operation state).status = .ofFfiResult (operation.exec state).1 := by
  rcases ran : operation.exec state with ⟨(error | ⟨⟩) | ⟨⟩, after⟩ <;> simp only [ffiCall, ran] <;> rfl

theorem ffiCall_ok : (ffiCall payload operation state).status = .ok ↔ (operation.exec state).1 = .ok () := by
  rw [ffiCall_status]
  rcases (operation.exec state).1 with (error | ⟨⟩) | ⟨⟩
  · simp [PatchyStatus.ofFfiResult, error.failed]
  · simp [PatchyStatus.ofFfiResult]
  · simp [PatchyStatus.ofFfiResult]

end

end Patchy.Ffi
