import Patchy.Core.Trampoline
import Patchy.Ffi.Status

set_option autoImplicit false

namespace Patchy.Ffi

structure PatchyTrampoline where
  inner : Trampoline
  labels : List Label
  deriving DecidableEq, Repr

structure CallState where
  trampoline : PatchyTrampoline
  output : Option Nat
  deriving DecidableEq, Repr

abbrev FfiM (α : Type) := Procedure FfiFailure CallState α

abbrev BytePointer := Option (Nat → Byte)

def requireTrampoline : Pointer → FfiM PatchyTrampoline
  | .null => Procedure.ofExcept (invalid "trampoline must not be null")
  | .valid => do return (← get).trampoline

def requireBytes (bytes : BytePointer) (length : Nat) (name : String) : FfiResult (List Byte) :=
  if length = 0 then .ok []
  else
    match bytes with
    | none => invalid (name ++ " must not be null when length is nonzero")
    | some contents => .ok ((List.range length).map contents)

def writeRequired (output : Pointer) (value : Nat) (name : String) : FfiM Unit :=
  match output with
  | .null => Procedure.ofExcept (invalid (name ++ " must not be null"))
  | .valid => modify fun state => { state with output := some value }

def parseReturnType : Nat → FfiResult ReturnType
  | 0 => .ok .none
  | 1 => .ok .rax
  | 2 => .ok .xmm0
  | _ => invalid "invalid patchy_return_type value"

def parseCondition : Nat → FfiResult Condition
  | 0 => .ok .overflow
  | 1 => .ok .notOverflow
  | 2 => .ok .below
  | 3 => .ok .aboveOrEqual
  | 4 => .ok .equal
  | 5 => .ok .notEqual
  | 6 => .ok .belowOrEqual
  | 7 => .ok .above
  | 8 => .ok .sign
  | 9 => .ok .notSign
  | 10 => .ok .parity
  | 11 => .ok .notParity
  | 12 => .ok .less
  | 13 => .ok .greaterOrEqual
  | 14 => .ok .lessOrEqual
  | 15 => .ok .greater
  | _ => invalid "invalid patchy_condition value"

def lookupLabel (trampoline : PatchyTrampoline) (label : Nat) : FfiResult Label :=
  match trampoline.labels[label]? with
  | some label => .ok label
  | none => invalid "label does not belong to this trampoline"

def setInner (inner : Trampoline) : FfiM Unit :=
  modify fun state => { state with trampoline := { state.trampoline with inner := inner } }

def pushLabel (label : Label) : FfiM Unit :=
  modify fun state =>
    { state with trampoline := { state.trampoline with labels := state.trampoline.labels ++ [label] } }

def u32Max : Nat := 2 ^ 32 - 1

def length (trampoline outputLength : Pointer) : FfiM Unit := do
  let trampoline ← requireTrampoline trampoline
  writeRequired outputLength trampoline.inner.len "output length"

def addBytes (trampoline : Pointer) (bytes : BytePointer) (length : Nat) : FfiM Unit := do
  let trampoline ← requireTrampoline trampoline
  let bytes ← Procedure.ofExcept (requireBytes bytes length "bytes")
  setInner (trampoline.inner.bytes bytes)

def newLabel (trampoline outputLabel : Pointer) : FfiM Unit := do
  let trampoline ← requireTrampoline trampoline
  let index := trampoline.labels.length
  if u32Max < index then Procedure.ofExcept (invalid "too many trampoline labels")
  else
    let (label, inner) := trampoline.inner.newLabel
    setInner inner
    pushLabel label
    writeRequired outputLabel index "output label"

def bind (trampoline : Pointer) (label : Nat) : FfiM Unit := do
  let trampoline ← requireTrampoline trampoline
  let label ← Procedure.ofExcept (lookupLabel trampoline label)
  let (result, inner) := trampoline.inner.bind label
  setInner inner
  match result with
  | .ok () => return ()
  | .error failure => throw (.ofFailure failure)

def absoluteCall (trampoline : Pointer) (function : Nat) : FfiM Unit := do
  if function = 0 then Procedure.ofExcept (invalid "function must not be null")
  else
    let trampoline ← requireTrampoline trampoline
    setInner (trampoline.inner.absoluteCall function)

def absoluteJump (trampoline : Pointer) (destination : Nat) : FfiM Unit := do
  let trampoline ← requireTrampoline trampoline
  setInner (trampoline.inner.absoluteJump destination)

def relativeJump (trampoline : Pointer) (destination : Nat) : FfiM Unit := do
  let trampoline ← requireTrampoline trampoline
  setInner (trampoline.inner.relativeJump destination)

def jumpTo (trampoline : Pointer) (label : Nat) : FfiM Unit := do
  let trampoline ← requireTrampoline trampoline
  let label ← Procedure.ofExcept (lookupLabel trampoline label)
  setInner (trampoline.inner.jumpTo label)

def jumpIf (trampoline : Pointer) (condition label : Nat) : FfiM Unit := do
  let condition ← Procedure.ofExcept (parseCondition condition)
  let trampoline ← requireTrampoline trampoline
  let label ← Procedure.ofExcept (lookupLabel trampoline label)
  setInner (trampoline.inner.jumpIf condition label)

def preservedCall (trampoline : Pointer) (function : Nat) (argumentSetup : BytePointer)
    (argumentSetupLength : Nat) (resultHandling : BytePointer) (resultHandlingLength returnType : Nat) :
    FfiM Unit := do
  if function = 0 then Procedure.ofExcept (invalid "function must not be null")
  else
    let returnType ← Procedure.ofExcept (parseReturnType returnType)
    let trampoline ← requireTrampoline trampoline
    let argumentSetup ← Procedure.ofExcept (requireBytes argumentSetup argumentSetupLength "argument setup")
    let resultHandling ← Procedure.ofExcept (requireBytes resultHandling resultHandlingLength "result handling")
    setInner (trampoline.inner.preservedCall function argumentSetup resultHandling returnType)

inductive Call where
  | length (trampoline outputLength : Pointer)
  | addBytes (trampoline : Pointer) (bytes : BytePointer) (length : Nat)
  | newLabel (trampoline outputLabel : Pointer)
  | bind (trampoline : Pointer) (label : Nat)
  | absoluteCall (trampoline : Pointer) (function : Nat)
  | absoluteJump (trampoline : Pointer) (destination : Nat)
  | relativeJump (trampoline : Pointer) (destination : Nat)
  | jumpTo (trampoline : Pointer) (label : Nat)
  | jumpIf (trampoline : Pointer) (condition label : Nat)
  | preservedCall (trampoline : Pointer) (function : Nat) (argumentSetup : BytePointer)
      (argumentSetupLength : Nat) (resultHandling : BytePointer) (resultHandlingLength returnType : Nat)

def Call.operation : Call → FfiM Unit
  | .length trampoline outputLength => Ffi.length trampoline outputLength
  | .addBytes trampoline bytes count => Ffi.addBytes trampoline bytes count
  | .newLabel trampoline outputLabel => Ffi.newLabel trampoline outputLabel
  | .bind trampoline label => Ffi.bind trampoline label
  | .absoluteCall trampoline function => Ffi.absoluteCall trampoline function
  | .absoluteJump trampoline destination => Ffi.absoluteJump trampoline destination
  | .relativeJump trampoline destination => Ffi.relativeJump trampoline destination
  | .jumpTo trampoline label => Ffi.jumpTo trampoline label
  | .jumpIf trampoline condition label => Ffi.jumpIf trampoline condition label
  | .preservedCall trampoline function setup setupLength handling handlingLength returnType =>
      Ffi.preservedCall trampoline function setup setupLength handling handlingLength returnType

structure CallResult where
  status : PatchyStatus
  trampoline : PatchyTrampoline
  output : Option Nat
  deriving DecidableEq, Repr

def Call.run (call : Call) (trampoline : PatchyTrampoline) : CallResult :=
  let outcome := ffiCall none call.operation ⟨trampoline, none⟩
  ⟨outcome.status, outcome.state.trampoline, outcome.state.output⟩

def create : PatchyTrampoline := ⟨Trampoline.new, []⟩

end Patchy.Ffi
