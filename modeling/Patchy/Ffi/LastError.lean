import Patchy.Ffi.Abi

set_option autoImplicit false

namespace Patchy.Ffi

def Speaks : FfiFailure → Prop
  | .error error => error.message ≠ ""
  | .panic => True

theorem speaks_append {left right : String} (speaks : left ≠ "") : left ++ right ≠ "" :=
  fun empty => speaks (String.append_eq_empty_iff.mp empty).1

theorem message_speaks (error : PatchError) : error.message ≠ "" := by
  cases error with
  | addressOverflow | emptyPatch | emptyTrampoline => decide
  | mapping | moduleLookup => exact speaks_append (by decide)
  | noMemoryCave | sourceChanged | invalidLabel | labelAlreadyBound | unboundLabel =>
    exact speaks_append (speaks_append (by decide))
  | instructionCache | protection | patchTooSmall | overlappingPatch | trampolineTooLarge | unexpectedTrampolineSize =>
    exact speaks_append (speaks_append (speaks_append (by decide)))
  | relativeJumpOutOfRange => exact speaks_append (speaks_append (speaks_append (speaks_append (by decide))))

theorem ofFailure_speaks (failure : Failure) : Speaks (.ofFailure failure) := by
  cases failure with
  | error error => exact message_speaks error
  | panic => trivial

section

variable {σ α : Type}

theorem throws_ofExcept {result : FfiResult α} (speaks : ∀ failure, result = .error failure → Speaks failure) :
    (Procedure.ofExcept result : Procedure FfiFailure σ α).Throws Speaks :=
  fun _ _ error run => speaks error (Prod.mk.inj run).1

theorem throws_invalid {text : String} (speaks : text ≠ "") :
    (Procedure.ofExcept (invalid text) : Procedure FfiFailure σ α).Throws Speaks := by
  refine throws_ofExcept ?_
  rintro _ ⟨⟩
  exact speaks

theorem throws_modify (change : σ → σ) : (modify change : Procedure FfiFailure σ PUnit).Throws Speaks := by
  intro before after error run
  simp at run

theorem throws_get_bind {next : σ → Procedure FfiFailure σ α} (speaks : ∀ state, (next state).Throws Speaks) :
    ((get : Procedure FfiFailure σ σ) >>= next).Throws Speaks :=
  fun before _ _ run => speaks before run

theorem throws_requireBytes (bytes : BytePointer) (count : Nat) {name : String} (named : name ≠ "") :
    (Procedure.ofExcept (requireBytes bytes count name) : Procedure FfiFailure σ (List Byte)).Throws Speaks := by
  simp only [requireBytes]
  split
  · exact throws_ofExcept fun _ refused => by contradiction
  · cases bytes with
    | none => exact throws_invalid (speaks_append named)
    | some contents => exact throws_ofExcept fun _ refused => by contradiction

theorem throws_parseReturnType (value : Nat) :
    (Procedure.ofExcept (parseReturnType value) : Procedure FfiFailure σ ReturnType).Throws Speaks := by
  unfold parseReturnType
  split <;> first | exact throws_invalid (by decide) | exact throws_ofExcept fun _ refused => by contradiction

theorem throws_parseCondition (value : Nat) :
    (Procedure.ofExcept (parseCondition value) : Procedure FfiFailure σ Condition).Throws Speaks := by
  unfold parseCondition
  split <;> first | exact throws_invalid (by decide) | exact throws_ofExcept fun _ refused => by contradiction

theorem throws_parseReplay (value : Nat) :
    (Procedure.ofExcept (parseReplay value) : Procedure FfiFailure σ Bool).Throws Speaks := by
  unfold parseReplay
  split <;> first | exact throws_invalid (by decide) | exact throws_ofExcept fun _ refused => by contradiction

theorem throws_lookupLabel (handle : PatchyTrampoline) (label : Nat) :
    (Procedure.ofExcept (lookupLabel handle label) : Procedure FfiFailure σ Label).Throws Speaks := by
  unfold lookupLabel
  split <;> first | exact throws_invalid (by decide) | exact throws_ofExcept fun _ refused => by contradiction

end

theorem requireTrampoline_speaks (trampoline : Pointer) : (requireTrampoline trampoline).Throws Speaks := by
  cases trampoline with
  | null => exact throws_invalid (by decide)
  | valid =>
    intro before after error run
    simp [requireTrampoline, Except.map] at run

theorem writeRequired_speaks (output : Pointer) (value : Nat) {name : String} (named : name ≠ "") :
    (writeRequired output value name).Throws Speaks := by
  cases output with
  | null => exact throws_invalid (speaks_append named)
  | valid => exact throws_modify _

theorem newLabel_speaks (trampoline output : Pointer) : (newLabel trampoline output).Throws Speaks := by
  refine (requireTrampoline_speaks trampoline).bind fun handle => ?_
  by_cases many : u32Max < handle.labels.length
  · simp only [many, if_true]
    exact throws_invalid (by decide)
  · simp only [many, if_false]
    exact (throws_modify _).bind fun _ => (throws_modify _).bind fun _ => writeRequired_speaks _ _ (by decide)

theorem bind_speaks (trampoline : Pointer) (label : Nat) : (bind trampoline label).Throws Speaks := by
  refine (requireTrampoline_speaks trampoline).bind fun handle => (throws_lookupLabel _ _).bind fun found => ?_
  rcases handle.inner.bind found with ⟨failure | ⟨⟩, inner⟩
  · exact (throws_modify _).bind fun _ => Procedure.throws_throw (ofFailure_speaks failure)
  · exact (throws_modify _).bind fun _ => Procedure.throws_pure _

theorem operation_speaks (call : Call) : call.operation.Throws Speaks := by
  cases call with
  | length trampoline output =>
    exact (requireTrampoline_speaks trampoline).bind fun _ => writeRequired_speaks _ _ (by decide)
  | addBytes trampoline bytes count =>
    exact (requireTrampoline_speaks trampoline).bind fun _ => (throws_requireBytes _ _ (by decide)).bind fun _ =>
      throws_modify _
  | newLabel trampoline output => exact newLabel_speaks trampoline output
  | bind trampoline label => exact bind_speaks trampoline label
  | absoluteCall trampoline function =>
    simp only [Call.operation, absoluteCall]
    split
    · exact throws_invalid (by decide)
    · exact (requireTrampoline_speaks trampoline).bind fun _ => throws_modify _
  | absoluteJump trampoline destination | relativeJump trampoline destination =>
    exact (requireTrampoline_speaks trampoline).bind fun _ => throws_modify _
  | jumpTo trampoline label =>
    exact (requireTrampoline_speaks trampoline).bind fun _ => (throws_lookupLabel _ _).bind fun _ => throws_modify _
  | jumpIf trampoline condition label =>
    exact (throws_parseCondition _).bind fun _ => (requireTrampoline_speaks trampoline).bind fun _ =>
      (throws_lookupLabel _ _).bind fun _ => throws_modify _
  | preservedCall trampoline function setup setupLength handling handlingLength returnType =>
    simp only [Call.operation, preservedCall]
    split
    · exact throws_invalid (by decide)
    · exact (throws_parseReturnType _).bind fun _ => (requireTrampoline_speaks trampoline).bind fun _ =>
        (throws_requireBytes _ _ (by decide)).bind fun _ => (throws_requireBytes _ _ (by decide)).bind fun _ =>
          throws_modify _

theorem ofResult_speaks {α : Type} (result : Result α) : (ofResult result).Throws Speaks := by
  refine throws_ofExcept fun failure reported => ?_
  cases result with
  | ok value => contradiction
  | error cause => exact Except.error.inj reported ▸ ofFailure_speaks cause

theorem requireSession_speaks (session : Nat) : (requireSession session).Throws Speaks := by
  simp only [requireSession]
  split
  · exact throws_invalid (by decide)
  · refine throws_get_bind fun state => ?_
    split
    · exact Procedure.throws_pure _
    · exact Procedure.throws_throw trivial

theorem requireHandle_speaks (trampoline : Nat) : (requireHandle trampoline).Throws Speaks := by
  simp only [requireHandle]
  split
  · exact throws_invalid (by decide)
  · refine throws_get_bind fun state => ?_
    split
    · exact Procedure.throws_pure _
    · exact Procedure.throws_throw trivial

theorem onSession_speaks (session : Nat) (inner : PatchSession) (method : SessionM Patch) :
    (onSession session inner method).Throws Speaks :=
  throws_get_bind fun _ => (throws_modify _).bind fun _ => ofResult_speaks _

theorem writeOptional_speaks (output : Pointer) (value : Nat) : (writeOptional output value).Throws Speaks := by
  cases output with
  | null => exact Procedure.throws_pure _
  | valid => exact throws_modify _

theorem writeChecked_speaks (output : Pointer) (value : Nat) {name : String} (named : name ≠ "") :
    (writeChecked output value name).Throws Speaks := by
  cases output with
  | null => exact throws_invalid (speaks_append named)
  | valid => exact throws_modify _

theorem call_operation_speaks (platform : Platform) (call : AbiCall) : (call.operation platform).Throws Speaks := by
  -- Each call is a sequence of parts that either are silent or fail with a text.
  cases call with
  | sessionCreate output allocated | trampolineCreate output allocated =>
    cases output with
    | null => exact throws_invalid (by decide)
    | valid => exact (throws_modify _).bind fun _ => throws_modify _
  | sessionDestroy session =>
    simp only [AbiCall.operation, sessionDestroy]
    split
    · exact Procedure.throws_pure _
    · exact throws_modify _
  | trampolineDestroy builder =>
    simp only [AbiCall.operation, trampolineDestroy]
    split
    · exact Procedure.throws_pure _
    · exact throws_modify _
  | sessionOverwrite session address bytes length =>
    exact (requireSession_speaks _).bind fun _ => (throws_requireBytes _ _ (by decide)).bind fun _ =>
      (onSession_speaks _ _ _).bind fun _ => Procedure.throws_pure _
  | sessionPatchCall oracle session address function size replayOverwritten returnType output =>
    simp only [AbiCall.operation, sessionPatchCall]
    split
    · exact throws_invalid (by decide)
    · exact (throws_parseReplay _).bind fun _ => (throws_parseReturnType _).bind fun _ =>
        (requireSession_speaks _).bind fun _ => (onSession_speaks _ _ _).bind fun _ => writeOptional_speaks _ _
  | sessionDetour oracle session address size bytes length output =>
    exact (requireSession_speaks _).bind fun _ => (throws_requireBytes _ _ (by decide)).bind fun _ =>
      (onSession_speaks _ _ _).bind fun _ => writeOptional_speaks _ _
  | sessionDetourTrampoline oracle session address size builder output =>
    exact (requireSession_speaks _).bind fun _ => (requireHandle_speaks _).bind fun _ =>
      (onSession_speaks _ _ _).bind fun _ => writeOptional_speaks _ _
  | sessionInstallPermanently environment pointer session =>
    cases pointer with
    | null => exact throws_invalid (by decide)
    | valid =>
      exact (requireSession_speaks _).bind fun _ => (throws_modify _).bind fun _ => (throws_modify _).bind fun _ =>
        throws_get_bind fun _ => (throws_modify _).bind fun _ => ofResult_speaks _
  | mainModuleBase lookup output => exact (ofResult_speaks _).bind fun _ => writeChecked_speaks _ _ (by decide)
  | resolveRva moduleBase rva output => exact (ofResult_speaks _).bind fun _ => writeChecked_speaks _ _ (by decide)
  | trampoline builder call =>
    have builders {state : CallState} (failure : FfiFailure) (failed : (call.operation.exec state).1 = .error failure) :
        Speaks failure := operation_speaks call (Prod.ext failed rfl)
    refine throws_get_bind fun state => ?_
    split
    · refine Procedure.Throws.bind (fun before after error run => by simp at run) fun _ => ?_
      exact throws_ofExcept builders
    · exact throws_ofExcept builders

theorem lastErrorText_toList (message : String) : (lastErrorText message).toList =
    message.toList.flatMap fun character => if character.toNat = 0 then ['\\', '0'] else [character] := by
  rw [lastErrorText, String.toList_join, List.flatMap_map]
  congr 1
  funext character
  split <;> simp

theorem lastErrorText_terminated (message : String) : ∀ character ∈ (lastErrorText message).toList,
    character.toNat ≠ 0 := by
  rw [lastErrorText_toList]
  intro character member
  obtain ⟨original, -, piece⟩ := List.mem_flatMap.mp member
  split at piece
  · rcases List.mem_pair.mp piece with rfl | rfl <;> decide
  next visible => rwa [List.mem_singleton.mp piece]

theorem lastErrorText_empty (message : String) : lastErrorText message = "" ↔ message = "" := by
  rw [← String.toList_inj, lastErrorText_toList, ← String.toList_inj]
  constructor
  · intro empty
    cases characters : message.toList with
    | nil => rfl
    | cons first rest =>
      rw [characters, List.flatMap_cons] at empty
      split at empty <;> simp at empty
  · intro empty
    rw [empty]
    rfl

namespace Abi

variable (platform : Platform)

def run (self : Abi) (calls : List (Nat × AbiCall)) : Abi :=
  calls.foldl (fun abi operation => (abi.call platform operation.1 operation.2).2) self

theorem call_lastError (self : Abi) (thread : Nat) (call : AbiCall) :
    let ran := self.call platform thread call
    (∀ other, other ≠ thread → ran.2.lastErrorMessage other = self.lastErrorMessage other) ∧
      (ran.1.status = .ok → ran.2.lastErrorMessage thread = "") ∧
      (ran.1.status ≠ .ok → ran.1.status ≠ .panic → ran.2.lastErrorMessage thread ≠ "") ∧
      ∀ character ∈ (ran.2.lastErrorMessage thread).toList, character.toNat ≠ 0 := by
  intro ran
  refine ⟨fun other different => Function.update_of_ne different _ _, ?_⟩
  have own : ran.2.lastErrorMessage thread =
      (ffiCall (self.panics call ⟨self.process, self.handles, none⟩) (call.operation platform)
        ⟨self.process, self.handles, none⟩).lastError := Function.update_self _ _ _
  have speaks := call_operation_speaks platform call
  rw [own]
  simp only [ran, Abi.call, ffiCall]
  rcases done : (call.operation platform).exec ⟨self.process, self.handles, none⟩ with ⟨(error | ⟨⟩) | ⟨⟩, after⟩
  · refine ⟨fun ok => absurd ok error.failed, fun _ _ empty => ?_, lastErrorText_terminated _⟩
    exact speaks done ((lastErrorText_empty _).mp empty)
  · exact ⟨by simp, fun _ other => absurd rfl other, lastErrorText_terminated _⟩
  · exact ⟨fun _ => rfl, fun failed => absurd rfl failed, lastErrorText_terminated _⟩

theorem run_lastError (self : Abi) {thread : Nat} (calls : List (Nat × AbiCall))
    (others : ∀ operation ∈ calls, operation.1 ≠ thread) :
    (self.run platform calls).lastErrorMessage thread = self.lastErrorMessage thread := by
  induction calls generalizing self with
  | nil => rfl
  | cons operation rest ih =>
    have first := (call_lastError platform self operation.1 operation.2).1 thread
      (others operation List.mem_cons_self).symm
    exact (ih _ fun later member => others later (List.mem_cons_of_mem _ member)).trans first

/-- The error message of a thread is that of its latest call, whatever other threads call meanwhile: none if that call
    succeeded, a text that C sees to its end if it failed. -/
theorem last_error_own (memory : ProcessMemory) (protection : Nat → Nat)
    (panics : AbiCall → AbiState → Option String) (thread : Nat) :
    (∀ calls, (∀ operation ∈ calls, operation.1 ≠ thread) →
      ((initial memory protection panics).run platform calls).lastErrorMessage thread = "") ∧
    ∀ before call after, (∀ operation ∈ after, operation.1 ≠ thread) →
      let answered := ((initial memory protection panics).run platform before).call platform thread call
      let message :=
        ((initial memory protection panics).run platform (before ++ (thread, call) :: after)).lastErrorMessage thread
      message = answered.2.lastErrorMessage thread ∧ (answered.1.status = .ok → message = "") ∧
        (answered.1.status ≠ .ok → answered.1.status ≠ .panic → message ≠ "") ∧
        ∀ character ∈ message.toList, character.toNat ≠ 0 := by
  refine ⟨fun calls others => run_lastError platform _ calls others, fun before call after others => ?_⟩
  intro answered message
  have latest : message = answered.2.lastErrorMessage thread := by
    simp only [message, run, List.foldl_append, List.foldl_cons]
    exact run_lastError platform _ after others
  rw [latest]
  exact ⟨rfl, (call_lastError platform _ thread call).2⟩

end Abi

end Patchy.Ffi
