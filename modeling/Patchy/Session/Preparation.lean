import Patchy.Session.Slots
import Patchy.Session.Overlap

set_option autoImplicit false

namespace Patchy

inductive Preparation where
  | overwrite (address : Nat) (data : List Byte)
  | patchCall (address function size : Nat) (saveOverwritten : Bool) (allowReturn : ReturnType)
  | detour (address size : Nat) (trampoline : List Byte)
  | detourTrampoline (address size : Nat) (trampoline : Trampoline)
  | detourWith (address size trampolineSize : Nat) (build : Builder)

namespace Preparation

def run (platform : Platform) (oracle : MappingOracle) : Preparation → SessionM Patch
  | .overwrite address data => PatchSession.overwrite address data
  | .patchCall address function size saveOverwritten allowReturn =>
      PatchSession.patchCall platform oracle address function size saveOverwritten allowReturn
  | .detour address size trampoline => PatchSession.detour platform oracle address size trampoline
  | .detourTrampoline address size trampoline =>
      PatchSession.detourTrampoline platform oracle address size trampoline
  | .detourWith address size trampolineSize build =>
      PatchSession.detourWith platform oracle address size trampolineSize build

def source : Preparation → InstalledPatch
  | .overwrite address data => ⟨address, data.length⟩
  | .patchCall address _ size _ _ | .detour address size _ | .detourTrampoline address size _
  | .detourWith address size _ _ => ⟨address, size⟩

def trampoline (memory : ProcessMemory) : Preparation → Option (Nat × Builder)
  | .overwrite _ _ => none
  | .patchCall address function size saveOverwritten allowReturn =>
      let code := PatchSession.callPrefix (Memory.readAt memory address size) function saveOverwritten allowReturn
      let trampoline := code ++ [nearJump, 0, 0, 0, 0]
      some (trampoline.length, PatchSession.callBuilder trampoline (code.length + 1) (address + size))
  | .detour _ _ code => some (code.length, fun _ => .ok code)
  | .detourTrampoline _ _ trampoline => some (trampoline.len, trampoline.build)
  | .detourWith _ _ trampolineSize build => some (trampolineSize, build)

def detours : Preparation → Bool
  | .overwrite _ _ => false
  | .patchCall _ _ _ _ _ | .detour _ _ _ | .detourTrampoline _ _ _ | .detourWith _ _ _ _ => true

end Preparation

theorem resize_length (bytes : List Byte) (size : Nat) (fill : Byte) : (resize bytes size fill).length = size := by
  simp only [resize, List.length_append, List.length_take, List.length_replicate]
  omega

theorem buildNearJump_ok {source destination size : Nat} {jump : List Byte}
    (built : buildNearJump source destination size = .ok jump) :
    jump.length = size ∧ ∃ displacement : Int, i32Min ≤ displacement ∧ displacement ≤ i32Max ∧
      (source : Int) + 5 + displacement = destination ∧
      jump = nearJump :: i32Bytes displacement ++ List.replicate (size - 5) 0x90 := by
  simp only [buildNearJump] at built
  split at built
  next => contradiction
  next large =>
    cases next : checkedAdd source nearJumpSize with
    | none => simp [next, okOr, bind, Except.bind] at built
    | some nextInstruction =>
      obtain ⟨rfl, -⟩ := checkedAdd_some.mp next
      cases reach : relativeOffset (source + nearJumpSize) destination with
      | error failure => simp [next, okOr, reach, bind, Except.bind] at built
      | ok displacement =>
        simp only [next, okOr, reach, bind, Except.bind, Except.ok.injEq] at built
        obtain ⟨sum, low, high⟩ := relativeOffset_ok.mp reach
        have whole : (nearJump :: i32Bytes displacement).take size = nearJump :: i32Bytes displacement :=
          List.take_of_length_le (by simpa [nearJumpSize] using large)
        refine ⟨by rw [← built, resize_length], displacement, low, high, by simpa [nearJumpSize] using sum, ?_⟩
        rw [← built, resize, whole]
        simp

theorem buildNearJump_total {source destination size : Nat} {displacement : Int} (room : nearJumpSize ≤ size)
    (bounded : source + size ≤ usizeMax)
    (reachable : relativeOffset (source + nearJumpSize) destination = .ok displacement) :
    ∃ jump, buildNearJump source destination size = .ok jump := by
  have next : checkedAdd source nearJumpSize = some (source + nearJumpSize) :=
    checkedAdd_some.mpr ⟨rfl, by omega⟩
  have large : ¬ size < nearJumpSize := Nat.not_lt.mpr room
  simp [buildNearJump, large, next, okOr, reachable, bind, Except.bind]

namespace PatchSession

theorem ensurePatchDoesNotOverlap_bounded {self : PatchSession} {address size : Nat}
    (accepted : self.ensurePatchDoesNotOverlap address size = .ok ()) : address + size ≤ usizeMax := by
  simp only [ensurePatchDoesNotOverlap] at accepted
  split at accepted
  next => contradiction
  next =>
    cases stop : checkedAdd address size with
    | none => simp [stop, okOr, bind, Except.bind] at accepted
    | some sum =>
      obtain ⟨rfl, bounded⟩ := checkedAdd_some.mp stop
      exact bounded

inductive Prepared (platform : Platform) (oracle : MappingOracle) (preparation : Preparation) (before : Workspace) :
    Patch → Workspace → Prop
  | overwritten {address : Nat} {data : List Byte} (same : preparation = .overwrite address data)
      (accepted : before.session.ensurePatchDoesNotOverlap address data.length = .ok ()) :
      Prepared platform oracle preparation before ⟨none⟩
        { before with session := { before.session with pending := before.session.pending ++
          [⟨address, Memory.readAt before.memory address data.length, data⟩] } }
  | detoured {trampolineSize trampolineAddress : Nat} {build : Builder} {jump : List Byte} {middle : Workspace}
      (asked : preparation.trampoline before.memory = some (trampolineSize, build))
      (accepted : before.session.ensurePatchDoesNotOverlap preparation.source.address preparation.source.size =
        .ok ())
      (placed : Placed platform oracle (preparation.source.address + nearJumpSize) trampolineSize build before
        middle trampolineAddress)
      (jumps : buildNearJump preparation.source.address trampolineAddress preparation.source.size = .ok jump) :
      Prepared platform oracle preparation before ⟨some trampolineAddress⟩
        { middle with session := { middle.session with pending := middle.session.pending ++
          [⟨preparation.source.address,
            Memory.readAt before.memory preparation.source.address preparation.source.size, jump⟩] } }

def Concludes (platform : Platform) (oracle : MappingOracle) (preparation : Preparation) (before : Workspace) :
    Result Patch × Workspace → Prop
  | (.error _, after) => after = before
  | (.ok patch, after) => Prepared platform oracle preparation before patch after

theorem prepareDetour_records {platform : Platform} {oracle : MappingOracle} {address trampolineSize : Nat}
    {overwritten : List Byte} {build : Builder} {before middle : Workspace} {trampolineAddress : Nat}
    (room : nearJumpSize ≤ overwritten.length)
    (accepted : before.session.ensurePatchDoesNotOverlap address overwritten.length = .ok ())
    (allocated : (allocateTrampoline platform oracle address trampolineSize build).exec before =
      (.ok trampolineAddress, middle)) :
    ∃ jump, buildNearJump address trampolineAddress overwritten.length = .ok jump ∧
      (prepareDetour platform oracle address overwritten trampolineSize build).exec before =
        (.ok ⟨some trampolineAddress⟩, { middle with session := { middle.session with pending :=
          middle.session.pending ++ [⟨address, overwritten, jump⟩] } }) := by
  have placed := allocateTrampoline_ends platform oracle address trampolineSize build before
  rw [allocated] at placed
  obtain ⟨displacement, reach⟩ := placed.reachable
  obtain ⟨jump, jumps⟩ := buildNearJump_total room (ensurePatchDoesNotOverlap_bounded accepted) reach
  refine ⟨jump, jumps, ?_⟩
  simp only [prepareDetour, Procedure.exec_bind, Procedure.exec_get, Procedure.exec_ofExcept, accepted, allocated,
    jumps, pushPending, Procedure.exec_modify, Procedure.exec_pure]

theorem prepareDetour_concludes {platform : Platform} {oracle : MappingOracle} {preparation : Preparation}
    {before : Workspace} {trampolineSize : Nat} {build : Builder}
    (asked : preparation.trampoline before.memory = some (trampolineSize, build))
    (room : nearJumpSize ≤ preparation.source.size) :
    Concludes platform oracle preparation before
      ((prepareDetour platform oracle preparation.source.address
        (Memory.readAt before.memory preparation.source.address preparation.source.size) trampolineSize build).exec
        before) := by
  have length : (Memory.readAt before.memory preparation.source.address preparation.source.size).length =
      preparation.source.size := Memory.readAt_length _ _ _
  cases accepted : before.session.ensurePatchDoesNotOverlap preparation.source.address preparation.source.size with
  | error failure =>
    simp [prepareDetour, Procedure.exec_bind, accepted, Concludes]
  | ok done =>
    have allocated := allocateTrampoline_ends platform oracle preparation.source.address trampolineSize build before
    rcases answer : (allocateTrampoline platform oracle preparation.source.address trampolineSize build).exec
      before with ⟨failure | trampolineAddress, middle⟩
    · rw [answer] at allocated
      simpa [prepareDetour, Procedure.exec_bind, accepted, answer, Concludes] using allocated
    · rw [answer] at allocated
      obtain ⟨jump, jumps, run⟩ := prepareDetour_records (length.symm ▸ room) (length.symm ▸ accepted) answer
      rw [run]
      exact .detoured asked accepted allocated (length ▸ jumps)

theorem detourWith_concludes {platform : Platform} {oracle : MappingOracle} {preparation : Preparation}
    {before : Workspace} {trampolineSize : Nat} {build : Builder}
    (asked : preparation.trampoline before.memory = some (trampolineSize, build)) :
    Concludes platform oracle preparation before
      ((detourWith platform oracle preparation.source.address preparation.source.size trampolineSize build).exec
        before) := by
  simp only [detourWith]
  by_cases small : preparation.source.size < nearJumpSize
  · simp [small, Concludes]
  · by_cases empty : trampolineSize = 0
    · simp [small, empty, Concludes]
    · simp only [small, empty, if_false, readSource, Procedure.exec_bind, Procedure.exec_get, Procedure.exec_pure]
      exact prepareDetour_concludes asked (Nat.not_lt.mp small)

theorem exec_readSource_bind {α : Type} (address size : Nat) (next : List Byte → SessionM α) (state : Workspace) :
    (readSource address size >>= next).exec state = (next (Memory.readAt state.memory address size)).exec state := by
  rw [readSource, Procedure.exec_bind, Procedure.exec_get_bind, Procedure.exec_pure]

theorem overwrite_exec (address : Nat) (data : List Byte) (before : Workspace) :
    (overwrite address data).exec before =
      match before.session.ensurePatchDoesNotOverlap address data.length with
      | .error failure => (.error failure, before)
      | .ok () => (.ok ⟨none⟩, { before with session := { before.session with pending := before.session.pending ++
          [⟨address, Memory.readAt before.memory address data.length, data⟩] } }) := by
  by_cases empty : data.isEmpty
  · obtain rfl := List.isEmpty_iff.mp empty
    rfl
  · simp only [overwrite, if_neg empty, exec_readSource_bind, Procedure.exec_get_bind]
    cases before.session.ensurePatchDoesNotOverlap address data.length <;> rfl

theorem overwrite_concludes (platform : Platform) (oracle : MappingOracle) (address : Nat) (data : List Byte)
    (before : Workspace) :
    Concludes platform oracle (.overwrite address data) before ((overwrite address data).exec before) := by
  rw [overwrite_exec]
  cases accepted : before.session.ensurePatchDoesNotOverlap address data.length with
  | error failure => exact rfl
  | ok done => exact .overwritten rfl accepted

theorem patchCall_concludes (platform : Platform) (oracle : MappingOracle) (address function size : Nat)
    (saveOverwritten : Bool) (allowReturn : ReturnType) (before : Workspace) :
    Concludes platform oracle (.patchCall address function size saveOverwritten allowReturn) before
      ((patchCall platform oracle address function size saveOverwritten allowReturn).exec before) := by
  simp only [patchCall]
  by_cases small : size < nearJumpSize
  · simp [small, Concludes]
  · cases stop : checkedAdd address size with
    | none => simp [small, readSource, Procedure.exec_bind, okOr, Concludes]
    | some continuation =>
      obtain ⟨rfl, -⟩ := checkedAdd_some.mp stop
      simp only [small, if_false, readSource, Procedure.exec_bind, Procedure.exec_get, Procedure.exec_pure,
        Procedure.exec_ofExcept, okOr]
      exact prepareDetour_concludes rfl (Nat.not_lt.mp small)

theorem preparation_concludes (platform : Platform) (oracle : MappingOracle) (preparation : Preparation)
    (before : Workspace) :
    Concludes platform oracle preparation before ((preparation.run platform oracle).exec before) := by
  cases preparation with
  | overwrite address data => exact overwrite_concludes platform oracle address data before
  | patchCall address function size saveOverwritten allowReturn =>
    exact patchCall_concludes platform oracle address function size saveOverwritten allowReturn before
  | detour address size code => exact detourWith_concludes rfl
  | detourTrampoline address size trampoline =>
    change Concludes _ _ _ _ ((detourTrampoline platform oracle address size trampoline).exec before)
    simp only [detourTrampoline]
    by_cases empty : trampoline.len = 0
    · simp [empty, Concludes]
    · simp only [empty, if_false]
      exact detourWith_concludes rfl
  | detourWith address size trampolineSize build => exact detourWith_concludes rfl

theorem preparation_cases (platform : Platform) (oracle : MappingOracle) (preparation : Preparation)
    (before : Workspace) :
    (∃ failure, (preparation.run platform oracle).exec before = (.error failure, before)) ∨
      ∃ patch after, (preparation.run platform oracle).exec before = (.ok patch, after) ∧
        Prepared platform oracle preparation before patch after := by
  have concluded := preparation_concludes platform oracle preparation before
  rcases ran : (preparation.run platform oracle).exec before with ⟨failure | patch, after⟩
  · rw [ran] at concluded
    obtain rfl : after = before := concluded
    exact Or.inl ⟨failure, rfl⟩
  · rw [ran] at concluded
    exact Or.inr ⟨patch, after, rfl, concluded⟩

theorem run_prepareDetour {platform : Platform} {oracle : MappingOracle} {preparation : Preparation}
    {before : Workspace} {size : Nat} {build : Builder}
    (asked : preparation.trampoline before.memory = some (size, build))
    (room : nearJumpSize ≤ preparation.source.size) (nonempty : size ≠ 0)
    (bounded : preparation.source.address + preparation.source.size ≤ usizeMax) :
    (preparation.run platform oracle).exec before =
      (prepareDetour platform oracle preparation.source.address
        (Memory.readAt before.memory preparation.source.address preparation.source.size) size build).exec before := by
  cases preparation with
  | overwrite address data => contradiction
  | patchCall address function length saveOverwritten allowReturn =>
    obtain ⟨rfl, rfl⟩ := Prod.mk.inj (Option.some.inj asked)
    have large : ¬ length < nearJumpSize := Nat.not_lt.mpr room
    have stop : checkedAdd address length = some (address + length) := checkedAdd_some.mpr ⟨rfl, bounded⟩
    simp only [Preparation.run, patchCall, if_neg large, readSource, Procedure.exec_bind, Procedure.exec_get,
      Procedure.exec_pure, Procedure.exec_ofExcept, stop, okOr]
    rfl
  | detour address length code | detourWith address length trampolineSize build' =>
    obtain ⟨rfl, rfl⟩ := Prod.mk.inj (Option.some.inj asked)
    have large : ¬ length < nearJumpSize := Nat.not_lt.mpr room
    simp only [Preparation.run, detour, detourWith, if_neg large, if_neg nonempty, readSource, Procedure.exec_bind,
      Procedure.exec_get, Procedure.exec_pure]
    rfl
  | detourTrampoline address length trampoline =>
    obtain ⟨rfl, rfl⟩ := Prod.mk.inj (Option.some.inj asked)
    have large : ¬ length < nearJumpSize := Nat.not_lt.mpr room
    simp only [Preparation.run, detourTrampoline, detourWith, if_neg large, if_neg nonempty, readSource,
      Procedure.exec_bind, Procedure.exec_get, Procedure.exec_pure]
    rfl

/-- A preparation that fails leaves no trace, because nothing can fail once a slot has been handed out; and one
    that takes a slot records the patch that jumps there. -/
theorem preparation_atomic (platform : Platform) (oracle : MappingOracle) (preparation : Preparation)
    (before : Workspace) :
    (∀ failure after, (preparation.run platform oracle).exec before = (.error failure, after) → after = before) ∧
    (∀ address overwritten trampolineSize build trampolineAddress middle,
      nearJumpSize ≤ overwritten.length →
      before.session.ensurePatchDoesNotOverlap address overwritten.length = .ok () →
      (allocateTrampoline platform oracle address trampolineSize build).exec before =
        (.ok trampolineAddress, middle) →
      ∃ jump, buildNearJump address trampolineAddress overwritten.length = .ok jump ∧
        (prepareDetour platform oracle address overwritten trampolineSize build).exec before =
          (.ok ⟨some trampolineAddress⟩, { middle with session := { middle.session with pending :=
            middle.session.pending ++ [⟨address, overwritten, jump⟩] } })) ∧
    ∀ result after, (preparation.run platform oracle).exec before = (result, after) →
      after.session.pages ≠ before.session.pages ∨ after.memory ≠ before.memory →
      ∃ trampolineAddress jump, result = .ok ⟨some trampolineAddress⟩ ∧
        buildNearJump preparation.source.address trampolineAddress preparation.source.size = .ok jump ∧
        after.session.pending = before.session.pending ++ [⟨preparation.source.address,
          Memory.readAt before.memory preparation.source.address preparation.source.size, jump⟩] := by
  have concluded := preparation_cases platform oracle preparation before
  refine ⟨?_, ?_, ?_⟩
  · intro failure after run
    rcases concluded with ⟨reason, failed⟩ | ⟨patch, last, done, -⟩
    · exact (Prod.mk.inj (run.symm.trans failed)).2
    · exact absurd (Prod.mk.inj (run.symm.trans done)).1 (by simp)
  · intro address overwritten trampolineSize build trampolineAddress middle room accepted allocated
    exact prepareDetour_records room accepted allocated
  · intro result after run changed
    rcases concluded with ⟨failure, failed⟩ | ⟨patch, last, done, prepared⟩
    · obtain ⟨-, rfl⟩ := Prod.mk.inj (run.symm.trans failed)
      simp at changed
    · obtain ⟨rfl, rfl⟩ := Prod.mk.inj (run.symm.trans done)
      cases prepared with
      | overwritten => simp at changed
      | detoured asked accepted placed jumps => exact ⟨_, _, rfl, jumps, by rw [placed.pending]⟩

-- An empty overwrite fails; a detour takes the second slot of the page.
theorem preparation_atomic_second_slot :
    let platform : Platform := ⟨0x1000, 0x10000, by decide, by decide⟩
    let oracle : MappingOracle := ⟨fun _ => .ok (), fun _ => .error ""⟩
    let before : Workspace := ⟨⟨[⟨0x140000000, 1⟩], []⟩, fun _ => 0x90⟩
    let failed := ((Preparation.overwrite 0x140001000 []).run platform oracle).exec before
    failed.1 = .error (.error .emptyPatch) ∧ failed.2 = before ∧
      ∃ jump, buildNearJump 0x140001000 0x140000010 5 = .ok jump := by
  intro platform oracle before failed
  have allocated : ((allocateTrampoline platform oracle 0x140001000 1 fun _ => .ok [0xC3]).exec before).1 =
      .ok 0x140000010 := by
    rfl
  obtain ⟨atomic, records, -⟩ := preparation_atomic platform oracle (.overwrite 0x140001000 []) before
  obtain ⟨jump, jumps, -⟩ := records 0x140001000 (List.replicate 5 0x90) 1 (fun _ => .ok [0xC3]) 0x140000010 _
    (by decide) (by decide) (Prod.ext allocated rfl)
  exact ⟨rfl, atomic _ failed.2 rfl, jump, jumps⟩

structure PreparedFrame (platform : Platform) (oracle : MappingOracle) (preparation : Preparation)
    (before after : Workspace) : Prop where
  pending : ∃ patch, after.session.pending = before.session.pending ++ [patch] ∧
    patch.installed = preparation.source ∧
    patch.expected = Memory.readAt before.memory preparation.source.address preparation.source.size
  accepted : before.session.ensurePatchDoesNotOverlap preparation.source.address preparation.source.size = .ok ()
  bases : ∃ extra, after.session.bases = before.session.bases ++ extra ∧
    ∀ fresh ∈ extra, oracle.mapMut fresh = .ok fresh
  memory : ∀ location, (∀ base ∈ after.session.bases, ¬ Memory.Inside base platform.pageSize location) →
    after.memory location = before.memory location

theorem Prepared.frame {platform : Platform} {oracle : MappingOracle} {preparation : Preparation}
    {before after : Workspace} {patch : Patch}
    (prepared : Prepared platform oracle preparation before patch after) :
    PreparedFrame platform oracle preparation before after := by
  cases prepared with
  | overwritten same accepted =>
    subst same
    exact ⟨⟨_, rfl, rfl, rfl⟩, accepted, ⟨[], by simp [bases], by simp⟩, fun _ _ => rfl⟩
  | detoured asked accepted placed jumps =>
    rename_i trampolineSize trampolineAddress build jump middle
    obtain ⟨code, -, sized, written⟩ := placed.code
    obtain ⟨base, extra, bases, member, fresh, low, high⟩ := Slot.bases placed.slot
    refine ⟨⟨_, by rw [placed.pending], ?_, rfl⟩, accepted, ⟨extra, bases, fresh⟩, ?_⟩
    · simp only [PendingPatch.installed, (buildNearJump_ok jumps).1]
    · intro location outside
      have away := outside base member
      rw [written]
      refine Memory.writeAt_outside _ fun inside => away ?_
      simp only [Memory.Inside] at inside ⊢
      omega

theorem PreparedFrame.formed {platform : Platform} {oracle : MappingOracle} {preparation : Preparation}
    {before after : Workspace} (frame : PreparedFrame platform oracle preparation before after)
    (formed : before.session.WellFormed) : after.session.WellFormed := by
  obtain ⟨added, grown, aimed, snapshot⟩ := frame.pending
  have length : added.replacement.length = preparation.source.size := congrArg InstalledPatch.size aimed
  refine formed.push grown ?_ ?_
  · rw [aimed]
    exact frame.accepted
  · rw [snapshot, Memory.readAt_length, length]

end PatchSession

end Patchy
