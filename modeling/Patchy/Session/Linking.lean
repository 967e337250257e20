import Patchy.Session.Pages
import Patchy.Session.Preparation

set_option autoImplicit false

namespace Patchy

def Preparation.CodeAt (memory : ProcessMemory) (address : Nat) : Preparation → List Byte → Prop
  | .overwrite _ _, _ => False
  | .patchCall source function size saveOverwritten allowReturn, code =>
      ∃ displacement : Int, i32Min ≤ displacement ∧ displacement ≤ i32Max ∧
        code = (if saveOverwritten then Memory.readAt memory source size else []) ++
          Arch.buildCall function allowReturn ++ nearJump :: i32Bytes displacement ∧
        (address : Int) + code.length + displacement = source + size
  | .detour _ _ trampoline, code => code = trampoline
  | .detourTrampoline _ _ trampoline, code => trampoline.build address = .ok code
  | .detourWith _ _ _ build, code => build address = .ok code

structure Entry where
  preparation : Preparation
  memory : ProcessMemory
  result : Result Patch

namespace PatchSession

/-- The session has made the operations of the list, and others may have written outside its pages
    between them. Sources lie outside its pages, and new pages outside everything it knows of. -/
inductive Prepares (platform : Platform) : List Entry → Workspace → Prop
  | start (memory : ProcessMemory) : Prepares platform [] ⟨new, memory⟩
  | interfere {log : List Entry} {workspace : Workspace} (memory : ProcessMemory)
      (before : Prepares platform log workspace)
      (kept : ∀ base ∈ workspace.session.bases, ∀ location, Memory.Inside base platform.pageSize location →
        memory location = workspace.memory location) :
      Prepares platform log { workspace with memory := memory }
  | prepare {log : List Entry} {workspace : Workspace} (oracle : MappingOracle) (preparation : Preparation)
      (before : Prepares platform log workspace)
      (outside : ∀ base ∈ workspace.session.bases, platform.PageApart base preparation.source)
      (fresh : ∀ candidate base, oracle.mapMut candidate = .ok base →
        platform.PageApart base preparation.source ∧
          (∀ patch ∈ workspace.session.pending, platform.PageApart base patch.installed) ∧
          ∀ other ∈ workspace.session.bases, Memory.Apart base platform.pageSize other platform.pageSize) :
      Prepares platform
        (log ++ [⟨preparation, workspace.memory, ((preparation.run platform oracle).exec workspace).1⟩])
        ((preparation.run platform oracle).exec workspace).2

theorem callBuilder_ok {code : List Byte} {continuation address : Nat} {built : List Byte}
    (found : callBuilder (code ++ [nearJump, 0, 0, 0, 0]) (code.length + 1) continuation address = .ok built) :
    ∃ displacement : Int, i32Min ≤ displacement ∧ displacement ≤ i32Max ∧
      built = code ++ nearJump :: i32Bytes displacement ∧
      (address : Int) + built.length + displacement = continuation := by
  have size : (code ++ [nearJump, 0, 0, 0, 0]).length = code.length + 5 := by simp
  simp only [callBuilder] at found
  rw [size] at found
  cases next : checkedAdd address (code.length + 5) with
  | none => simp [next, okOr, bind, Except.bind] at found
  | some nextInstruction =>
    cases reach : relativeOffset nextInstruction continuation with
    | error failure => simp [next, okOr, reach, bind, Except.bind] at found
    | ok displacement =>
      obtain ⟨place, -⟩ := checkedAdd_some.mp next
      obtain ⟨sum, low, high⟩ := relativeOffset_ok.mp reach
      simp only [next, okOr, reach, bind, Except.bind] at found
      simp only [copyFromSlice] at found
      split at found
      next fits =>
        have filled : built = code ++ nearJump :: i32Bytes displacement := by
          rw [← Except.ok.inj found, Nat.add_assoc, List.take_length_add_append, List.drop_length_add_append]
          simp
        have length : built.length = code.length + 5 := by simp [filled]
        exact ⟨displacement, low, high, filled, by rw [length]; omega⟩
      next => contradiction

theorem codeAt_of_build {preparation : Preparation} {memory : ProcessMemory} {trampolineSize address : Nat}
    {build : Builder} {code : List Byte} (asked : preparation.trampoline memory = some (trampolineSize, build))
    (built : build address = .ok code) : preparation.CodeAt memory address code := by
  cases preparation with
  | overwrite address data => contradiction
  | patchCall source function size saveOverwritten allowReturn =>
    obtain ⟨-, rfl⟩ := Prod.mk.inj (Option.some.inj asked)
    obtain ⟨displacement, low, high, filled, sum⟩ := callBuilder_ok built
    exact ⟨displacement, low, high, filled, by exact_mod_cast sum⟩
  | detour source size trampoline =>
    obtain ⟨-, rfl⟩ := Prod.mk.inj (Option.some.inj asked)
    exact (Except.ok.inj built).symm
  | detourTrampoline source size trampoline =>
    obtain ⟨-, rfl⟩ := Prod.mk.inj (Option.some.inj asked)
    exact built
  | detourWith source size trampolineSize build =>
    obtain ⟨-, rfl⟩ := Prod.mk.inj (Option.some.inj asked)
    exact built

structure Linked (workspace : Workspace) (preparation : Preparation) (memory : ProcessMemory) (address : Nat) :
    Prop where
  code : ∃ code, preparation.CodeAt memory address code ∧ Holds workspace address code
  jump : ∃ jump expected, buildNearJump preparation.source.address address preparation.source.size = .ok jump ∧
    ⟨preparation.source.address, expected, jump⟩ ∈ workspace.session.pending

structure Links (platform : Platform) (log : List Entry) (workspace : Workspace) : Prop where
  formed : workspace.session.WellFormed
  used : ∀ page ∈ workspace.session.pages, page.used ≤ platform.pageSize
  pages : workspace.session.pages.Pairwise fun first second =>
    Memory.Apart first.mapping platform.pageSize second.mapping platform.pageSize
  sources : ∀ base ∈ workspace.session.bases, ∀ patch ∈ workspace.session.pending,
    platform.PageApart base patch.installed
  answered : ∀ entry ∈ log, entry.preparation.detours → ∀ patch, entry.result = .ok patch →
    ∃ address, patch = ⟨some address⟩
  linked : ∀ entry ∈ log, ∀ address, entry.result = .ok ⟨some address⟩ →
    Linked workspace entry.preparation entry.memory address

theorem Linked.mono {before after : Workspace} {preparation : Preparation} {memory : ProcessMemory} {address : Nat}
    (linked : Linked before preparation memory address)
    (holds : ∀ code, Holds before address code → Holds after address code)
    (pending : ∀ patch ∈ before.session.pending, patch ∈ after.session.pending) :
    Linked after preparation memory address := by
  obtain ⟨⟨code, meant, stored⟩, jump, expected, jumps, member⟩ := linked
  exact ⟨⟨code, meant, holds code stored⟩, jump, expected, jumps, pending _ member⟩

theorem Links.interfere {platform : Platform} {log : List Entry} {workspace : Workspace} {memory : ProcessMemory}
    (links : Links platform log workspace)
    (kept : ∀ base ∈ workspace.session.bases, ∀ location, Memory.Inside base platform.pageSize location →
      memory location = workspace.memory location) :
    Links platform log { workspace with memory := memory } :=
  ⟨links.formed, links.used, links.pages, links.sources, links.answered, fun entry member address same =>
    (links.linked entry member address same).mono (fun _ holds => holds.interfere links.used kept) fun _ => id⟩

theorem Prepared.answered {platform : Platform} {oracle : MappingOracle} {preparation : Preparation}
    {before after : Workspace} {patch : Patch}
    (prepared : Prepared platform oracle preparation before patch after) (detours : preparation.detours) :
    ∃ address, patch = ⟨some address⟩ := by
  cases prepared with
  | overwritten same => simp [same, Preparation.detours] at detours
  | detoured => exact ⟨_, rfl⟩

theorem Links.prepare {platform : Platform} {log : List Entry} {workspace : Workspace}
    (links : Links platform log workspace) {oracle : MappingOracle} {preparation : Preparation}
    (outside : ∀ base ∈ workspace.session.bases, platform.PageApart base preparation.source)
    (fresh : ∀ candidate base, oracle.mapMut candidate = .ok base →
      platform.PageApart base preparation.source ∧
        (∀ patch ∈ workspace.session.pending, platform.PageApart base patch.installed) ∧
        ∀ other ∈ workspace.session.bases, Memory.Apart base platform.pageSize other platform.pageSize) :
    Links platform
      (log ++ [⟨preparation, workspace.memory, ((preparation.run platform oracle).exec workspace).1⟩])
      ((preparation.run platform oracle).exec workspace).2 := by
  rcases preparation_cases platform oracle preparation workspace with ⟨failure, ran⟩ | ⟨patch, after, ran, prepared⟩
  · rw [ran]
    refine ⟨links.formed, links.used, links.pages, links.sources, fun entry member detours patch same => ?_,
      fun entry member address same => ?_⟩
    · rcases List.mem_append.mp member with earlier | new
      · exact links.answered entry earlier detours patch same
      · rw [List.mem_singleton.mp new] at same
        contradiction
    · rcases List.mem_append.mp member with earlier | new
      · exact links.linked entry earlier address same
      · rw [List.mem_singleton.mp new] at same
        contradiction
  · rw [ran]
    have frame := prepared.frame
    obtain ⟨added, grown, aimed, -⟩ := frame.pending
    obtain ⟨extra, bases, mapped⟩ := frame.bases
    have formed : after.session.WellFormed := frame.formed links.formed
    -- A page and a source are each old or new; two new ones are apart by what the mapping is promised to be.
    have sources : ∀ base ∈ after.session.bases, ∀ patch ∈ after.session.pending,
        platform.PageApart base patch.installed := by
      intro base member patch pending
      rw [bases] at member
      rw [grown] at pending
      rcases List.mem_append.mp member with earlier | new <;>
        rcases List.mem_append.mp pending with known | last
      · exact links.sources base earlier patch known
      · rw [List.mem_singleton.mp last, aimed]
        exact outside base earlier
      · exact (fresh base base (mapped base new)).2.1 patch known
      · rw [List.mem_singleton.mp last, aimed]
        exact (fresh base base (mapped base new)).1
    have stays : ∀ patch ∈ workspace.session.pending, patch ∈ after.session.pending := fun patch member => by
      rw [grown]
      exact List.mem_append_left _ member
    have answered : ∀ entry ∈ log ++ [⟨preparation, workspace.memory, .ok patch⟩], entry.preparation.detours →
        ∀ patch, entry.result = .ok patch → ∃ address, patch = ⟨some address⟩ := by
      intro entry member detours found same
      rcases List.mem_append.mp member with earlier | new
      · exact links.answered entry earlier detours found same
      · obtain rfl := List.mem_singleton.mp new
        obtain rfl := Except.ok.inj same
        exact prepared.answered detours
    -- Only a detour adds a link, and its code is the last that has been written.
    cases prepared with
    | overwritten same accepted =>
      refine ⟨formed, links.used, links.pages, sources, answered, fun entry member address result => ?_⟩
      rcases List.mem_append.mp member with earlier | new
      · exact (links.linked entry earlier address result).mono (fun _ holds => holds) stays
      · rw [List.mem_singleton.mp new] at result
        exact absurd result (by simp)
    | detoured asked accepted placed jumps =>
      rename_i trampolineSize trampolineAddress build jump middle
      obtain ⟨used, pages, ⟨code, built, sized, stored⟩, old⟩ :=
        placed.keeps links.used links.pages fun base mapped => (fresh base base mapped).2.2
      refine ⟨formed, used, pages, sources, answered, fun entry member address result => ?_⟩
      rcases List.mem_append.mp member with earlier | new
      · exact (links.linked entry earlier address result).mono (fun code holds => (old address code holds).1) stays
      · obtain rfl := List.mem_singleton.mp new
        obtain rfl : trampolineAddress = address := by simpa using result
        exact ⟨⟨code, codeAt_of_build asked built, stored⟩, jump,
          Memory.readAt workspace.memory preparation.source.address preparation.source.size, jumps,
          List.mem_append_right _ (List.mem_singleton_self _)⟩

theorem prepares_links {platform : Platform} {log : List Entry} {workspace : Workspace}
    (prepares : Prepares platform log workspace) : Links platform log workspace := by
  induction prepares with
  | start memory =>
    exact ⟨WellFormed.new, by simp [new], List.Pairwise.nil, by simp [new, PatchSession.bases], by simp, by simp⟩
  | interfere memory before kept ih => exact ih.interfere kept
  | prepare oracle preparation before outside fresh ih => exact ih.prepare outside fresh

theorem Installed.keeps {platform : Platform} {environment : InstallEnvironment} {session : PatchSession}
    {before after : Process} (installed : Installed environment session before after)
    (formed : session.WellFormed)
    (sources : ∀ base ∈ session.bases, ∀ patch ∈ session.pending, platform.PageApart base patch.installed)
    (kept : ∀ base ∈ session.bases, ∀ location, Memory.Inside base platform.pageSize location →
      environment.race before.memory location = before.memory location) :
    ∀ base ∈ session.bases, ∀ location, Memory.Inside base platform.pageSize location →
      after.memory location = before.memory location := by
  intro base member location inside
  rw [installed.memory, overlay_outside formed.apart fun patch pending => sources base member patch pending
    location inside]
  exact kept base member location inside

/-- After a successful installation every detour made by the session has got a trampoline and is linked at both ends:
    its source jumps to the trampoline, and the trampoline holds the code meant for that very address. -/
theorem detours_linked (platform : Platform) (log : List Entry) (workspace : Workspace)
    (prepares : Prepares platform log workspace) (environment : InstallEnvironment) (process after : Process)
    (contents : process.memory = workspace.memory)
    (kept : ∀ base ∈ workspace.session.bases, ∀ location, Memory.Inside base platform.pageSize location →
      environment.race process.memory location = process.memory location)
    (run : (workspace.session.installPermanently platform environment).exec process = (.ok (), after))
    (entry : Entry) (member : entry ∈ log) (detours : entry.preparation.detours) (patch : Patch)
    (succeeded : entry.result = .ok patch) :
    let source := entry.preparation.source
    ∃ trampolineAddress, patch = ⟨some trampolineAddress⟩ ∧
      (∃ displacement : Int, i32Min ≤ displacement ∧ displacement ≤ i32Max ∧
        (source.address : Int) + 5 + displacement = trampolineAddress ∧
        Memory.readAt after.memory source.address source.size =
          nearJump :: i32Bytes displacement ++ List.replicate (source.size - 5) 0x90) ∧
      ∃ code, entry.preparation.CodeAt entry.memory trampolineAddress code ∧
        Memory.readAt after.memory trampolineAddress code.length = code := by
  intro source
  have links := prepares_links prepares
  obtain ⟨trampolineAddress, rfl⟩ := links.answered entry member detours patch succeeded
  obtain ⟨⟨code, meant, held⟩, jump, expected, jumps, pending⟩ :=
    links.linked entry member trampolineAddress succeeded
  refine ⟨trampolineAddress, rfl, ?_⟩
  rcases install_cases run with ⟨failure, impossible, -⟩ | ⟨installed, -⟩
  · contradiction
  · constructor
    · obtain ⟨size, displacement, low, high, sum, bytes⟩ := buildNearJump_ok jumps
      refine ⟨displacement, low, high, sum, ?_⟩
      have copied := @readAt_overlay (environment.race process.memory) _ links.formed.apart _ pending
      rw [← installed.memory] at copied
      simp only [size] at copied
      rw [← bytes]
      exact copied
    · have unchanged := installed.keeps links.formed links.sources kept
      rw [contents] at unchanged
      exact ⟨code, meant, (held.interfere links.used unchanged).1⟩

-- A call that replays the six bytes it replaces, placed on the page below its source; an overwrite of one of these
-- bytes is refused, another on the same page is not.
theorem detours_linked_call :
    let platform : Platform := ⟨0x1000, 0x10000, by decide, by decide⟩
    let oracle : MappingOracle := ⟨fun _ => .ok (), fun _ => .ok 0x140000000⟩
    let full : MappingOracle := ⟨fun _ => .ok (), fun _ => .error "no memory"⟩
    let memory : ProcessMemory := fun address => BitVec.ofNat 8 address
    let call := Preparation.patchCall 0x140001000 0x7000 6 true .none
    let called := (call.run platform oracle).exec ⟨new, memory⟩
    let refused := ((Preparation.overwrite 0x140001003 [0xCC]).run platform full).exec called.2
    let overwritten := ((Preparation.overwrite 0x140001800 [0xCC]).run platform full).exec refused.2
    let installed := (overwritten.2.session.installPermanently platform .calm).exec
      ⟨overwritten.2.memory, fun _ => 0x20, [], []⟩
    called.1 = .ok ⟨some 0x140000000⟩ ∧ refused.1 = Result.err (.overlappingPatch 0x140001000 0x140001003) ∧
      overwritten.1 = .ok ⟨none⟩ ∧ installed.1 = .ok () ∧
      Memory.readAt installed.2.memory 0x140001000 6 = [0xE9, 0xFB, 0xEF, 0xFF, 0xFF, 0x90] ∧
      Memory.readAt installed.2.memory 0x140000000 135 =
        [0, 1, 2, 3, 4, 5] ++ Arch.buildCall 0x7000 .none ++ [0xE9, 0x7F, 0x0F, 0, 0] := by
  intro platform oracle full memory call called refused overwritten installed
  have source : Memory.readAt memory 0x140001000 6 = [0, 1, 2, 3, 4, 5] := by decide
  obtain ⟨code, meant⟩ : ∃ code, code = [0, 1, 2, 3, 4, 5] ++ Arch.buildCall 0x7000 .none ++ [0xE9, 0x7F, 0x0F, 0, 0] :=
    ⟨_, rfl⟩
  have sized : code.length = 135 := by rw [meant]; rfl
  have asked : call.trampoline memory = some (135, callBuilder ([0, 1, 2, 3, 4, 5] ++ Arch.buildCall 0x7000 .none ++
      [nearJump, 0, 0, 0, 0]) 131 0x140001006) := by
    simp only [call, Preparation.trampoline, callPrefix, source]
    rfl
  have built : callBuilder ([0, 1, 2, 3, 4, 5] ++ Arch.buildCall 0x7000 .none ++ [nearJump, 0, 0, 0, 0]) 131 0x140001006
      0x140000000 = .ok code := by
    rw [meant]
    decide +kernel
  have jumps : buildNearJump 0x140001000 0x140000000 6 = .ok [0xE9, 0xFB, 0xEF, 0xFF, 0xFF, 0x90] := by decide
  have call_ran : called = (.ok ⟨some 0x140000000⟩,
      ⟨⟨[⟨0x140000000, 135⟩], [⟨0x140001000, [0, 1, 2, 3, 4, 5], [0xE9, 0xFB, 0xEF, 0xFF, 0xFF, 0x90]⟩]⟩,
        Memory.writeAt memory 0x140000000 code⟩) := by
    obtain ⟨jump, same, run⟩ := @prepareDetour_records platform oracle 0x140001000 135 [0, 1, 2, 3, 4, 5] _
      ⟨new, memory⟩ _ _ (by decide) (by decide) (allocated_below memory built sized (by decide))
    obtain rfl : [0xE9, 0xFB, 0xEF, 0xFF, 0xFF, 0x90] = jump := Except.ok.inj (jumps.symm.trans same)
    refine (run_prepareDetour asked (by decide) (by decide) (by decide)).trans ?_
    rw [← source] at run
    exact run
  have refused_ran : refused = (Result.err (.overlappingPatch 0x140001000 0x140001003), called.2) := by
    simp only [refused, call_ran]
    exact (overwrite_exec _ _ _).trans rfl
  have overwrite_ran : overwritten = (.ok ⟨none⟩, ⟨⟨[⟨0x140000000, 135⟩],
      [⟨0x140001000, [0, 1, 2, 3, 4, 5], [0xE9, 0xFB, 0xEF, 0xFF, 0xFF, 0x90]⟩, ⟨0x140001800, [0], [0xCC]⟩]⟩,
        Memory.writeAt memory 0x140000000 code⟩) := by
    have byte : Memory.readAt (Memory.writeAt memory 0x140000000 code) 0x140001800 1 = [0] :=
      (Memory.readAt_writeAt_apart memory (by rw [sized]; decide)).trans (by decide)
    simp only [overwritten, refused_ran, call_ran]
    refine (overwrite_exec _ _ _).trans ?_
    rw [List.length_singleton, byte]
    rfl
  have unmapped {state : Workspace} {source : InstalledPatch} (candidate base : Nat)
      (mapped : full.mapMut candidate = .ok base) : platform.PageApart base source ∧
        (∀ patch ∈ state.session.pending, platform.PageApart base patch.installed) ∧
          ∀ other ∈ state.session.bases, Memory.Apart base platform.pageSize other platform.pageSize :=
    absurd mapped (by simp [full])
  have apart {source : InstalledPatch} (above : 0x140001000 ≤ source.address) :
      platform.PageApart 0x140000000 source := by
    intro location inside covers
    simp only [Memory.Inside, platform] at inside
    simp only [InstalledPatch.Covers, Memory.Inside] at covers
    omega
  have first : Prepares platform [⟨call, memory, called.1⟩] called.2 := by
    refine .prepare oracle call (.start memory) (by simp [new, bases]) fun candidate base mapped => ?_
    obtain rfl : 0x140000000 = base := Except.ok.inj mapped
    exact ⟨apart (Nat.le_refl _), by simp [new], by simp [new, bases]⟩
  have second : Prepares platform [⟨call, memory, called.1⟩,
      ⟨.overwrite 0x140001003 [0xCC], called.2.memory, refused.1⟩] refused.2 := by
    refine .prepare full _ first ?_ unmapped
    rw [call_ran]
    simpa [bases] using apart (by decide)
  have third : Prepares platform [⟨call, memory, called.1⟩, ⟨.overwrite 0x140001003 [0xCC], called.2.memory, refused.1⟩,
      ⟨.overwrite 0x140001800 [0xCC], refused.2.memory, overwritten.1⟩] overwritten.2 := by
    refine .prepare full _ second ?_ unmapped
    rw [refused_ran, call_ran]
    simpa [bases] using apart (by decide)
  clear_value overwritten
  have still {address count : Nat} (above : 0x140001000 ≤ address) :
      Memory.readAt overwritten.2.memory address count = Memory.readAt memory address count := by
    rw [overwrite_ran]
    exact Memory.readAt_writeAt_apart memory (Or.inr (by rw [sized]; omega))
  have validated : validatePatchSources overwritten.2.memory overwritten.2.session.pending = .ok () := by
    rw [validatePatchSources_ok_iff]
    simp only [overwrite_ran, List.forall_mem_cons]
    rw [overwrite_ran] at still
    exact ⟨(still (by decide)).trans source, (still (by decide)).trans (by decide), by simp⟩
  have done : installed.1 = .ok () := by
    refine (@install_ok platform _ InstallEnvironment.calm_faultFree overwritten.2.session
      ⟨overwritten.2.memory, fun _ => 0x20, [], []⟩ (prepares_links third).formed.patches ?_ validated validated).1
    rw [overwrite_ran]
    rfl
  obtain ⟨trampolineAddress, same, ⟨displacement, -, -, sum, jump⟩, body, means, held⟩ :=
    detours_linked platform _ overwritten.2 third .calm ⟨overwritten.2.memory, fun _ => 0x20, [], []⟩ installed.2 rfl
      (fun _ _ _ _ => rfl) (Prod.ext done rfl) ⟨call, memory, called.1⟩ (by simp) rfl ⟨some 0x140000000⟩
      (by rw [call_ran])
  obtain rfl : 0x140000000 = trampolineAddress := by simpa using same
  obtain rfl : displacement = -0x1005 := by
    simp only [call, Preparation.source] at sum
    omega
  obtain ⟨continuation, -, -, rfl, reaches⟩ := means
  simp only [call, Preparation.source] at reaches jump
  have length : (Arch.buildCall 0x7000 .none).length = 124 := rfl
  obtain rfl : continuation = 0xF7F := by
    simp [length] at reaches
    omega
  have back : nearJump :: i32Bytes 0xF7F = [0xE9, 0x7F, 0x0F, 0, 0] := by decide
  refine ⟨by rw [call_ran], by rw [refused_ran], by rw [overwrite_ran], done, jump.trans (by decide), ?_⟩
  simpa [length, source, back] using held

end PatchSession

end Patchy
