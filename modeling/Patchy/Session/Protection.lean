import Patchy.Session.Reachable

set_option autoImplicit false

namespace Patchy

namespace OsEvent

def protect (protection : Nat → Nat) : OsEvent → Nat → Nat
  | .virtualProtect _ page flags true => Function.update protection page flags
  | _ => protection

def write (memory : ProcessMemory) : OsEvent → ProcessMemory
  | .copy address bytes => Memory.writeAt memory address bytes
  | _ => memory

def opened : OsEvent → Option Nat
  | .virtualProtect .protect page _ _ => some page
  | _ => none

end OsEvent

def Process.perform (process : Process) (events : List OsEvent) : Process :=
  { process with
    memory := events.foldl OsEvent.write process.memory
    protection := events.foldl OsEvent.protect process.protection
    events := process.events ++ events }

@[simp] theorem Process.perform_nil (process : Process) : process.perform [] = process := by
  simp [perform]

@[simp] theorem Process.perform_perform (process : Process) (first second : List OsEvent) :
    (process.perform first).perform second = process.perform (first ++ second) := by
  simp [perform]

def SourcePage (platform : Platform) (pending : List PendingPatch) (page : Nat) : Prop :=
  page % platform.pageSize = 0 ∧ ∃ patch ∈ pending, ∃ location,
    Memory.Inside page platform.pageSize location ∧ patch.installed.Covers location

namespace PatchSession

theorem sourcePages_exact (platform : Platform) {pending : List PendingPatch}
    (formed : ∀ patch ∈ pending, patch.WellFormed) :
    ∃ pages, sourcePages platform pending ∅ = .ok pages ∧
      ∀ page, page ∈ pages ↔ SourcePage platform pending page := by
  obtain ⟨pages, collected, members⟩ := @sourcePages_ok platform pending ∅ formed
  refine ⟨pages, collected, fun page => ?_⟩
  rw [members]
  constructor
  · rintro (none | ⟨patch, member, aligned, low, high⟩)
    · simp at none
    · refine ⟨aligned, patch, member, max page patch.address, ?_⟩
      have positive := platform.pageSize_pos
      have nonempty := (formed patch member).range.nonempty
      simp only [InstalledPatch.Covers, Memory.Inside, PendingPatch.installed] at nonempty ⊢
      omega
  · rintro ⟨aligned, patch, member, location, inside, covers⟩
    simp only [InstalledPatch.Covers, Memory.Inside, PendingPatch.installed] at inside covers
    exact Or.inr ⟨patch, member, aligned, by omega, by omega⟩

theorem virtualProtect_exec (fails : Nat → Option String) (site : ProtectionSite) (page flags : Nat)
    (process : Process) :
    (virtualProtect fails site page flags).exec process =
      (.ok ((fails page).elim (.ok (process.protection page)) .error),
        process.perform [.virtualProtect site page flags (fails page).isNone]) := by
  cases failed : fails page <;>
    simp [virtualProtect, failed, record, Procedure.exec_bind, Process.perform, OsEvent.protect, OsEvent.write]

def restoreEvent (environment : InstallEnvironment) (protection : SourceProtection) : OsEvent :=
  .virtualProtect .restore protection.address protection.old (environment.restore protection.address).isNone

theorem restoreLoop_exec (environment : InstallEnvironment) (protections : List SourceProtection)
    (firstError : Option PatchError) (process : Process) :
    ∃ found, (restoreLoop environment protections firstError).exec process =
      (.ok found, process.perform (protections.map (restoreEvent environment))) := by
  induction protections generalizing firstError process with
  | nil => exact ⟨firstError, by simp [restoreLoop]⟩
  | cons protection rest ih =>
    simp only [restoreLoop, Procedure.exec_bind, virtualProtect_exec]
    cases failed : environment.restore protection.address with
    | none =>
      obtain ⟨found, run⟩ := ih firstError
        (process.perform [.virtualProtect .restore protection.address protection.old true])
      exact ⟨found, by simpa [restoreEvent, failed] using run⟩
    | some error =>
      obtain ⟨found, run⟩ := ih (firstError.or (some (.protection protection.address error)))
        (process.perform [.virtualProtect .restore protection.address protection.old false])
      exact ⟨found, by simpa [restoreEvent, failed] using run⟩

theorem restorePatchSources_exec (environment : InstallEnvironment) (protections : List SourceProtection)
    (process : Process) :
    ∃ result, (restorePatchSources environment protections).exec process =
      (result, process.perform (protections.reverse.map (restoreEvent environment))) := by
  obtain ⟨found, run⟩ := restoreLoop_exec environment protections.reverse none process
  simp only [restorePatchSources, Procedure.exec_bind, run]
  cases found with
  | none => exact ⟨.ok (), rfl⟩
  | some error => exact ⟨.error (.error error), rfl⟩

theorem restore_throw_exec {α : Type} (environment : InstallEnvironment) (protections : List SourceProtection)
    (failure : Failure) (process : Process) :
    ∃ reported, (restorePatchSources environment protections >>= fun _ => (throw failure : ProcessM α)).exec process =
      (.error reported, process.perform (protections.reverse.map (restoreEvent environment))) := by
  obtain ⟨result, run⟩ := restorePatchSources_exec environment protections process
  rw [Procedure.exec_bind, run]
  cases result with
  | ok done => exact ⟨failure, rfl⟩
  | error restoring => exact ⟨restoring, rfl⟩

def copyEvent (patch : PendingPatch) : OsEvent := .copy patch.address patch.replacement

theorem copyReplacements_perform (patches : List PendingPatch) (process : Process) :
    (copyReplacements patches).exec process = (.ok (), process.perform (patches.map copyEvent)) := by
  induction patches generalizing process with
  | nil => simp [copyReplacements]
  | cons patch rest ih =>
    have first : { process with
        memory := Memory.writeAt process.memory patch.address patch.replacement
        events := process.events ++ [.copy patch.address patch.replacement] } =
          process.perform [copyEvent patch] := by
      simp [Process.perform, copyEvent, OsEvent.write, OsEvent.protect]
    simp only [copyReplacements, record, Procedure.exec_bind, Procedure.exec_modify]
    rw [first, ih, Process.perform_perform]
    rfl

def openEvent (succeeded : Bool) (page : Nat) : OsEvent :=
  .virtualProtect .protect page pageExecuteReadWrite succeeded

def save (process : Process) (page : Nat) : SourceProtection := ⟨page, process.protection page⟩

theorem protectLoop_exec (environment : InstallEnvironment) {pages : List Nat} (distinct : pages.Nodup)
    (protections : List SourceProtection) (process : Process) :
    (protectLoop environment pages protections).exec process =
        (.ok (protections ++ pages.map (save process)), process.perform (pages.map (openEvent true))) ∨
      ∃ opened page rest failure, pages = opened ++ page :: rest ∧
        (protectLoop environment pages protections).exec process =
          (.error failure, process.perform (opened.map (openEvent true) ++ openEvent false page ::
            (protections ++ opened.map (save process)).reverse.map (restoreEvent environment))) := by
  induction pages generalizing protections process with
  | nil => exact Or.inl (by simp [protectLoop])
  | cons page rest ih =>
    obtain ⟨new, distinct⟩ := List.nodup_cons.mp distinct
    simp only [protectLoop, Procedure.exec_bind, virtualProtect_exec]
    cases failed : environment.protect page with
    | some error =>
      obtain ⟨reported, run⟩ := @restore_throw_exec (List SourceProtection) environment protections
        (.error (.protection page error)) (process.perform [openEvent false page])
      refine Or.inr ⟨[], page, rest, reported, rfl, ?_⟩
      simpa [openEvent, Procedure.exec_bind] using run
    | none =>
      have same {others : List Nat} (later : ∀ other ∈ others, other ∈ rest) :
          others.map (save (process.perform [openEvent true page])) = others.map (save process) := by
        refine List.map_congr_left fun other member => ?_
        have different : other ≠ page := fun equal => new (equal ▸ later other member)
        simp [save, Process.perform, openEvent, OsEvent.protect, different]
      rcases ih distinct (protections ++ [save process page]) (process.perform [openEvent true page]) with
        run | ⟨opened, stuck, unopened, failure, rfl, run⟩
      · rw [same fun _ => id] at run
        exact Or.inl (by simpa [openEvent, save] using run)
      · rw [same fun other member => List.mem_append_left _ member] at run
        exact Or.inr ⟨page :: opened, stuck, unopened, failure, rfl, by simpa [openEvent, save] using run⟩

/-- The log of an installation: pages opened, perhaps one that would not open, replacements copied, and the opened
    pages put back, the last one first. -/
def bracket (environment : InstallEnvironment) (process : Process) (opened failed : List Nat)
    (copies : List PendingPatch) : List OsEvent :=
  opened.map (openEvent true) ++ failed.map (openEvent false) ++ copies.map copyEvent ++
    (opened.map (save process)).reverse.map (restoreEvent environment)

structure Bracketed (environment : InstallEnvironment) (pages : List Nat) (before after : Process)
    (opened failed : List Nat) (copies : List PendingPatch) : Prop where
  planned : opened ++ failed <+: pages
  covered : copies ≠ [] → opened = pages
  state : ∃ memory registry, (memory = before.memory ∨ memory = environment.race before.memory) ∧
    after = { { before with memory := memory }.perform (bracket environment before opened failed copies) with
      permanentPatchSets := registry }

theorem Bracketed.idle (environment : InstallEnvironment) (pages : List Nat) (process : Process) :
    Bracketed environment pages process process [] [] [] where
  planned := List.nil_prefix
  covered empty := absurd rfl empty
  state := ⟨process.memory, process.permanentPatchSets, Or.inl rfl, by simp [bracket]⟩

theorem opens_write (succeeded : Bool) (pages : List Nat) (memory : ProcessMemory) :
    (pages.map (openEvent succeeded)).foldl OsEvent.write memory = memory := by
  induction pages with
  | nil => rfl
  | cons page rest ih => exact ih

theorem commit_performs {environment : InstallEnvironment} {self : PatchSession}
    {protections : List SourceProtection} {before after : Process} {result : Result Unit}
    (run : (commitBatch environment self protections).exec before = (result, after)) :
    after = before.perform (self.pending.map copyEvent ++ protections.reverse.map (restoreEvent environment)) := by
  rw [commitBatch, Procedure.exec_bind, copyReplacements_perform] at run
  rcases flushed : (flushAll environment.flushPatch 0 (self.pending.map (·.address))).exec
    (before.perform (self.pending.map copyEvent)) with ⟨flushes, middle⟩
  obtain rfl := (flushAll_readOnly _ _ _).of_run flushed
  obtain ⟨restores, restored⟩ := restorePatchSources_exec environment protections
    (before.perform (self.pending.map copyEvent))
  simp only [Procedure.exec_bind, Procedure.exec_attempt, flushed, restored, Procedure.exec_ofExcept] at run
  rw [Process.perform_perform] at run
  cases flushes <;> exact (congrArg Prod.snd run).symm

section Opening

variable {platform : Platform} {environment : InstallEnvironment} {patches : List PendingPatch} {pages : Finset Nat}
  (collected : sourcePages platform patches ∅ = .ok pages) {before after : Process}

include collected in
theorem protectPatchSources_ok {protections : List SourceProtection}
    (run : (protectPatchSources platform environment patches).exec before = (.ok protections, after)) :
    protections = (pages.sort (· ≤ ·)).map (save before) ∧
      after = before.perform ((pages.sort (· ≤ ·)).map (openEvent true)) := by
  simp only [protectPatchSources, collected, Procedure.exec_bind, Procedure.exec_ofExcept] at run
  rcases protectLoop_exec environment (pages.sort_nodup (· ≤ ·)) [] before with
    opening | ⟨opened, page, rest, failure, -, opening⟩
  · obtain ⟨same, state⟩ := Prod.mk.inj (run.symm.trans opening)
    exact ⟨Except.ok.inj same, state⟩
  · obtain ⟨contrary, -⟩ := Prod.mk.inj (run.symm.trans opening)
    contradiction

include collected in
theorem protectPatchSources_error {failure : Failure}
    (run : (protectPatchSources platform environment patches).exec before = (.error failure, after)) :
    ∃ opened page rest, pages.sort (· ≤ ·) = opened ++ page :: rest ∧
      after = before.perform (opened.map (openEvent true) ++ openEvent false page ::
        (opened.map (save before)).reverse.map (restoreEvent environment)) := by
  simp only [protectPatchSources, collected, Procedure.exec_bind, Procedure.exec_ofExcept] at run
  rcases protectLoop_exec environment (pages.sort_nodup (· ≤ ·)) [] before with
    opening | ⟨opened, page, rest, failure, split, opening⟩
  · obtain ⟨contrary, -⟩ := Prod.mk.inj (run.symm.trans opening)
    contradiction
  · obtain ⟨-, state⟩ := Prod.mk.inj (run.symm.trans opening)
    exact ⟨opened, page, rest, split, state⟩

end Opening

theorem install_bracketed {platform : Platform} {environment : InstallEnvironment} {self : PatchSession}
    {pages : Finset Nat} {before after : Process} {result : Result Unit}
    (collected : sourcePages platform self.pending ∅ = .ok pages)
    (run : (installPermanently platform environment self).exec before = (result, after)) :
    ∃ opened failed copies, Bracketed environment (pages.sort (· ≤ ·)) before after opened failed copies := by
  cases install_stage run with
  | refused refusal => exact ⟨[], [], [], .idle environment _ before⟩
  | unprotected failed =>
    obtain ⟨opened, page, rest, split, rfl⟩ := protectPatchSources_error collected failed
    refine ⟨opened, [page], [], ⟨rest, by simp [split]⟩, fun empty => absurd rfl empty, ?_⟩
    exact ⟨before.memory, before.permanentPatchSets, Or.inl rfl, by simp [bracket, Process.perform]⟩
  | raced clear protect found rest =>
    obtain ⟨rfl, rfl⟩ := protectPatchSources_ok collected protect
    obtain ⟨reported, restored⟩ := @restore_throw_exec Unit environment _ _ _
    obtain ⟨rfl, rfl⟩ := Prod.mk.inj (rest.symm.trans restored)
    refine ⟨pages.sort (· ≤ ·), [], [], by simp, fun empty => absurd rfl empty, ?_⟩
    refine ⟨environment.race before.memory, before.permanentPatchSets, Or.inr rfl, ?_⟩
    simp [bracket, Process.perform, opens_write]
  | committed clear validated protect revalidated rest =>
    obtain ⟨rfl, rfl⟩ := protectPatchSources_ok collected protect
    refine ⟨pages.sort (· ≤ ·), [], self.pending, by simp, fun _ => rfl, ?_⟩
    refine ⟨environment.race before.memory, after.permanentPatchSets, Or.inr rfl, ?_⟩
    rw [commit_performs rest]
    simp [bracket, Process.perform, opens_write]

section Log

variable {environment : InstallEnvironment} {process : Process} {opened failed : List Nat}
  {copies : List PendingPatch}

theorem opens_protect (pages : List Nat) (protection : Nat → Nat) (page : Nat) :
    (pages.map (openEvent true)).foldl OsEvent.protect protection page =
      if page ∈ pages then pageExecuteReadWrite else protection page := by
  induction pages generalizing protection with
  | nil => rfl
  | cons first rest ih =>
    rw [List.map_cons, List.foldl_cons, ih]
    by_cases later : page ∈ rest
    · simp [later]
    · by_cases same : page = first <;> simp [later, same, openEvent, OsEvent.protect]

theorem failed_protect (pages : List Nat) (protection : Nat → Nat) :
    (pages.map (openEvent false)).foldl OsEvent.protect protection = protection := by
  induction pages with
  | nil => rfl
  | cons page rest ih => exact ih

theorem copies_protect (patches : List PendingPatch) (protection : Nat → Nat) :
    (patches.map copyEvent).foldl OsEvent.protect protection = protection := by
  induction patches with
  | nil => rfl
  | cons patch rest ih => exact ih

theorem restores_protect (environment : InstallEnvironment) (process : Process) (pages : List Nat)
    (protection : Nat → Nat) (page : Nat) :
    ((pages.map (save process)).map (restoreEvent environment)).foldl OsEvent.protect protection page =
      if page ∈ pages ∧ environment.restore page = none then process.protection page else protection page := by
  induction pages generalizing protection with
  | nil => simp
  | cons first rest ih =>
    rw [List.map_cons, List.map_cons, List.foldl_cons, ih]
    cases failed : environment.restore first with
    | none =>
      by_cases same : page = first
      · simp [same, failed, restoreEvent, save, OsEvent.protect]
      · simp [same, failed, restoreEvent, save, OsEvent.protect]
    | some error =>
      by_cases same : page = first
      · simp [same, failed, restoreEvent, save, OsEvent.protect]
      · simp [same, failed, restoreEvent, save, OsEvent.protect]

theorem bracket_protect (page : Nat) :
    (bracket environment process opened failed copies).foldl OsEvent.protect process.protection page =
      if page ∈ opened ∧ environment.restore page ≠ none then pageExecuteReadWrite else process.protection page := by
  rw [bracket, ← List.map_reverse, List.foldl_append, List.foldl_append, List.foldl_append, restores_protect,
    copies_protect, failed_protect, opens_protect]
  by_cases member : page ∈ opened <;> by_cases restored : environment.restore page = none <;> simp [member, restored]

theorem split_ahead {α : Type} {first second earlier later : List α} {item : α}
    (same : first ++ second = earlier ++ item :: later) (absent : item ∉ second) :
    ∃ middle, first = earlier ++ item :: middle ∧ later = middle ++ second := by
  rcases List.append_eq_append_iff.mp same with ⟨middle, -, rfl⟩ | ⟨middle, rfl, rest⟩
  · simp at absent
  · cases middle with
    | nil =>
      obtain rfl : item :: later = second := rest
      simp at absent
    | cons head middle =>
      obtain ⟨rfl, rfl⟩ := List.cons.inj rest
      exact ⟨middle, rfl, rfl⟩

theorem split_behind {α : Type} {first second earlier later : List α} {item : α}
    (same : first ++ second = earlier ++ item :: later) (absent : item ∉ first) :
    ∃ middle, earlier = first ++ middle ∧ second = middle ++ item :: later := by
  rcases List.append_eq_append_iff.mp same with ⟨middle, rfl, rest⟩ | ⟨middle, rfl, rest⟩
  · exact ⟨middle, rfl, rest⟩
  · cases middle with
    | nil => exact ⟨[], by simp, rest.symm⟩
    | cons head middle =>
      obtain ⟨rfl, -⟩ := List.cons.inj rest
      simp at absent

theorem bracket_opened :
    (bracket environment process opened failed copies).filterMap OsEvent.opened = opened ++ failed := by
  have opens (succeeded : Bool) (pages : List Nat) :
      (pages.map (openEvent succeeded)).filterMap OsEvent.opened = pages := by
    induction pages with
    | nil => rfl
    | cons page rest ih => simpa [openEvent, OsEvent.opened] using ih
  simp [bracket, opens, List.filterMap_map, Function.comp_def, copyEvent, restoreEvent, OsEvent.opened]

theorem bracket_pages {site : ProtectionSite} {page flags : Nat} {succeeded : Bool}
    (member : .virtualProtect site page flags succeeded ∈ bracket environment process opened failed copies) :
    page ∈ opened ++ failed := by
  simp only [bracket, List.mem_append, List.mem_map, List.mem_reverse, openEvent, copyEvent, restoreEvent, save,
    OsEvent.virtualProtect.injEq, reduceCtorEq, and_false, exists_false, or_false] at member
  rw [List.mem_append]
  rcases member with (⟨other, known, -, rfl, -⟩ | ⟨other, known, -, rfl, -⟩) | ⟨saved, ⟨other, known, rfl⟩, -, rfl, -⟩
  · exact Or.inl known
  · exact Or.inr known
  · exact Or.inl known

theorem bracket_copy {earlier later : List OsEvent} {address : Nat} {contents : List Byte}
    (split : bracket environment process opened failed copies = earlier ++ .copy address contents :: later) :
    copies ≠ [] ∧ ∀ page ∈ opened, earlier.foldl OsEvent.protect process.protection page = pageExecuteReadWrite := by
  obtain ⟨middle, front, -⟩ := split_ahead split (by simp [restoreEvent])
  obtain ⟨copied, rfl, behind⟩ := split_behind front (by simp [openEvent])
  obtain ⟨done, remaining, rfl, rfl, rest⟩ := List.map_eq_append_iff.mp behind
  constructor
  · rintro empty
    obtain ⟨-, rfl⟩ := List.append_eq_nil_iff.mp empty
    contradiction
  · intro page member
    rw [List.foldl_append, List.foldl_append, copies_protect, failed_protect, opens_protect, if_pos member]

theorem bracket_restores {earlier later : List OsEvent} {page flags : Nat}
    (split : bracket environment process opened failed copies =
      earlier ++ .virtualProtect .protect page flags true :: later) :
    restoreEvent environment (save process page) ∈ later := by
  obtain ⟨middle, front, rfl⟩ := split_ahead split (by simp [restoreEvent])
  have member : .virtualProtect .protect page flags true ∈
      opened.map (openEvent true) ++ failed.map (openEvent false) ++ copies.map copyEvent := by
    rw [front]
    simp
  have known : page ∈ opened := by
    simp [openEvent, copyEvent] at member
    exact member.1
  exact List.mem_append_right _ (List.mem_map_of_mem (List.mem_reverse.mpr (List.mem_map_of_mem known)))

end Log

/-- However an installation ends, its log explains what became of memory and protections. It touches only pages with
    a pending byte and opens none twice, writes only while all of them are open, and puts back all it opened. -/
theorem protections_bracketed (platform : Platform) (workspace : Workspace)
    (reachable : (preparing platform).Reachable workspace) (environment : InstallEnvironment)
    (before after : Process) (result : Result Unit)
    (run : (workspace.session.installPermanently platform environment).exec before = (result, after)) :
    let pending := workspace.session.pending
    (∃ pages, sourcePages platform pending ∅ = .ok pages ∧ ∀ page, page ∈ pages ↔ SourcePage platform pending page) ∧
    ∃ trace, after.events = before.events ++ trace ∧
      after.protection = trace.foldl OsEvent.protect before.protection ∧
      (after.memory = trace.foldl OsEvent.write before.memory ∨
        after.memory = trace.foldl OsEvent.write (environment.race before.memory)) ∧
      (∀ site page flags succeeded, .virtualProtect site page flags succeeded ∈ trace →
        SourcePage platform pending page) ∧
      (trace.filterMap OsEvent.opened).Nodup ∧
      (∀ earlier address contents later, trace = earlier ++ .copy address contents :: later →
        ∀ page, SourcePage platform pending page →
          earlier.foldl OsEvent.protect before.protection page = pageExecuteReadWrite) ∧
      (∀ page, (∀ flags, .virtualProtect .restore page flags false ∉ trace) →
        after.protection page = before.protection page) ∧
      ∀ earlier page flags later, trace = earlier ++ .virtualProtect .protect page flags true :: later →
        ∃ old succeeded, .virtualProtect .restore page old succeeded ∈ later := by
  intro pending
  obtain ⟨pages, collected, exact⟩ := sourcePages_exact platform (reachable_formed reachable).patches
  obtain ⟨opened, failed, copies, planned, covered, memory, registry, others, state⟩ :=
    install_bracketed collected run
  have protection : after.protection =
      (bracket environment before opened failed copies).foldl OsEvent.protect before.protection := by
    rw [state]
    rfl
  have source {page : Nat} (member : page ∈ opened ++ failed) : SourcePage platform pending page :=
    (exact page).mp ((Finset.mem_sort _).mp (planned.subset member))
  refine ⟨⟨pages, collected, exact⟩, bracket environment before opened failed copies, by rw [state]; rfl, protection,
    ?_, ?_, ?_, ?_, ?_, ?_⟩
  · rw [state]
    rcases others with rfl | rfl
    · exact Or.inl rfl
    · exact Or.inr rfl
  · intro site page flags succeeded member
    exact source (bracket_pages member)
  · rw [bracket_opened]
    exact (pages.sort_nodup (· ≤ ·)).sublist planned.sublist
  · intro earlier address contents later split page sourced
    obtain ⟨copying, writable⟩ := bracket_copy split
    refine writable page ?_
    rw [covered copying, Finset.mem_sort]
    exact (exact page).mpr sourced
  -- A page that was opened is restored unless that fails, and then the log says so.
  · intro page restored
    rw [protection, bracket_protect]
    refine if_neg fun ⟨member, stuck⟩ => restored (before.protection page) ?_
    have attempted : restoreEvent environment (save before page) ∈
        bracket environment before opened failed copies :=
      List.mem_append_right _ (List.mem_map_of_mem (List.mem_reverse.mpr (List.mem_map_of_mem member)))
    have unanswered : (environment.restore page).isNone = false := by
      simpa [Option.isSome_iff_ne_none] using stuck
    simpa only [restoreEvent, save, unanswered] using attempted
  · intro earlier page flags later split
    exact ⟨_, _, bracket_restores split⟩

-- Two patches share a page, and the instruction cache cannot be flushed: both are copied while the page is open, and
-- it gets its protection back although the installation fails.
theorem protections_bracketed_unflushed :
    let platform : Platform := ⟨0x1000, 0x10000, by decide, by decide⟩
    let oracle : MappingOracle := ⟨fun _ => .error "", fun _ => .error ""⟩
    let environment : InstallEnvironment := { InstallEnvironment.calm with flushPatch := fun _ => some "denied" }
    let first := (((Preparation.overwrite 0x1FF0 [0xC3, 0xCC]).run platform oracle).exec ⟨new, fun _ => 0x90⟩).2
    let workspace := (((Preparation.overwrite 0x1000 [0xC3]).run platform oracle).exec first).2
    let installed := (workspace.session.installPermanently platform environment).exec
      ⟨fun _ => 0x90, fun _ => 0x20, [], []⟩
    installed.1 = Result.err (.instructionCache 0x1FF0 "denied") ∧
      Memory.readAt installed.2.memory 0x1FF0 2 = [0xC3, 0xCC] ∧ installed.2.memory 0x1000 = 0xC3 ∧
      (∀ earlier address contents later, installed.2.events = earlier ++ .copy address contents :: later →
        earlier.foldl OsEvent.protect (fun _ => 0x20) 0x1000 = 0x40) ∧
      (∃ old succeeded, .virtualProtect .restore 0x1000 old succeeded ∈ installed.2.events) ∧
      installed.2.protection 0x1000 = 0x20 := by
  intro platform oracle environment first workspace installed
  have events : installed.2.events = [.virtualProtect .protect 0x1000 0x40 true, .copy 0x1FF0 [0xC3, 0xCC],
      .copy 0x1000 [0xC3], .virtualProtect .restore 0x1000 0x20 true] := by
    decide +kernel
  have source : SourcePage platform workspace.session.pending 0x1000 :=
    ⟨by decide, ⟨0x1000, [0x90], [0xC3]⟩, by decide, 0x1000, by decide, Nat.le_refl _, by decide⟩
  obtain ⟨-, trace, grown, -, -, -, -, copies, restored, attempted⟩ := protections_bracketed platform workspace
    (reachable_prepare oracle _ (reachable_prepare oracle _ (.start rfl))) environment
    ⟨fun _ => 0x90, fun _ => 0x20, [], []⟩ installed.2 installed.1 rfl
  obtain rfl : installed.2.events = trace := grown
  refine ⟨by decide +kernel, by decide +kernel, by decide +kernel, fun earlier address contents later split => ?_, ?_,
    restored 0x1000 fun flags => by simp [events]⟩
  · exact copies earlier address contents later split 0x1000 source
  · obtain ⟨old, succeeded, member⟩ := attempted [] 0x1000 0x40 _ events
    exact ⟨old, succeeded, events ▸ List.mem_cons_of_mem _ member⟩

end PatchSession

end Patchy
