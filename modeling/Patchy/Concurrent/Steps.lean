import Patchy.Concurrent.Adequacy
import Patchy.Session.Alike

set_option autoImplicit false

namespace Patchy

theorem Untouched.recorded {before after : Process} (untouched : Untouched before after) :
    after.recorded = before.recorded := by
  rw [Process.recorded, untouched.registry, Process.recorded]

namespace Point

variable {platform : Platform} {environment : InstallEnvironment} {self : PatchSession}

def Sealed (environment : InstallEnvironment) (self : PatchSession) : Point → Prop
  | .waiting executablePages | .checking executablePages | .validating executablePages | .collecting executablePages
  | .protecting executablePages _ _ | .revalidating executablePages _ | .recording executablePages _ =>
      ∀ process, (PatchSession.sealPages environment 0 self.pages).exec process = (.ok executablePages, process) ∧
        (PatchSession.flushAll environment.flushPage 0 executablePages).exec process = (.ok (), process)
  | _ => True

inductive Advanced (self : PatchSession) (point : Point) (before : Process) : Point → Process → Prop
  | recorded {executablePages : List Nat} {protections : List SourceProtection}
      (here : point = .recording executablePages protections) :
      Advanced self point before (.copying self.pending protections)
        { before with permanentPatchSets := before.permanentPatchSets ++
          [⟨executablePages, self.pending.map fun patch => ⟨patch.address, patch.replacement.length⟩⟩] }
  | copied {patch : PendingPatch} {left : List PendingPatch} {protections : List SourceProtection}
      (here : point = .copying (patch :: left) protections) :
      Advanced self point before (.copying left protections)
        { before with
          memory := Memory.writeAt before.memory patch.address patch.replacement
          events := before.events ++ [.copy patch.address patch.replacement] }
  | kept {next : Point} {after : Process} (untouched : Untouched before after) (uncopied : next.uncopied = [])
      (unrecorded : next.unrecorded → point.unrecorded)
      (locked : next.locked → point.locked ∨ ∃ executablePages, point = .waiting executablePages) :
      Advanced self point before next after

section

variable {point next : Point} {before after : Process} {record : InstalledPatch}

theorem Advanced.sets (step : Advanced self point before next after) {set : PermanentPatchSet}
    (member : set ∈ before.permanentPatchSets) : set ∈ after.permanentPatchSets := by
  cases step with
  | recorded here => exact List.mem_append_left _ member
  | copied here => exact member
  | kept untouched => exact untouched.registry ▸ member

theorem Advanced.grown (step : Advanced self point before next after) (member : record ∈ before.recorded) :
    record ∈ after.recorded := by
  obtain ⟨set, known, inside⟩ := List.mem_flatMap.mp member
  exact List.mem_flatMap.mpr ⟨set, step.sets known, inside⟩

theorem Advanced.recordedOwn (step : Advanced self point before next after) (member : record ∈ after.recorded) :
    record ∈ before.recorded ∨ point.unrecorded ∧ ∃ patch ∈ self.pending, patch.installed = record := by
  cases step with
  | recorded here =>
    simp only [Process.recorded, List.flatMap_append, List.mem_append] at member
    refine member.imp_right fun new => ⟨by rw [here]; rfl, ?_⟩
    simpa [PendingPatch.installed] using new
  | copied here => exact Or.inl member
  | kept untouched => exact Or.inl (untouched.recorded ▸ member)

theorem Advanced.unrecorded (step : Advanced self point before next after) (still : next.unrecorded) :
    point.unrecorded := by
  cases step with
  | recorded here => simp [Point.unrecorded] at still
  | copied here => simp [Point.unrecorded] at still
  | kept _ _ unrecorded _ => exact unrecorded still

theorem Advanced.uncopied (step : Advanced self point before next after)
    (known : ∀ patch ∈ point.uncopied, patch.installed ∈ before.recorded) :
    ∀ patch ∈ next.uncopied, patch.installed ∈ after.recorded := by
  intro patch member
  cases step with
  | recorded here =>
    simp only [Process.recorded, List.flatMap_append, List.mem_append]
    exact Or.inr (by simpa [PendingPatch.installed] using ⟨patch, member, rfl, rfl⟩)
  | copied here =>
    subst here
    exact known patch (List.mem_cons_of_mem _ member)
  | kept _ none => simp [none] at member

theorem Advanced.memory (step : Advanced self point before next after) {location : Nat}
    (outside : ∀ patch ∈ point.uncopied, ¬ patch.installed.Covers location) :
    after.memory location = before.memory location := by
  cases step with
  | recorded here => rfl
  | copied here =>
    subst here
    exact Memory.writeAt_outside _ (outside _ List.mem_cons_self)
  | kept untouched => rw [untouched.memory]

end

theorem advance_advanced (point : Point) (process : Process) :
    Advanced self point process (point.advance platform environment self process).1
      (point.advance platform environment self process).2 := by
  cases point with
  | protecting pages left protections =>
    cases left with
    | nil => exact .kept (.refl _) rfl (by simp [unrecorded]) (by simp [locked])
    | cons address left =>
      have untouched := PatchSession.virtualProtect_untouched environment.protect .protect address pageExecuteReadWrite
        process
      rcases called : (PatchSession.virtualProtect environment.protect .protect address pageExecuteReadWrite).exec
        process with ⟨failure | error | old, after⟩ <;> rw [called] at untouched <;> simp only [advance, called]
      · exact .kept untouched rfl (by simp [unrecorded]) (by simp [locked])
      · exact .kept untouched rfl (by simp [unrecorded]) (by simp [locked])
      · exact .kept untouched rfl (by simp [unrecorded]) (by simp [locked])
  | restoring left firstError exit =>
    cases left with
    | nil => exact .kept (.refl _) rfl (by simp [advance, unrecorded]) (by simp [locked])
    | cons protection left =>
      have untouched := PatchSession.virtualProtect_untouched environment.restore .restore protection.address
        protection.old process
      rcases called : (PatchSession.virtualProtect environment.restore .restore protection.address protection.old).exec
        process with ⟨failure | error | old, after⟩ <;> rw [called] at untouched <;> simp only [advance, called]
      · exact .kept untouched rfl (by simp [unrecorded]) (by simp [locked])
      · exact .kept untouched rfl (by cases exit <;> simp [unrecorded]) (by simp [locked])
      · exact .kept untouched rfl (by cases exit <;> simp [unrecorded]) (by simp [locked])
  | recording pages protections => exact .recorded rfl
  | copying left protections =>
    cases left with
    | nil => exact .kept (.refl _) rfl (by simp [advance, unrecorded]) (by simp [locked])
    | cons patch left => exact .copied rfl
  | _ =>
    simp only [advance]
    repeat' split
    all_goals exact .kept (.refl _) rfl (by simp [unrecorded]) (by simp [locked])

theorem advance_sealed {point : Point} (known : point.Sealed environment self) (process : Process) :
    (point.advance platform environment self process).1.Sealed environment self := by
  cases point with
  | sealing =>
    rcases ran : (PatchSession.sealPages environment 0 self.pages).exec process with ⟨failure | pages, middle⟩
    · simp only [advance, ran]
      trivial
    · rcases flush : (PatchSession.flushAll environment.flushPage 0 pages).exec process with ⟨failure | done, last⟩
      · simp only [advance, ran, flush]
        trivial
      · simp only [advance, ran, flush]
        -- What sealing and flushing answer depends on the environment only.
        refine fun other => ⟨?_, ?_⟩
        · rw [PatchSession.sealPages_anywhere self.pages process other, ran]
        · rw [PatchSession.flushAll_anywhere environment.flushPage pages process other, flush]
  | protecting pages left protections =>
    cases left with
    | nil => exact known
    | cons address left =>
      simp only [advance]
      split
      · trivial
      · trivial
      · exact known
  | copying left protections => cases left <;> trivial
  | restoring left firstError exit =>
    cases left with
    | nil => trivial
    | cons protection left =>
      simp only [advance]
      split <;> trivial
  | waiting pages => exact known
  | recording pages protections => trivial
  | flushing protections => trivial
  | finished result => trivial
  | checking pages | validating pages | revalidating pages protections =>
    simp only [advance]
    split
    · trivial
    · exact known
  | collecting pages =>
    simp only [advance]
    split
    · trivial
    · exact known

theorem advance_sealing (process other : Process) :
    Point.advance platform environment self other .sealing =
      ((Point.advance platform environment self process .sealing).1, other) := by
  simp only [advance]
  rw [PatchSession.sealPages_anywhere self.pages process other]
  rcases (PatchSession.sealPages environment 0 self.pages).exec process with ⟨failure | pages, middle⟩
  · rfl
  · simp only []
    rw [PatchSession.flushAll_anywhere environment.flushPage pages process other]
    rcases (PatchSession.flushAll environment.flushPage 0 pages).exec process with ⟨failure | done, last⟩ <;> rfl

theorem advance_sealing_cases (process : Process) :
    (∃ pages, (Point.advance platform environment self process .sealing).1 = .waiting pages) ∨
      ∃ failure, (Point.advance platform environment self process .sealing).1 = .finished (.error failure) := by
  simp only [advance]
  split
  next failure _ _ => exact Or.inr ⟨failure, rfl⟩
  next pages _ _ =>
    split
    next failure _ _ => exact Or.inr ⟨failure, rfl⟩
    next => exact Or.inl ⟨pages, rfl⟩

theorem rest_recorded {record : InstalledPatch} (point : Point) (process : Process) :
    record ∈ ((rest platform environment self point).exec process).2.recorded →
      record ∈ process.recorded ∨ point.unrecorded ∧ ∃ patch ∈ self.pending, patch.installed = record := by
  refine rest_induction (motive := fun point process outcome => record ∈ outcome.2.recorded →
    record ∈ process.recorded ∨ point.unrecorded ∧ ∃ patch ∈ self.pending, patch.installed = record)
    (fun _ _ => Or.inl) ?_ point process
  intro point process _ later member
  have step := @advance_advanced platform environment self point process
  rcases later member with earlier | ⟨unrecorded, own⟩
  · exact step.recordedOwn earlier
  · exact Or.inr ⟨step.unrecorded unrecorded, own⟩

theorem rest_keeps_recorded {record : InstalledPatch} (point : Point) (process : Process) :
    record ∈ process.recorded → record ∈ ((rest platform environment self point).exec process).2.recorded := by
  refine rest_induction (motive := fun _ process outcome => record ∈ process.recorded → record ∈ outcome.2.recorded)
    (fun _ _ => id) ?_ point process
  intro point process _ later member
  exact later ((@advance_advanced platform environment self point process).grown member)

theorem rest_memory {location : Nat} (point : Point) (process : Process) :
    (∀ patch ∈ point.uncopied, patch.installed ∈ process.recorded) →
    (∀ record ∈ ((rest platform environment self point).exec process).2.recorded, ¬ record.Covers location) →
      ((rest platform environment self point).exec process).2.memory location = process.memory location := by
  refine rest_induction (motive := fun point process outcome =>
    (∀ patch ∈ point.uncopied, patch.installed ∈ process.recorded) →
    (∀ record ∈ outcome.2.recorded, ¬ record.Covers location) → outcome.2.memory location = process.memory location)
    (fun _ _ _ _ => rfl) ?_ point process
  intro point process _ later uncopied outside
  have step := @advance_advanced platform environment self point process
  refine (later (step.uncopied uncopied) outside).trans (step.memory fun patch member => ?_)
  exact outside _ (rest_keeps_recorded point process (uncopied patch member))

def Reads (self : PatchSession) (point : Point) (location : Nat) : Prop :=
  point.unrecorded ∧ ∃ patch ∈ self.pending, Memory.Inside patch.address patch.expected.length location

theorem advance_reads {point : Point} {process : Process} {location : Nat}
    (reads : (point.advance platform environment self process).1.Reads self location) : point.Reads self location :=
  ⟨(advance_advanced point process).unrecorded reads.1, reads.2⟩

theorem advance_alike {region : Nat → Prop} {first second : Process} (alike : first.Alike region second) {point : Point}
    (known : ∀ location, point.Reads self location → region location) :
    (point.advance platform environment self first).1 = (point.advance platform environment self second).1 ∧
      (point.advance platform environment self first).2.Alike region
        (point.advance platform environment self second).2 := by
  -- Memory is looked at by the two validations only, as long as the patches are not recorded.
  have validated (unrecorded : point.unrecorded) :
      PatchSession.validatePatchSources first.memory self.pending =
        PatchSession.validatePatchSources second.memory self.pending :=
    PatchSession.validatePatchSources_alike fun patch pending location inside =>
      alike.memory location (known location ⟨unrecorded, patch, pending, inside⟩)
  cases point with
  | sealing =>
    have sealed := (@PatchSession.sealPages_related environment (Process.Alike region) 0 self.pages _ _ alike).1.eq
    rcases ran : (PatchSession.sealPages environment 0 self.pages).exec first with ⟨failure | pages, middle⟩ <;>
      rcases other : (PatchSession.sealPages environment 0 self.pages).exec second with ⟨reason | mappings, end'⟩ <;>
      rw [ran, other] at sealed <;> cases sealed
    · simpa only [advance, ran, other, true_and] using alike
    · have flushed :=
        (@PatchSession.flushAll_related (Process.Alike region) environment.flushPage 0 pages _ _ alike).1.eq
      rcases flush : (PatchSession.flushAll environment.flushPage 0 pages).exec first with ⟨failure | done, last⟩ <;>
        rcases flush' : (PatchSession.flushAll environment.flushPage 0 pages).exec second with
          ⟨reason | done', last'⟩ <;>
        rw [flush, flush'] at flushed <;> cases flushed <;>
          simpa only [advance, ran, other, flush, flush', true_and] using alike
  | waiting pages => exact ⟨rfl, alike⟩
  | checking pages =>
    simp only [advance, alike.registry]
    split <;> exact ⟨rfl, alike⟩
  | validating pages | revalidating pages protections =>
    simp only [advance, validated rfl]
    split <;> exact ⟨rfl, alike⟩
  | collecting pages =>
    simp only [advance]
    split <;> exact ⟨rfl, alike⟩
  | protecting pages left protections =>
    cases left with
    | nil => exact ⟨rfl, alike⟩
    | cons address left =>
      obtain ⟨answers, after⟩ :=
        PatchSession.virtualProtect_related environment.protect .protect address pageExecuteReadWrite alike
      rcases called : (PatchSession.virtualProtect environment.protect .protect address pageExecuteReadWrite).exec first
        with ⟨answer, middle⟩
      rcases other : (PatchSession.virtualProtect environment.protect .protect address pageExecuteReadWrite).exec second
        with ⟨answer', middle'⟩
      rw [called, other] at answers after
      obtain rfl : answer = answer' := answers.eq
      simp only [advance, called, other]
      rcases answer with failure | error | old <;> exact ⟨rfl, after⟩
  | recording pages protections =>
    exact ⟨rfl, alike.protection, by simp only [advance, alike.registry], alike.events, alike.memory⟩
  | copying left protections =>
    cases left with
    | nil => exact ⟨rfl, alike⟩
    | cons patch left =>
      refine ⟨rfl, alike.protection, alike.registry, by simp only [advance, alike.events], fun location inside => ?_⟩
      simp only [advance, Memory.writeAt, alike.memory location inside]
  | flushing protections =>
    have flushed := (@PatchSession.flushAll_related (Process.Alike region) environment.flushPatch 0
      (self.pending.map (·.address)) _ _ alike).1.eq
    simpa only [advance, flushed, true_and] using alike
  | restoring left firstError exit =>
    cases left with
    | nil => exact ⟨rfl, alike⟩
    | cons protection left =>
      obtain ⟨answers, after⟩ :=
        PatchSession.virtualProtect_related environment.restore .restore protection.address protection.old alike
      rcases called : (PatchSession.virtualProtect environment.restore .restore protection.address protection.old).exec
        first with ⟨answer, middle⟩
      rcases other : (PatchSession.virtualProtect environment.restore .restore protection.address protection.old).exec
        second with ⟨answer', middle'⟩
      rw [called, other] at answers after
      obtain rfl : answer = answer' := answers.eq
      simp only [advance, called, other]
      rcases answer with failure | error | old <;> exact ⟨rfl, after⟩
  | finished result => exact ⟨rfl, alike⟩

theorem rest_alike {region : Nat → Prop} {first second : Process} (alike : first.Alike region second) {point : Point}
    (known : ∀ location, point.Reads self location → region location) :
    ((rest platform environment self point).exec first).1 = ((rest platform environment self point).exec second).1 ∧
      ((rest platform environment self point).exec first).2.Alike region
        ((rest platform environment self point).exec second).2 := by
  refine rest_induction (motive := fun point first outcome => ∀ second, first.Alike region second →
    (∀ location, point.Reads self location → region location) →
      outcome.1 = ((rest platform environment self point).exec second).1 ∧
        outcome.2.Alike region ((rest platform environment self point).exec second).2)
    (fun _ _ _ alike _ => ⟨rfl, alike⟩) ?_ point first second alike known
  intro point first _ later second alike known
  obtain ⟨same, after⟩ := @advance_alike platform environment self region first second alike point known
  have rest := later _ after fun location reads => known location (advance_reads reads)
  rwa [same, rest_advance] at rest

end Point

end Patchy
