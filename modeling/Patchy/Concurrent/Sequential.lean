import Patchy.Concurrent.Orderly
import Patchy.System.Permanence

set_option autoImplicit false

namespace Patchy

def Operation.thread : Operation → Nat
  | .create id | .prepare id _ _ | .drop id | .installPermanently id _ => id

/-- The system in which an installation is one step, with all that each of its users has been told. -/
structure Answered where
  system : System
  answers : Nat → List Outcome

namespace Answered

def initial (memory : ProcessMemory) (protection : Nat → Nat) : Answered :=
  ⟨System.initial memory protection, fun _ => []⟩

def step (platform : Platform) (self : Answered) (operation : Operation) : Answered :=
  let after := self.system.step platform operation
  ⟨after.2, Function.update self.answers operation.thread (self.answers operation.thread ++ [after.1])⟩

def run (platform : Platform) (self : Answered) (operations : List Operation) : Answered :=
  operations.foldl (step platform) self

def machine (platform : Platform) (memory : ProcessMemory) : Machine Answered Operation where
  initial self := ∃ protection, self = initial memory protection
  admits self := System.Admissible platform self.system
  next := step platform

theorem reachable_system {platform : Platform} {memory : ProcessMemory} {self : Answered}
    (reachable : (machine platform memory).Reachable self) :
    (System.machine platform memory).Reachable self.system := by
  induction reachable with
  | start initial =>
    obtain ⟨protection, rfl⟩ := initial
    exact .start ⟨protection, rfl⟩
  | step _ admitted ih => exact .step ih admitted

variable {platform : Platform} {self : Answered} {id : Nat} {environment : InstallEnvironment} {session : PatchSession}

theorem step_install (live : self.system.sessions id = some session) :
    let ran := (session.installPermanently platform environment).exec self.system.process
    self.step platform (.installPermanently id environment) =
      ⟨self.system.afterInstallation id session ran.2,
        Function.update self.answers id (self.answers id ++ [.installed ran.1])⟩ := by
  simp only [step, System.step, live, Operation.thread]

theorem install_mapped (live : self.system.sessions id = some session) {base : Nat}
    (mapped : (self.step platform (.installPermanently id environment)).system.Mapped base) :
    self.system.Mapped base := by
  rcases mapped with ⟨owner, found, alive, member⟩ | recorded
  · rw [step_install live] at alive
    rcases System.setSession_sessions alive with ⟨-, gone⟩ | ⟨-, old⟩
    · contradiction
    · exact Or.inl ⟨owner, found, old, member⟩
  · rcases System.owns_step recorded with earlier | own
    · exact Or.inr earlier
    · exact Or.inl own

end Answered

def Point.decided : Point → Bool
  | .sealing | .waiting _ => false
  | _ => true

def Thread.undecided : Thread → Option PatchSession
  | .idle => none
  | .preparing session => some session
  | .installing session _ point => if point.decided then none else some session

def Process.Untaken (self : Process) (range : InstalledPatch) : Prop := ∀ record ∈ self.recorded, record.Apart range

namespace Point

theorem locked_decided {point : Point} (locked : point.locked) : point.decided := by
  cases point <;> first | rfl | simp [Point.locked] at locked

theorem decided_cases {point : Point} (decided : point.decided) :
    point.locked ∨ ∃ result, point = .finished result := by
  cases point with
  | finished result => exact Or.inr ⟨result, rfl⟩
  | sealing => simp [Point.decided] at decided
  | waiting pages => simp [Point.decided] at decided
  | _ => exact Or.inl rfl

theorem advance_decided {platform : Platform} {environment : InstallEnvironment} {session : PatchSession}
    {point : Point} (decided : point.decided) (process : Process) :
    (point.advance platform environment session process).1.decided := by
  cases point with
  | sealing => simp [Point.decided] at decided
  | waiting pages => rfl
  | protecting pages left protections | copying left protections | restoring left firstError exit =>
    cases left <;> simp only [advance] <;> (repeat' split) <;> rfl
  | _ =>
    simp only [advance]
    repeat' split
    all_goals rfl

end Point

namespace Concurrent

def settled (platform : Platform) (self : Concurrent) : Process :=
  match self.lock with
  | none => self.process
  | some id =>
    match self.threads id with
    | .installing session environment point =>
        ((Point.rest platform environment session point).exec self.process).2
    | _ => self.process

/-- The operation of the sequential system that happens with a move. An installation happens with the move that takes
    the lock, or with the one by which it fails before. -/
def takesEffect (platform : Platform) (self : Concurrent) : Move → Option Operation
  | .create id =>
      match self.threads id with
      | .idle => some (.create id)
      | _ => none
  | .prepare id oracle preparation =>
      match self.threads id with
      | .preparing _ => some (.prepare id oracle preparation)
      | _ => none
  | .drop id =>
      match self.threads id with
      | .preparing _ => some (.drop id)
      | _ => none
  | .install _ _ => none
  | .advance id =>
      match self.threads id with
      | .installing session environment point =>
          if ¬ point.decided ∧ ¬ point.blocked self.lock ∧
              (point.advance platform environment session self.process).1.decided then
            some (.installPermanently id environment)
          else none
      | _ => none

def told (platform : Platform) (self : Concurrent) : Move → Option Outcome
  | .create id =>
      match self.threads id with
      | .idle => some .done
      | _ => none
  | .prepare id oracle preparation =>
      match self.threads id with
      | .preparing session =>
          some (.prepared ((preparation.run platform oracle).exec ⟨session, self.process.memory⟩).1)
      | _ => none
  | .drop id =>
      match self.threads id with
      | .preparing _ => some .done
      | _ => none
  | .install _ _ => none
  | .advance id =>
      match self.threads id with
      | .installing _ _ (.finished result) => some (.installed result)
      | _ => none

-- What is certain already but has not been told yet.
def due (platform : Platform) (self : Concurrent) (id : Nat) : Option Outcome :=
  match self.threads id with
  | .installing session environment point =>
      if point.decided then some (.installed ((Point.rest platform environment session point).exec self.process).1)
      else none
  | _ => none

def Torn (platform : Platform) (self : Concurrent) (source : InstalledPatch) : Prop :=
  Memory.readAt self.process.memory source.address source.size ≠
    Memory.readAt (self.settled platform).memory source.address source.size

instance (platform : Platform) (self : Concurrent) (source : InstalledPatch) :
    Decidable (self.Torn platform source) :=
  inferInstanceAs (Decidable (_ ≠ _))

end Concurrent

/-- The threads whose sessions have read bytes as they were being replaced, and the pages of such sessions. -/
structure Tears where
  sessions : Nat → Bool
  pages : List Nat

namespace Tears

def step (platform : Platform) (state : Concurrent) (self : Tears) : Move → Tears
  | .create id =>
      match state.threads id with
      | .idle => { self with sessions := Function.update self.sessions id false }
      | _ => self
  | .prepare id oracle preparation =>
      match state.threads id with
      | .preparing session =>
          let ran := (preparation.run platform oracle).exec ⟨session, state.process.memory⟩
          if self.sessions id ∨ ran.1.isOk ∧ state.Torn platform preparation.source then
            ⟨Function.update self.sessions id true, self.pages ++ ran.2.session.bases⟩
          else self
      | _ => self
  | _ => self

def Spares (platform : Platform) (self : Tears) (location : Nat) : Prop :=
  ∀ base ∈ self.pages, ¬ Memory.Inside base platform.pageSize location

end Tears

/-- A run of the threads, with what it comes to: the operations that have happened, in this order, and what each
    thread has been told. -/
structure Trace where
  state : Concurrent
  operations : List Operation
  answers : Nat → List Outcome
  tears : Tears

namespace Trace

def note (answers : Nat → List Outcome) (id : Nat) (outcome : Option Outcome) : Nat → List Outcome :=
  Function.update answers id (answers id ++ outcome.toList)

def step (platform : Platform) (self : Trace) (move : Move) : Trace where
  state := self.state.step platform move
  operations := self.operations ++ (self.state.takesEffect platform move).toList
  answers := note self.answers move.thread (self.state.told platform move)
  tears := self.tears.step platform self.state move

def initial (memory : ProcessMemory) (protection : Nat → Nat) : Trace :=
  ⟨Concurrent.initial memory protection, [], fun _ => [], ⟨fun _ => false, []⟩⟩

def machine (platform : Platform) (memory : ProcessMemory) (protection : Nat → Nat) : Machine Trace Move where
  initial self := self = initial memory protection
  admits self := Concurrent.Admissible platform self.state
  next := step platform

@[simp] theorem note_none (answers : Nat → List Outcome) (id : Nat) : note answers id none = answers := by
  simp [note]

theorem note_self (answers : Nat → List Outcome) (id : Nat) (outcome : Option Outcome) :
    note answers id outcome id = answers id ++ outcome.toList :=
  Function.update_self _ _ _

theorem note_of_ne (answers : Nat → List Outcome) {id other : Nat} (different : other ≠ id)
    (outcome : Option Outcome) : note answers id outcome other = answers other :=
  Function.update_of_ne different _ _

theorem reachable_state {platform : Platform} {memory : ProcessMemory} {protection : Nat → Nat} {self : Trace}
    (reachable : (machine platform memory protection).Reachable self) :
    (Concurrent.machine platform memory).Reachable self.state := by
  induction reachable with
  | start initial =>
    subst initial
    exact .start ⟨protection, rfl⟩
  | step _ admitted ih => exact .step ih admitted

theorem operations_prefix {platform : Platform} {memory : ProcessMemory} {protection : Nat → Nat} {before after : Trace}
    (leads : (machine platform memory protection).Leads before after) : before.operations <+: after.operations := by
  induction leads with
  | refl => exact List.prefix_refl _
  | tail _ step ih =>
    obtain ⟨move, -, rfl⟩ := step
    exact ih.trans (List.prefix_append _ _)

end Trace

end Patchy
