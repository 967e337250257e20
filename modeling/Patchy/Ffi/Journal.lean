import Patchy.Ffi.Programs
import Patchy.Machine.Detour

set_option autoImplicit false

namespace Patchy

namespace Native

def operation (self : Native) : NativeMove → Option Operation
  | .session operation => some operation
  | .detourTrampoline id oracle address size builder =>
      (self.builders builder).map fun trampoline => .prepare id oracle (.detourTrampoline address size trampoline)
  | .newBuilder _ | .dropBuilder _ | .build _ _ => none

end Native

namespace Ffi

structure Hook where
  preparation : Preparation
  trampoline : Option Nat

/-- A process that uses the library from C, and what its calls that succeeded amount to: the operations of each
    builder, the patches each session has prepared, and those that are installed. -/
structure Journal where
  abi : Abi
  programs : Nat → List BuilderOp
  prepared : Nat → List Hook
  installed : List Hook

namespace Journal

def initial (memory : ProcessMemory) (protection : Nat → Nat) (panics : AbiCall → AbiState → Option String) : Journal :=
  ⟨Abi.initial memory protection panics, fun _ => [], fun _ => [], []⟩

def addHook (self : Journal) (id : Nat) (hook : Hook) : Journal :=
  { self with prepared := Function.update self.prepared id (self.prepared id ++ [hook]) }

def setProgram (self : Journal) (id : Nat) (ops : List BuilderOp) : Journal :=
  { self with programs := Function.update self.programs id ops }

def note (self : Journal) (output : Option Nat) : NativeMove → Journal
  | .session (.create id) => { self with prepared := Function.update self.prepared id [] }
  | .session (.prepare id _ preparation) => self.addHook id ⟨preparation, output⟩
  | .session (.installPermanently id _) => { self with installed := self.installed ++ self.prepared id }
  | .detourTrampoline id _ address size builder =>
      self.addHook id ⟨.detourTrampoline address size (assemble (self.programs builder)), output⟩
  | .newBuilder id => self.setProgram id []
  | .build id op => self.setProgram id (self.programs id ++ [op])
  | .session (.drop _) | .dropBuilder _ => self

def afterAnswer (self : Journal) (abi : Abi) (answer : Answer) (move : NativeMove) : Journal :=
  let after := { self with abi := abi }
  if answer.status = .ok then after.note answer.output move else after

def step (platform : Platform) (self : Journal) (operation : Nat × AbiCall) : Journal :=
  let answered := self.abi.call platform operation.1 operation.2
  match operation.2.meaning self.abi.native with
  | some move => self.afterAnswer answered.2 answered.1 move
  | none => { self with abi := answered.2 }

/-- Pointers are used as the header demands, labels are created with a place for their number, and what a call comes
    down to may be done. -/
def Admissible (platform : Platform) (self : Journal) (operation : Nat × AbiCall) : Prop :=
  operation.2.Contract self.abi.handles ∧ ¬ operation.2.Leaks self.abi.handles ∧
    ∀ move ∈ operation.2.meaning self.abi.native, ∀ means ∈ self.abi.native.operation move,
      System.Admissible platform self.abi.native.system means ∧ self.abi.native.system.NewPagesApart platform means

def machine (platform : Platform) (memory : ProcessMemory) : Machine Journal (Nat × AbiCall) where
  initial self := ∃ protection panics, self = initial memory protection panics
  admits := Admissible platform
  next := step platform

end Journal

structure Hook.Tells (hook : Hook) (entry : Entry) : Prop where
  preparation : entry.preparation = hook.preparation
  result : ∃ patch, entry.result = .ok patch ∧ (∀ told ∈ hook.trampoline, patch.trampoline.getD 0 = told) ∧
    ((hook.preparation.trampoline entry.memory).isSome → patch.trampoline.isSome)

/-- What a caller has been told is what has happened. -/
structure Journal.Followed (journal : Journal) (history : History) (native : Native) : Prop where
  system : native.system = history.system
  represents : Represents journal.abi native
  programs : ∀ id trampoline, native.builders id = some trampoline → trampoline = assemble (journal.programs id)
  prepared : ∀ id session, history.system.sessions id = some session → ∀ hook ∈ journal.prepared id,
    ∃ entry ∈ history.made id, hook.Tells entry
  installed : ∀ hook ∈ journal.installed, ∃ entry ∈ history.installed, hook.Tells entry

section

variable {platform : Platform} {memory : ProcessMemory} {native : Native} {abi : Abi} {call : AbiCall}
  {move : NativeMove}

theorem step_operation {means : Operation} (comes : native.operation move = some means) :
    native.step platform move =
      ((native.system.step platform means).1.answer,
        { native with system := (native.system.step platform means).2 }) := by
  cases move with
  | session operation =>
    obtain rfl := Option.some.inj comes
    rfl
  | detourTrampoline id oracle address size builder =>
    obtain ⟨trampoline, found, rfl⟩ := Option.map_eq_some_iff.mp comes
    simp only [Native.step, found]
    rfl
  | newBuilder id | dropBuilder id | build id op => contradiction

theorem step_builder (quiet : native.operation move = none) :
    (native.step platform move).2.system = native.system := by
  cases move with
  | session operation => contradiction
  | detourTrampoline id oracle address size builder =>
    simp only [Native.step, Option.map_eq_none_iff.mp quiet]
  | newBuilder id | dropBuilder id => rfl
  | build id op =>
    simp only [Native.step]
    split <;> rfl

theorem Represents.operation (represents : Represents abi native) (move : NativeMove) :
    native.operation move = abi.native.operation move := by
  have builders : native.builders = abi.native.builders := funext represents.builders
  cases move <;> simp only [Native.operation, builders]

theorem Represents.admits (represents : Represents abi native) (means : Operation) :
    System.Admissible platform abi.native.system means ∧ abi.native.system.NewPagesApart platform means ↔
      System.Admissible platform native.system means ∧ native.system.NewPagesApart platform means := by
  obtain ⟨⟨process, sessions, batches, mapped⟩, builders⟩ := native
  obtain rfl : abi.process = process := represents.process
  obtain rfl : sessions = abi.native.system.sessions := funext represents.sessions
  cases means <;> exact Iff.rfl

theorem outputs_prepared {id : Nat} {oracle : MappingOracle} {preparation : Preparation}
    (means : call.meaning native = some move) (comes : native.operation move = some (.prepare id oracle preparation))
    {address : Option Nat} : ∀ told ∈ call.outputs (.ok address), address.getD 0 = told := by
  intro told written
  cases call with
  | sessionOverwrite session place bytes length => contradiction
  | sessionPatchCall _ _ _ _ _ _ _ output | sessionDetour _ _ _ _ _ _ output
  | sessionDetourTrampoline _ _ _ _ _ output =>
    cases output with
    | null => contradiction
    | valid => exact Option.some.inj written
  | sessionCreate | sessionDestroy | sessionInstallPermanently | trampolineCreate | trampolineDestroy =>
    obtain ⟨-, rfl⟩ := by simpa [AbiCall.meaning] using means
    simp [Native.operation] at comes
  | mainModuleBase | resolveRva => contradiction
  | trampoline builder call =>
    simp only [AbiCall.meaning, Option.bind_eq_bind, Option.bind_eq_some_iff, Option.some.injEq] at means
    obtain ⟨_, -, _, -, _, -, rfl⟩ := means
    contradiction

theorem session_live {id : Nat} {environment : InstallEnvironment} (represents : Represents abi native)
    (contract : call.Contract abi.handles)
    (means : call.meaning native = some (.session (.installPermanently id environment))) :
    ∃ session, native.system.sessions id = some session := by
  cases call with
  | sessionInstallPermanently _ pointer session =>
    obtain ⟨⟨-, valid⟩, rfl, -⟩ := by simpa [AbiCall.meaning] using means
    obtain ⟨inner, live⟩ := contract.resolve_left valid
    exact ⟨inner, by rw [represents.sessions, live]; rfl⟩
  | _ => simp [AbiCall.meaning, Option.bind_eq_some_iff] at means

theorem builder_live {id address size builder : Nat} {oracle : MappingOracle} (represents : Represents abi native)
    (contract : call.Contract abi.handles)
    (means : call.meaning native = some (.detourTrampoline id oracle address size builder)) :
    ∃ trampoline, native.builders builder = some trampoline := by
  cases call with
  | sessionDetourTrampoline _ session _ _ handle _ =>
    obtain ⟨⟨-, valid⟩, -, -, -, -, rfl⟩ := by simpa [AbiCall.meaning] using means
    obtain ⟨inner, live⟩ := contract.2.resolve_left valid
    exact ⟨inner.inner, by rw [represents.builders, live]; rfl⟩
  | _ => simp [AbiCall.meaning, Option.bind_eq_some_iff] at means

namespace Journal

variable {journal : Journal} {history : History} {after : Abi} {means : Operation}

theorem afterAnswer_ok {answer : Option Nat} {output : Option Nat} :
    journal.afterAnswer after ⟨.ofResult (.ok answer), output⟩ move = { journal with abi := after }.note output move :=
  rfl

theorem afterAnswer_error {failure : Failure} {output : Option Nat} :
    journal.afterAnswer after ⟨.ofResult (.error failure), output⟩ move = { journal with abi := after } :=
  if_neg (PatchyStatus.ofFailure_ne_ok failure)

theorem Followed.note_prepare (followed : journal.Followed history native) {id : Nat} {oracle : MappingOracle}
    {preparation : Preparation} (comes : native.operation move = some (.prepare id oracle preparation))
    (output : Option Nat) :
    { journal with abi := after }.note output move =
      { journal with abi := after }.addHook id ⟨preparation, output⟩ := by
  cases move with
  | session operation =>
    obtain rfl := Option.some.inj comes
    rfl
  | detourTrampoline own _ address size builder =>
    obtain ⟨trampoline, found, same⟩ := Option.map_eq_some_iff.mp comes
    obtain rfl := followed.programs builder trampoline found
    obtain ⟨rfl, -, rfl⟩ := Operation.prepare.inj same
    rfl
  | newBuilder id | dropBuilder id | build id op => contradiction

theorem tells_prepared {id : Nat} {oracle : MappingOracle} {preparation : Preparation} {before workspace : Workspace}
    {patch : Patch} (means : call.meaning native = some move)
    (comes : native.operation move = some (.prepare id oracle preparation))
    (prepared : PatchSession.Prepared platform oracle preparation before patch workspace) :
    Hook.Tells ⟨preparation, call.outputs (.ok patch.trampolineAddress)⟩ ⟨preparation, before.memory, .ok patch⟩ := by
  refine ⟨rfl, patch, rfl, outputs_prepared means comes, fun asked => ?_⟩
  cases prepared with
  | overwritten same => simp [same, Preparation.trampoline] at asked
  | detoured => rfl

theorem afterAnswer_programs {answer : Answer} (comes : native.operation move = some means) :
    (journal.afterAnswer after answer move).programs = journal.programs := by
  simp only [afterAnswer]
  split
  · cases move with
    | session operation => cases operation <;> rfl
    | detourTrampoline id oracle address size builder => rfl
    | newBuilder id | dropBuilder id | build id op => contradiction
  · rfl

theorem Followed.operation (followed : journal.Followed history native) {answer : Answer}
    (comes : native.operation move = some means) (represents : Represents after (native.step platform move).2)
    (prepared : ∀ id session, (history.step platform means).system.sessions id = some session →
      ∀ hook ∈ (journal.afterAnswer after answer move).prepared id,
        ∃ entry ∈ (history.step platform means).made id, hook.Tells entry)
    (installed : ∀ hook ∈ (journal.afterAnswer after answer move).installed,
      ∃ entry ∈ (history.step platform means).installed, hook.Tells entry) :
    (journal.afterAnswer after answer move).Followed (history.step platform means) (native.step platform move).2 := by
  refine ⟨?_, ?_, fun id trampoline found => ?_, prepared, installed⟩
  · rw [step_operation comes, History.step_system, followed.system]
  · simp only [afterAnswer]
    split
    · cases move with
      | session operation => cases operation <;> exact represents
      | _ => exact represents
    · exact represents
  · rw [step_operation comes] at found
    rw [afterAnswer_programs comes]
    exact followed.programs id trampoline found

theorem made_prepare {id other : Nat} {oracle : MappingOracle} {preparation : Preparation} {session : PatchSession}
    (live : (history.step platform (.prepare id oracle preparation)).system.sessions other = some session) :
    (∃ before, history.system.sessions other = some before) ∧
      ∀ entry ∈ history.made other, entry ∈ (history.step platform (.prepare id oracle preparation)).made other := by
  simp only [History.step, System.step] at live ⊢
  cases found : history.system.sessions id with
  | none =>
    rw [found] at live
    exact ⟨⟨session, live⟩, fun _ member => member⟩
  | some own =>
    rw [found] at live
    by_cases same : other = id
    · subst same
      refine ⟨⟨own, found⟩, fun entry member => ?_⟩
      simp [member]
    · refine ⟨⟨session, ?_⟩, fun entry member => ?_⟩
      · simpa [System.afterPreparation, System.setSession, same] using live
      · simpa [same] using member

theorem Followed.prepare (followed : journal.Followed history native) {id : Nat} {oracle : MappingOracle}
    {preparation : Preparation} (meant : call.meaning native = some move)
    (comes : native.operation move = some (.prepare id oracle preparation))
    (represents : Represents after (native.step platform move).2) :
    (journal.afterAnswer after
      ⟨.ofResult (native.step platform move).1, call.outputs (native.step platform move).1⟩ move).Followed
        (history.step platform (.prepare id oracle preparation)) (native.step platform move).2 := by
  have answers : (native.step platform move).1 =
      (history.system.step platform (.prepare id oracle preparation)).1.answer := by
    rw [step_operation comes, followed.system]
  refine followed.operation comes represents (fun other session live hook member => ?_) ?_
  · obtain ⟨⟨before, alive⟩, grown⟩ := made_prepare live
    have old (known : hook ∈ journal.prepared other) :
        ∃ entry ∈ (history.step platform (.prepare id oracle preparation)).made other, hook.Tells entry := by
      obtain ⟨entry, made, tells⟩ := followed.prepared other before alive hook known
      exact ⟨entry, grown entry made, tells⟩
    simp only [System.step] at answers
    -- A preparation of a session that is gone does nothing; one that fails adds no hook, and one that succeeds adds
    -- its own.
    cases found : history.system.sessions id with
    | none =>
      have different : other ≠ id := by
        rintro rfl
        simp [found] at alive
      simp only [found, Outcome.answer] at answers
      rw [answers, afterAnswer_ok, followed.note_prepare comes] at member
      refine old ?_
      simpa [addHook, different] using member
    | some own =>
      rcases PatchSession.preparation_cases platform oracle preparation ⟨own, history.system.process.memory⟩ with
        ⟨failure, ran⟩ | ⟨patch, workspace, ran, prepared⟩ <;>
        simp only [found, ran, Outcome.answer, Except.map] at answers
      · rw [answers, afterAnswer_error] at member
        exact old member
      · rw [answers, afterAnswer_ok, followed.note_prepare comes] at member
        by_cases same : other = id
        · subst same
          simp only [addHook, Function.update_self, List.mem_append, List.mem_singleton] at member
          rcases member with known | rfl
          · exact old known
          · refine ⟨⟨preparation, history.system.process.memory, .ok patch⟩, ?_, tells_prepared meant comes prepared⟩
            simp [History.step, found, ran]
        · refine old ?_
          simpa [addHook, same] using member
  · intro hook member
    have known : hook ∈ journal.installed := by
      simp only [afterAnswer] at member
      split at member
      · rwa [followed.note_prepare comes] at member
      · exact member
    obtain ⟨entry, made, tells⟩ := followed.installed hook known
    refine ⟨entry, ?_, tells⟩
    simp only [History.step]
    split <;> exact made

theorem Followed.create (followed : journal.Followed history native) {id : Nat}
    (represents : Represents after (native.step platform (.session (.create id))).2) (output : Option Nat) :
    (journal.afterAnswer after ⟨.ofResult (native.step platform (.session (.create id))).1, output⟩
      (.session (.create id))).Followed (history.step platform (.create id))
        (native.step platform (.session (.create id))).2 := by
  have answers : (native.step platform (.session (.create id))).1 = .ok none := by
    simp only [Native.step, Native.onSystem, System.step]
    split <;> rfl
  refine followed.operation rfl represents (fun other session live hook member => ?_) (fun hook member => ?_)
  · rw [answers, afterAnswer_ok] at member
    by_cases same : other = id
    · subst same
      simp [note] at member
    · simp only [note, Function.update_of_ne same] at member
      simp only [History.step, System.step] at live ⊢
      cases found : history.system.sessions id with
      | some own =>
        rw [found] at live
        exact followed.prepared other session live hook member
      | none =>
        rw [found] at live
        simp only [Function.update_of_ne same]
        exact followed.prepared other session (by simpa [System.setSession, same] using live) hook member
  · rw [answers, afterAnswer_ok] at member
    simp only [History.step]
    split <;> exact followed.installed hook member

theorem Followed.drop (followed : journal.Followed history native) {id : Nat}
    (represents : Represents after (native.step platform (.session (.drop id))).2) (output : Option Nat) :
    (journal.afterAnswer after ⟨.ofResult (native.step platform (.session (.drop id))).1, output⟩
      (.session (.drop id))).Followed (history.step platform (.drop id))
        (native.step platform (.session (.drop id))).2 := by
  refine followed.operation rfl represents (fun other session live hook member => ?_) followed.installed
  rcases System.setSession_sessions live with ⟨-, gone⟩ | ⟨-, before⟩
  · contradiction
  · exact followed.prepared other session before hook member

theorem Followed.install (followed : journal.Followed history native) {id : Nat} {environment : InstallEnvironment}
    {session : PatchSession} (alive : native.system.sessions id = some session)
    (represents : Represents after (native.step platform (.session (.installPermanently id environment))).2)
    (output : Option Nat) :
    (journal.afterAnswer after
      ⟨.ofResult (native.step platform (.session (.installPermanently id environment))).1, output⟩
      (.session (.installPermanently id environment))).Followed
        (history.step platform (.installPermanently id environment))
        (native.step platform (.session (.installPermanently id environment))).2 := by
  have live : history.system.sessions id = some session := followed.system ▸ alive
  rcases ran : (session.installPermanently platform environment).exec history.system.process with ⟨result, process⟩
  have answers : (native.step platform (.session (.installPermanently id environment))).1 =
      result.map fun _ => none := by
    simp only [Native.step, Native.onSystem, followed.system, System.step, live, ran, Outcome.answer]
  refine followed.operation rfl represents (fun other found here hook member => ?_) (fun hook member => ?_)
  · have before : history.system.sessions other = some found := by
      simp only [History.step_system, System.step, live, ran] at here
      rcases System.setSession_sessions here with ⟨-, gone⟩ | ⟨-, before⟩
      · contradiction
      · exact before
    have known : hook ∈ journal.prepared other := by
      simp only [afterAnswer] at member
      split at member <;> exact member
    have kept : (history.step platform (.installPermanently id environment)).made = history.made := by
      simp only [History.step]
      split <;> rfl
    rw [kept]
    exact followed.prepared other found before hook known
  · have old (known : hook ∈ journal.installed) :
        ∃ entry ∈ (history.step platform (.installPermanently id environment)).installed, hook.Tells entry := by
      obtain ⟨entry, made, tells⟩ := followed.installed hook known
      refine ⟨entry, ?_, tells⟩
      simp only [History.step]
      split
      · exact made
      · exact List.mem_append_left _ made
    -- C counts a batch as installed if it is told so; what failed behind the commit point is left out.
    rcases PatchSession.install_cases ran with ⟨failure, rfl, -⟩ | ⟨recorded, rfl | ⟨failure, rfl, -⟩⟩
    · rw [answers] at member
      rw [Except.map, afterAnswer_error] at member
      exact old member
    · rw [answers, Except.map, afterAnswer_ok] at member
      rcases List.mem_append.mp member with known | new
      · exact old known
      · obtain ⟨entry, made, tells⟩ := followed.prepared id session live hook new
        refine ⟨entry, ?_, tells⟩
        have longer : process.permanentPatchSets.length ≠ history.system.process.permanentPatchSets.length := by
          simp [recorded.registry]
        simp only [History.step, System.step, live, ran, System.afterInstallation, if_neg longer]
        exact List.mem_append_right _ made
    · rw [answers, Except.map, afterAnswer_error] at member
      exact old member

theorem Followed.build (followed : journal.Followed history native) {id : Nat} {op : BuilderOp}
    (represents : Represents after (native.step platform (.build id op)).2) (output : Option Nat) :
    (journal.afterAnswer after ⟨.ofResult (native.step platform (.build id op)).1, output⟩ (.build id op)).Followed
      history (native.step platform (.build id op)).2 := by
  have elsewhere (answer : Answer) {other : Nat} (different : other ≠ id) :
      (journal.afterAnswer after answer (.build id op)).programs other = journal.programs other := by
    simp only [afterAnswer]
    split
    · exact Function.update_of_ne different _ _
    · rfl
  have rest (answer : Answer) : (journal.afterAnswer after answer (.build id op)).abi = after ∧
      (journal.afterAnswer after answer (.build id op)).prepared = journal.prepared ∧
        (journal.afterAnswer after answer (.build id op)).installed = journal.installed := by
    simp only [afterAnswer]
    split <;> exact ⟨rfl, rfl, rfl⟩
  constructor
  case system => rw [step_builder rfl, followed.system]
  case represents => rw [(rest _).1]; exact represents
  case prepared => rw [(rest _).2.1]; exact followed.prepared
  case installed => rw [(rest _).2.2]; exact followed.installed
  case programs =>
    intro other trampoline found
    by_cases same : other = id
    · subst same
      cases before : native.builders other with
      | none => simp [Native.step, before] at found
      | some builder =>
        have meant := followed.programs other builder before
        simp only [Native.step, before, Function.update_self] at found ⊢
        obtain rfl := Option.some.inj found
        -- An operation that is refused changes neither the builder nor the program it stands for.
        cases answered : op.answer builder with
        | error failure => rw [answer_error answered, afterAnswer_error, meant]
        | ok label =>
          rw [afterAnswer_ok, meant, ← assemble_snoc]
          simp [note, setProgram]
    · rw [elsewhere _ same]
      refine followed.programs other trampoline ?_
      simp only [Native.step] at found
      split at found
      · exact found
      · simpa [same] using found

theorem Followed.builder (followed : journal.Followed history native) (quiet : native.operation move = none)
    (known : ∀ id oracle address size builder, move = .detourTrampoline id oracle address size builder →
      ∃ trampoline, native.builders builder = some trampoline)
    (represents : Represents after (native.step platform move).2) (output : Option Nat) :
    (journal.afterAnswer after ⟨.ofResult (native.step platform move).1, output⟩ move).Followed history
      (native.step platform move).2 := by
  cases move with
  | session operation => contradiction
  | detourTrampoline id oracle address size builder =>
    obtain ⟨trampoline, found⟩ := known id oracle address size builder rfl
    simp [Native.operation, found] at quiet
  | newBuilder id =>
    refine ⟨followed.system, represents, fun other trampoline found => ?_, followed.prepared, followed.installed⟩
    by_cases same : other = id
    · subst same
      simp only [Native.step, Function.update_self] at found
      rw [← Option.some.inj found]
      simp [Native.step, afterAnswer_ok, note, setProgram, assemble, assembleFrom]
    · simp only [Native.step, Function.update_of_ne same] at found
      rw [followed.programs other trampoline found]
      simp [Native.step, afterAnswer_ok, note, setProgram, same]
  | dropBuilder id =>
    refine ⟨followed.system, represents, fun other trampoline found => ?_, followed.prepared, followed.installed⟩
    by_cases same : other = id
    · subst same
      simp [Native.step] at found
    · simp only [Native.step, Function.update_of_ne same] at found
      exact followed.programs other trampoline found
  | build id op => exact followed.build represents output

theorem Followed.step (followed : journal.Followed history native)
    (reachable : (History.machine platform memory).Reachable history) {operation : Nat × AbiCall}
    (admitted : journal.Admissible platform operation) :
    ∃ last next, (History.machine platform memory).Reachable last ∧
      (journal.step platform operation).Followed last next := by
  obtain ⟨thread, call⟩ := operation
  obtain ⟨contract, safe, allowed⟩ := admitted
  have represents := followed.represents
  have faithful := @call_faithful platform journal.abi native thread call represents contract safe
  simp only [Faithful] at faithful
  cases meant : call.meaning native with
  | none =>
    rw [meant] at faithful
    refine ⟨history, native, reachable, ?_⟩
    simp only [Journal.step, ← represents.meaning, meant]
    exact ⟨followed.system, represents.congr faithful.2.1 faithful.2.2, followed.programs, followed.prepared,
      followed.installed⟩
  | some move =>
    rw [meant] at faithful
    obtain ⟨answered, after⟩ := faithful
    simp only [Journal.step, ← represents.meaning, meant, answered]
    -- A move is one of a session, which has a history, or of a builder, which has none.
    cases comes : native.operation move with
    | none =>
      refine ⟨history, (native.step platform move).2, reachable, followed.builder comes ?_ after _⟩
      rintro id oracle address size builder rfl
      exact builder_live represents contract meant
    | some means =>
      have next : History.Admissible platform history means := by
        rw [History.Admissible, ← followed.system, ← represents.admits]
        refine allowed move (by rw [← represents.meaning, meant]; rfl) means ?_
        rw [← represents.operation, comes]
        rfl
      refine ⟨history.step platform means, (native.step platform move).2, .step reachable next, ?_⟩
      cases move with
      | session operation =>
        obtain rfl := Option.some.inj comes
        cases operation with
        | create id => exact followed.create after _
        | prepare id oracle preparation => exact followed.prepare meant comes after
        | drop id => exact followed.drop after _
        | installPermanently id environment =>
          obtain ⟨session, alive⟩ := session_live represents contract meant
          exact followed.install alive after _
      | detourTrampoline id oracle address size builder =>
        obtain ⟨trampoline, -, rfl⟩ := Option.map_eq_some_iff.mp comes
        exact followed.prepare meant comes after
      | newBuilder id | dropBuilder id | build id op => contradiction

theorem step_ok (thread : Nat) {answer : Option Nat} (represents : Represents journal.abi native)
    (contract : call.Contract journal.abi.handles) (safe : ¬ call.Leaks journal.abi.handles)
    (meant : call.meaning native = some move) (answers : (native.step platform move).1 = .ok answer) :
    journal.step platform (thread, call) =
        { journal with abi := (journal.abi.call platform thread call).2 }.note (call.outputs (.ok answer)) move ∧
      Represents (journal.step platform (thread, call)).abi (native.step platform move).2 := by
  have faithful := @call_faithful platform journal.abi native thread call represents contract safe
  simp only [Faithful, meant, answers] at faithful
  have noted : journal.step platform (thread, call) =
      { journal with abi := (journal.abi.call platform thread call).2 }.note (call.outputs (.ok answer)) move := by
    simp only [Journal.step, ← represents.meaning, meant, faithful.1]
    exact afterAnswer_ok
  refine ⟨noted, ?_⟩
  rw [noted]
  cases move with
  | session operation => cases operation <;> exact faithful.2
  | _ => exact faithful.2

theorem reachable_followed (reachable : (machine platform memory).Reachable journal) :
    ∃ history native, (History.machine platform memory).Reachable history ∧ journal.Followed history native := by
  induction reachable with
  | start initial =>
    obtain ⟨protection, panics, rfl⟩ := initial
    refine ⟨History.initial memory protection, Native.initial memory protection, .start ⟨protection, rfl⟩, rfl, ?_, ?_,
      ?_, ?_⟩
    · exact ⟨rfl, fun _ => rfl, fun _ => rfl, by simp [initial, Abi.initial], rfl⟩
    · exact fun _ _ found => by contradiction
    · exact fun _ _ live => by contradiction
    · exact fun _ member => absurd member List.not_mem_nil
  | step _ admitted ih =>
    obtain ⟨history, native, before, followed⟩ := ih
    exact followed.step before admitted

theorem reachable_step {operation : Nat × AbiCall} (reachable : (machine platform memory).Reachable journal)
    (admitted : journal.Admissible platform operation) :
    (machine platform memory).Reachable (journal.step platform operation) :=
  .step reachable admitted

theorem Followed.process (followed : journal.Followed history native) :
    journal.abi.native.system.process = history.system.process :=
  followed.represents.process.trans (congrArg System.process followed.system)

theorem installed_hook_arrives (reachable : (machine platform memory).Reachable journal) {hook : Hook}
    (member : hook ∈ journal.installed) (asks : ∀ contents, (hook.preparation.trampoline contents).isSome) :
    ∃ address, (∀ told ∈ hook.trampoline, told = address) ∧ ∃ before, ∀ cpu : X64.Cpu,
      journal.abi.native.system.Loaded platform cpu.memory →
        ∃ code, Arrives hook.preparation before address code cpu := by
  obtain ⟨history, native, past, followed⟩ := reachable_followed reachable
  obtain ⟨entry, installed, preparation, patch, result, known, has⟩ := followed.installed hook member
  obtain ⟨address, placed⟩ := Option.isSome_iff_exists.mp (has (asks entry.memory))
  obtain ⟨trampoline⟩ := patch
  obtain rfl : trampoline = some address := placed
  refine ⟨address, fun told here => (known told here).symm, entry.memory, fun cpu loaded => ?_⟩
  rw [← preparation]
  exact installed_arrives past installed result (loaded.congr followed.process)

section

variable (memory)

def jumpBuilt : Journal :=
  [(0, AbiCall.sessionCreate .valid 0x7000), (0, .trampolineCreate .valid 0x7100),
    (0, .trampoline 0x7100 (.absoluteJump .valid 0x180009000))].foldl (step History.pagePlatform)
      (initial memory (fun _ => 0x20) fun _ _ => none)

theorem jumpBuilt_reachable : (machine History.pagePlatform memory).Reachable (jumpBuilt memory) := by
  have start : (machine History.pagePlatform memory).Reachable (initial memory (fun _ => 0x20) fun _ _ => none) :=
    .start ⟨_, _, rfl⟩
  have opened := @reachable_step _ _ _ (0, .sessionCreate .valid 0x7000) start
    ⟨⟨by decide, rfl⟩, fun leaks => leaks, by rintro _ ⟨⟩ _ ⟨⟩; exact ⟨trivial, trivial⟩⟩
  have created := @reachable_step _ _ _ (0, .trampolineCreate .valid 0x7100) opened
    ⟨⟨by decide, rfl⟩, fun leaks => leaks, by rintro _ ⟨⟩ _ ⟨⟩⟩
  exact @reachable_step _ _ _ (0, .trampoline 0x7100 (.absoluteJump .valid 0x180009000)) created
    ⟨Or.inr ⟨rfl, _, rfl⟩, by rintro ⟨-, -, ⟨⟩⟩, by rintro _ ⟨⟩ _ ⟨⟩⟩

theorem jumpBuilt_represented :
    Represents (jumpBuilt memory).abi ⟨(History.firstCreated History.pagePlatform memory 0x7000).system,
      (jumpBuilt memory).abi.native.builders⟩ := by
  obtain ⟨_, _, -, followed⟩ := reachable_followed (jumpBuilt_reachable memory)
  refine ⟨rfl, fun id => ?_, fun _ => rfl, followed.represents.mirrors, followed.represents.null⟩
  have handles : (jumpBuilt memory).abi.handles = Function.update (Function.update (fun _ => none) 0x7000
      (some (.session PatchSession.new))) 0x7100 (some (.trampoline ⟨assemble [.absoluteJump 0x180009000], []⟩)) :=
    Function.update_idem _ _ _
  rw [handles]
  by_cases builder : id = 0x7100
  · subst builder
    rfl
  · rw [Function.update_of_ne builder]
    by_cases session : id = 0x7000
    · subst session
      rfl
    · rw [Function.update_of_ne session]
      exact Function.update_of_ne session _ _

def jumpDetour : Preparation := .detourTrampoline 0x140001000 5 (assemble [.absoluteJump 0x180009000])

theorem jumpDetour_outside (candidate base : Nat) (mapped : History.pageBelow.mapMut candidate = .ok base) :
    History.pagePlatform.PageApart base jumpDetour.source :=
  History.pageBelow_outside rfl candidate base mapped

theorem jumpDetour_run : ∃ after, (jumpDetour.run History.pagePlatform History.pageBelow).exec
    ⟨PatchSession.new, memory⟩ = (.ok ⟨some 0x140000000⟩, after) :=
  @History.prepared_below memory jumpDetour 14 (assemble [.absoluteJump 0x180009000]).build
    [0xFF, 0x25, 0, 0, 0, 0, 0x00, 0x90, 0x00, 0x80, 0x01, 0, 0, 0] rfl rfl (by decide) (by decide) (by decide) rfl
    (by decide) (by decide)

def jumpHooked : Journal :=
  (jumpBuilt memory).step History.pagePlatform
    (0, .sessionDetourTrampoline History.pageBelow 0x7000 0x140001000 5 0x7100 .valid)

theorem jumpHooked_told :
    (machine History.pagePlatform memory).Reachable (jumpHooked memory) ∧
      (jumpHooked memory).prepared 0x7000 = [⟨jumpDetour, some 0x140000000⟩] ∧ (jumpHooked memory).installed = [] ∧
        Represents (jumpHooked memory).abi
          ⟨(History.firstPrepared History.pagePlatform memory 0x7000 History.pageBelow jumpDetour).system,
            (jumpBuilt memory).abi.native.builders⟩ := by
  have represents := jumpBuilt_represented memory
  have admitted : (jumpBuilt memory).Admissible History.pagePlatform
      (0, .sessionDetourTrampoline History.pageBelow 0x7000 0x140001000 5 0x7100 .valid) := by
    refine ⟨⟨Or.inr ⟨_, rfl⟩, Or.inr ⟨_, rfl⟩⟩, fun leaks => leaks, ?_⟩
    rintro _ ⟨⟩ _ ⟨⟩
    exact (represents.admits _).mpr (History.first_admitted History.pagePlatform memory 0x7000 jumpDetour_outside)
  obtain ⟨after, ran⟩ := jumpDetour_run memory
  have detoured : (Native.step History.pagePlatform
      ⟨(History.firstCreated History.pagePlatform memory 0x7000).system, (jumpBuilt memory).abi.native.builders⟩
        (.detourTrampoline 0x7000 History.pageBelow 0x140001000 5 0x7100)).1 = .ok (some 0x140000000) := by
    refine (congrArg Prod.fst (step_operation rfl)).trans ?_
    simp only [System.step, History.firstCreated_live]
    exact congrArg (fun ran => (Outcome.prepared ran.1).answer) ran
  obtain ⟨told, represents⟩ := step_ok 0 represents admitted.1 admitted.2.1 rfl detoured
  rw [jumpHooked, History.firstPrepared, History.step_system]
  refine ⟨reachable_step (jumpBuilt_reachable memory) admitted, ?_, ?_, represents⟩
  · exact (congrFun (congrArg prepared told) 0x7000).trans rfl
  · exact (congrArg installed told).trans rfl

def jumpInstalled : Journal :=
  (jumpHooked memory).step History.pagePlatform (0, .sessionInstallPermanently .calm .valid 0x7000)

theorem jumpInstalled_told :
    (machine History.pagePlatform memory).Reachable (jumpInstalled memory) ∧
      (jumpInstalled memory).installed = [⟨jumpDetour, some 0x140000000⟩] ∧
        (jumpInstalled memory).abi.process =
          (History.firstInstalled History.pagePlatform memory 0x7000 History.pageBelow jumpDetour).system.process := by
  obtain ⟨reachable, prepared, bare, represents⟩ := jumpHooked_told memory
  obtain ⟨after, ran⟩ := jumpDetour_run memory
  obtain ⟨alive, process, -⟩ := History.firstPrepared_system History.pagePlatform memory 0x7000 ran
  have installs := (History.first_install_ok History.pagePlatform memory 0x7000 jumpDetour_outside ran).1
  have live : ∃ inner, (jumpHooked memory).abi.handles 0x7000 = some (.session inner) := by
    obtain ⟨handle, here, is⟩ := Option.bind_eq_some_iff.mp ((represents.sessions 0x7000).symm.trans alive)
    cases handle with
    | session inner => exact ⟨inner, here⟩
    | trampoline builder => simp [Handle.session?] at is
  have contract : (AbiCall.sessionInstallPermanently .calm .valid 0x7000).Contract
      (jumpHooked memory).abi.handles := Or.inr live
  have admitted : (jumpHooked memory).Admissible History.pagePlatform
      (0, .sessionInstallPermanently .calm .valid 0x7000) := by
    refine ⟨contract, fun leaks => leaks, ?_⟩
    rintro _ ⟨⟩ _ ⟨⟩
    exact ⟨fun _ => rfl, trivial⟩
  have answers : (Native.step History.pagePlatform
      ⟨(History.firstPrepared History.pagePlatform memory 0x7000 History.pageBelow jumpDetour).system,
        (jumpBuilt memory).abi.native.builders⟩
      (.session (.installPermanently 0x7000 .calm))).1 = .ok none := by
    simp only [Native.step, Native.onSystem, System.step, alive, process, installs]
    rfl
  obtain ⟨told, after⟩ := step_ok 0 represents contract (fun leaks => leaks) rfl answers
  rw [jumpInstalled]
  refine ⟨reachable_step reachable admitted, ?_, ?_⟩
  · refine (congrArg Journal.installed told).trans ?_
    change (jumpHooked memory).installed ++ (jumpHooked memory).prepared 0x7000 = _
    rw [bare, prepared, List.nil_append]
  · rw [after.process]
    simp only [Native.step, Native.onSystem, System.step, System.afterInstallation, alive, process, installs]

end

end Journal

end

end Ffi

end Patchy
