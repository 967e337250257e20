import Patchy.Builder.Success
import Patchy.Machine.Call
import Patchy.Machine.Program

set_option autoImplicit false

namespace Patchy

open X64

theorem bytes_append (value : Nat) :
    (BitVec.ofNat 8 (value / 256 / 256 / 256) ++ BitVec.ofNat 8 (value / 256 / 256) ++ BitVec.ofNat 8 (value / 256) ++
      BitVec.ofNat 8 value : BitVec 32) = BitVec.ofNat 32 value := by
  apply BitVec.eq_of_toNat_eq
  simp only [BitVec.toNat_append, BitVec.toNat_ofNat]
  rw [← Nat.shiftLeft_add_eq_or_of_lt (by omega), ← Nat.shiftLeft_add_eq_or_of_lt (by omega),
    ← Nat.shiftLeft_add_eq_or_of_lt (by omega)]
  simp only [Nat.shiftLeft_eq]
  omega

theorem immediate32_i32Bytes {displacement : Int} (low : i32Min ≤ displacement) (high : displacement ≤ i32Max) :
    immediate32 (i32Bytes displacement) = some (BitVec.ofInt 64 displacement, []) := by
  simp only [i32Min, i32Max] at low high
  simp only [i32Bytes, leBytes, immediate32, bytes_append, Option.some.injEq, Prod.mk.injEq, and_true]
  have field : BitVec.ofNat 32 (displacement % 2 ^ 32).toNat = BitVec.ofInt 32 displacement := by
    apply BitVec.eq_of_toNat_eq
    rw [BitVec.toNat_ofNat, BitVec.toNat_ofInt]
    omega
  rw [field, BitVec.signExtend, BitVec.toInt_ofInt, Int.bmod_eq_of_le (by omega) (by omega)]

theorem branch_address {address offset width destination : Nat} {displacement : Int}
    (sum : (address : Int) + (offset + width) + displacement = destination) :
    BitVec.ofNat 64 (address + offset) + BitVec.ofNat 64 width + BitVec.ofInt 64 displacement =
      BitVec.ofNat 64 destination := by
  rw [← BitVec.ofNat_add, ← BitVec.ofInt_natCast, ← BitVec.ofInt_natCast, ← BitVec.ofInt_add]
  congr 1
  push_cast
  omega

section Branches

variable {cpu : Cpu} {address offset destination : Nat} {code : List Byte}

theorem advance_jump (place : cpu.rip = BitVec.ofNat 64 (address + offset))
    (leads : BranchTo address offset [0xE9] destination code) (placed : CodeAt cpu.memory cpu.rip code) :
    cpu.advance = some { cpu with rip := BitVec.ofNat 64 destination } := by
  obtain ⟨displacement, low, high, rfl, sum⟩ := leads
  have decodes : decodeBranch ([0xE9] ++ i32Bytes displacement) =
      some (.jump (BitVec.ofInt 64 displacement), []) := by
    simp [decodeBranch, immediate32_i32Bytes low high]
  have target := @branch_address address offset 5 destination displacement (by simpa [Int.add_assoc] using sum)
  rw [Cpu.advance_of_branch placed decodes (by simp [longestInstruction])]
  simp [Cpu.branch, place, ← target]

theorem advance_jumpIf {condition : Condition} (place : cpu.rip = BitVec.ofNat 64 (address + offset))
    (leads : BranchTo address offset [0x0F, condition.code] destination code)
    (placed : CodeAt cpu.memory cpu.rip code) :
    (condition.holds cpu.flags = true → cpu.advance = some { cpu with rip := BitVec.ofNat 64 destination }) ∧
      (condition.holds cpu.flags = false → cpu.advance = some { cpu with rip := cpu.rip + 6 }) := by
  obtain ⟨displacement, low, high, rfl, sum⟩ := leads
  have decodes : decodeBranch ([0x0F, condition.code] ++ i32Bytes displacement) =
      some (.jumpIf (condition.code.toNat % 16) (BitVec.ofInt 64 displacement), []) := by
    simp [decodeBranch, immediate32_i32Bytes low high, condition.code_group]
  have target := @branch_address address offset 6 destination displacement (by simpa [Int.add_assoc] using sum)
  rw [Cpu.advance_of_branch placed decodes (by simp [longestInstruction])]
  constructor
  · intro holds
    simp [Cpu.branch, condition.test_code, holds, place, ← target]
  · intro fails
    simp [Cpu.branch, condition.test_code, fails]

theorem advance_absoluteJump
    (placed : CodeAt cpu.memory cpu.rip ([0xFF, 0x25, 0x00, 0x00, 0x00, 0x00] ++ usizeBytes destination)) :
    cpu.advance = some { cpu with rip := BitVec.ofNat 64 destination } := by
  have decodes : decodeBranch [0xFF, 0x25, 0x00, 0x00, 0x00, 0x00] = some (.jumpThrough 0, []) := by decide
  have pointer := load_usizeBytes placed.right
  rw [Cpu.advance_of_branch placed.left decodes (by decide), ← pointer]
  simp [Cpu.branch]

end Branches

namespace Program

variable {ops : List BuilderOp} {address index : Nat} {code : List Byte} {op : BuilderOp}

theorem take_succ (found : ops[index]? = some op) : ops.take (index + 1) = ops.take index ++ [op] := by
  rw [List.take_add_one, found, Option.toList_some]

theorem point_succ (found : ops[index]? = some op) :
    point ops address (index + 1) = point ops address index + BitVec.ofNat 64 op.size := by
  rw [point, point, take_succ found, totalSize_append, ← BitVec.ofNat_add, Nat.add_assoc]
  simp [totalSize]

theorem chunks_split (found : ops[index]? = some op) :
    chunks 0 ops = chunks 0 (ops.take index) ++ ⟨op.literal, op.fixup (totalSize (ops.take index))⟩ ::
      chunks (totalSize (ops.take index) + op.size) (ops.drop (index + 1)) := by
  obtain ⟨within, same⟩ := List.getElem?_eq_some_iff.mp found
  conv_lhs => rw [← List.take_append_drop index ops, chunks_append, List.drop_eq_getElem_cons within, same]
  rw [Nat.zero_add]
  rfl

theorem codeAt_slice {memory : Contents} {start : Word} (placed : CodeAt memory start code) (offset count : Nat) :
    CodeAt memory (start + BitVec.ofNat 64 offset) ((code.drop offset).take count) := by
  intro place within
  have inside : offset + place < code.length := by
    rw [List.length_take, List.length_drop] at within
    omega
  rw [add_ofNat_add, placed _ inside, List.getElem_take, List.getElem_drop]

theorem codeAt_point {memory : Contents} (built : (assemble ops).build address = .ok code)
    (found : ops[index]? = some op) (placed : CodeAt memory (BitVec.ofNat 64 address) code) :
    ∃ piece, Encodes ops address (totalSize (ops.take index)) op piece ∧
      CodeAt memory (point ops address index) piece := by
  have sized (fixup : RelativeFixup) (field : List Byte)
      (filled : ((assemble ops).displacement address fixup).map i32Bytes = .ok field) :
      field.length = blankField.length := displacement_sized filled
  rw [Trampoline.build, applyFixups_patchAll, assemble_fixups, assemble_code] at built
  obtain ⟨rendered, rfl, whole⟩ := Backpatch.patchAll_rendered Failure.panic RelativeFixup.span _ sized
    (chunks 0 ops) [] code (chunks_spans 0 ops) built
  rw [List.length_nil, chunks_split found] at whole
  obtain ⟨piece, single, slice⟩ := whole.at
  rw [chunks_length, Nat.zero_add] at single
  rw [chunks_length, chunk_size] at slice
  refine ⟨piece, piece_encodes single, ?_⟩
  have sliced := codeAt_slice placed (totalSize (ops.take index)) op.size
  rw [slice] at sliced
  rwa [point, BitVec.ofNat_add]

theorem Binds.boundAt {label : Label} {target : Nat} (binds : Binds ops label target) :
    BoundAt ops label (totalSize (ops.take target)) := by
  obtain ⟨found, created, first⟩ := binds
  obtain ⟨within, same⟩ := List.getElem?_eq_some_iff.mp found
  refine ⟨ops.take target, ops.drop (target + 1), ?_, ?_, rfl⟩
  · rw [← same, ← List.drop_eq_getElem_cons within, List.take_append_drop]
  · refine (bind_ok_iff _ _).mpr (unbound_label created ?_)
    rintro ⟨_, before, after, split, bound, -⟩
    have short := congrArg List.length split
    rw [List.length_append, List.length_cons, List.length_take] at short
    have front : ops.take before.length = before :=
      (List.prefix_iff_eq_take.mp (List.IsPrefix.trans ⟨_, split.symm⟩ (List.take_prefix target ops))).symm
    have earlier : ops[before.length]? = some (.bind label) := by
      rw [← List.getElem?_take_of_lt (show before.length < target by omega), split]
      simp
    have late := first before.length (by omega) earlier
    rw [front, ← assemble_labels_length] at late
    have missing := List.getElem?_eq_none late
    rw [(bind_ok_iff _ _).mp bound] at missing
    contradiction

def Holds (address : Nat) (code : List Byte) (memory : Contents) : Prop := CodeAt memory (BitVec.ofNat 64 address) code

/-- The processor is where the program is, and the trampoline is in place when it is about to go on. -/
def Follows (ops : List BuilderOp) (address : Nat) (intact : Contents → Prop) (config : Config) (cpu : Cpu) : Prop :=
  cpu = config.cpu ops address ∧ ∀ index inner, config = .ready index inner → intact inner.memory

section

variable {intact : Contents → Prop} {processor : Processor} {cpu : Cpu}

theorem follows_ready (kept : intact cpu.memory) :
    Follows ops address intact (.ready index cpu) { cpu with rip := point ops address index } :=
  ⟨rfl, fun _ _ same => by cases same; exact kept⟩

theorem follows_native : Follows ops address intact (.native cpu) cpu := ⟨rfl, fun _ _ same => by cases same⟩

theorem step_absoluteCall {function : Nat}
    (placed : CodeAt cpu.memory cpu.rip ([0xFF, 0x15, 0x02, 0x00, 0x00, 0x00, 0xEB, 0x08] ++ usizeBytes function)) :
    cpu.step = some (called cpu (BitVec.ofNat 64 function) (cpu.rip + 6)) := by
  have parts : CodeAt cpu.memory cpu.rip ([0xFF, 0x15, 0x02, 0x00, 0x00, 0x00] ++ [0xEB, 0x08]) := placed.left
  have decodes : decode [0xFF, 0x15, 0x02, 0x00, 0x00, 0x00] = some (.call 2, []) := by decide
  have pointer := load_usizeBytes placed.right
  rw [Cpu.step_of_codeAt parts.left decodes (by decide), ← pointer]
  simp only [Cpu.execute, called, BitVec.add_assoc]
  rfl

theorem step_return {function : Nat} {start : Word}
    (placed : CodeAt cpu.memory start ([0xFF, 0x15, 0x02, 0x00, 0x00, 0x00, 0xEB, 0x08] ++ usizeBytes function))
    (place : cpu.rip = start + 6) : cpu.step = some { cpu with rip := start + 16 } := by
  have parts : CodeAt cpu.memory start ([0xFF, 0x15, 0x02, 0x00, 0x00, 0x00] ++ [0xEB, 0x08]) := placed.left
  have jump : CodeAt cpu.memory cpu.rip [0xEB, 0x08] := place ▸ parts.right
  have decodes : decode [0xEB, 0x08] = some (.jmp 8, []) := by decide
  rw [Cpu.step_of_codeAt jump decodes (by decide)]
  simp only [Cpu.execute, place, BitVec.add_assoc]
  rfl

def rank (ops : List BuilderOp) : Config → Nat
  | .ready index _ => if (ops[index]?.elim 0 BuilderOp.size) = 0 then 2 + (ops.length - index) else 0
  | .native _ => 1

theorem rank_ready_le (index : Nat) (cpu : Cpu) : rank ops (.ready index cpu) ≤ 2 + (ops.length - index) := by
  simp only [rank]
  split <;> omega

theorem follows_advance {config next : Config} {reached : Cpu} (advanced : cpu.advance = some reached)
    (moved : Step processor ops address intact config next) (follows : Follows ops address intact next reached) :
    (∃ moved, processor.step cpu moved) ∧ ∀ moved, processor.step cpu moved →
      ∃ next, Step processor ops address intact config next ∧ Follows ops address intact next moved := by
  have only := processor.agrees advanced
  refine ⟨⟨reached, (only reached).mpr rfl⟩, fun other stepped => ?_⟩
  rw [(only other).mp stepped]
  exact ⟨next, moved, follows⟩

/-- The processor carries out each operation in a single instruction, and labels in none. -/
theorem lockstep (processor : Processor) (built : (assemble ops).build address = .ok code) :
    Lockstep (Step processor ops address (Holds address code)) processor.step
      (Follows ops address (Holds address code)) (rank ops) where
  matched {config cpu} follows moves := by
    obtain ⟨rfl, intact⟩ := follows
    obtain ⟨next, moved⟩ := moves
    cases moved with
    -- Labels emit nothing: the processor is already where the program goes.
    | @silent index cpu op found empty =>
      have place := @point_succ _ address _ _ found
      rw [empty, BitVec.add_zero] at place
      refine Or.inl ⟨_, .silent found empty, ?_, ?_⟩
      · rw [Config.cpu, ← place]
        exact follows_ready (intact _ _ rfl)
      · have within := (List.getElem?_eq_some_iff.mp found).1
        have bound := @rank_ready_le ops (index + 1) cpu
        have here : rank ops (.ready index cpu) = 2 + (ops.length - index) := by simp [rank, found, empty]
        omega
    | raw found plain nonempty moved =>
      exact Or.inr ⟨⟨_, moved⟩, fun other moved => ⟨_, .raw found plain nonempty moved, follows_native⟩⟩
    | @absoluteCall index function cpu found =>
      obtain ⟨_, rfl, placed⟩ := codeAt_point built found (intact _ _ rfl)
      have stepped := @step_absoluteCall (Config.cpu ops address (.ready index cpu)) _ placed
      exact Or.inr (follows_advance (Cpu.advance_of_step stepped) (.absoluteCall found) follows_native)
    | @absoluteJump index destination cpu found =>
      obtain ⟨_, rfl, placed⟩ := codeAt_point built found (intact _ _ rfl)
      have advanced := @advance_absoluteJump (Config.cpu ops address (.ready index cpu)) _ placed
      exact Or.inr (follows_advance advanced (.absoluteJump found) follows_native)
    | @relativeJump index destination cpu found =>
      obtain ⟨piece, leads, placed⟩ := codeAt_point built found (intact _ _ rfl)
      have advanced := @advance_jump (Config.cpu ops address (.ready index cpu)) _ _ _ _ rfl leads placed
      exact Or.inr (follows_advance advanced (.relativeJump found) follows_native)
    | @jumpTo index target cpu label found binds =>
      obtain ⟨piece, ⟨position, bound, leads⟩, placed⟩ := codeAt_point built found (intact _ _ rfl)
      obtain rfl := boundAt_unique bound binds.boundAt
      have advanced := @advance_jump (Config.cpu ops address (.ready index cpu)) _ _ _ _ rfl leads placed
      exact Or.inr (follows_advance advanced (.jumpTo found binds) (follows_ready (intact _ _ rfl)))
    | @taken index target cpu condition label found binds holds =>
      obtain ⟨piece, ⟨position, bound, leads⟩, placed⟩ := codeAt_point built found (intact _ _ rfl)
      obtain rfl := boundAt_unique bound binds.boundAt
      have branches := @advance_jumpIf (Config.cpu ops address (.ready index cpu)) _ _ _ _ _ rfl leads placed
      exact Or.inr (follows_advance (branches.1 holds) (.taken found binds holds) (follows_ready (intact _ _ rfl)))
    | @skipped index cpu condition label found fails =>
      obtain ⟨piece, ⟨position, bound, leads⟩, placed⟩ := codeAt_point built found (intact _ _ rfl)
      have branches := @advance_jumpIf (Config.cpu ops address (.ready index cpu)) _ _ _ _ _ rfl leads placed
      have place : point ops address (index + 1) = point ops address index + 6 := point_succ found
      have follows := @follows_ready ops address (index + 1) _ cpu (intact _ _ rfl)
      rw [place] at follows
      exact Or.inr (follows_advance (branches.2 fails) (.skipped found fails) follows)
    | @finished cpu =>
      refine Or.inl ⟨_, .finished, follows_native, ?_⟩
      simp [rank]
    -- Coming back from other code is no move of the processor either.
    | @entered index cpu op found nonempty place kept =>
      have follows := @follows_ready ops address index _ cpu kept
      rw [← place] at follows
      refine Or.inl ⟨_, .entered found nonempty place kept, follows, ?_⟩
      simp [rank, found, nonempty]
    | @returned index function cpu found place kept =>
      obtain ⟨_, rfl, placed⟩ := codeAt_point built found kept
      have next : point ops address (index + 1) = point ops address index + 16 := point_succ found
      have follows := @follows_ready ops address (index + 1) _ cpu kept
      rw [next] at follows
      have back := Cpu.advance_of_step (step_return placed place)
      exact Or.inr (follows_advance back (.returned found place kept) follows)
    | elsewhere foreign moved =>
      exact Or.inr ⟨⟨_, moved⟩, fun other moved => ⟨_, .elsewhere foreign moved, follows_native⟩⟩

end

/-- What a program surely comes to, the processor surely comes to when it runs what was built from it. -/
theorem built_comes_to (processor : Processor) (ops : List BuilderOp) (address : Nat) (code : List Byte)
    (built : (assemble ops).build address = .ok code) (goal : Cpu → Prop) (index : Nat) (cpu : Cpu)
    (placed : Holds address code cpu.memory)
    (comes : Surely (Step processor ops address (Holds address code)) (fun config => goal (config.cpu ops address))
      (.ready index cpu)) :
    Surely processor.step goal { cpu with rip := point ops address index } :=
  (lockstep processor built).surely (fun _ _ follows here => by rw [follows.1]; exact here) comes (follows_ready placed)

theorem loaded_holds (code : List Byte) (short : code.length ≤ 0x1000) : Holds 0x1000 code (loaded code).memory := by
  intro index within
  have offset : (BitVec.ofNat 64 0x1000 + BitVec.ofNat 64 index - 0x1000 : Word).toNat = index := by
    rw [show BitVec.ofNat 64 0x1000 = (0x1000 : Word) from rfl, BitVec.add_comm, BitVec.add_sub_cancel,
      BitVec.toNat_ofNat, Nat.mod_eq_of_lt (by omega)]
  change code.getD (BitVec.ofNat 64 0x1000 + BitVec.ofNat 64 index - 0x1000 : Word).toNat 0 = _
  rw [offset]
  simp [within]

-- A jump over a breakpoint, to a jump out of the trampoline.
def skipping : List BuilderOp :=
  [.newLabel, .jumpIf .notEqual ⟨0⟩, .bytes [0xCC], .bind ⟨0⟩, .absoluteJump 0x180009000]

def skippingCode : List Byte :=
  [0x0F, 0x85, 1, 0, 0, 0, 0xCC, 0xFF, 0x25, 0, 0, 0, 0, 0x00, 0x90, 0x00, 0x80, 0x01, 0, 0, 0]

theorem skipping_binds : Binds skipping ⟨0⟩ 3 := ⟨rfl, by decide, by decide⟩

theorem built_comes_to_skipping :
    Surely Processor.halting.step (fun cpu => cpu.rip = 0x180009000)
      { loaded skippingCode with rip := point skipping 0x1000 0 } := by
  refine built_comes_to Processor.halting skipping 0x1000 skippingCode (by decide) _ 0 (loaded skippingCode)
    (loaded_holds skippingCode (by decide)) ?_
  refine surely_quiet (by decide) (.silent rfl rfl) ?_
  refine surely_quiet (by decide) (.taken rfl skipping_binds rfl) ?_
  refine surely_quiet (by decide) (.silent rfl rfl) ?_
  exact surely_quiet (by decide) (.absoluteJump rfl) (.done rfl)

/-- Behind a comparison a conditional jump goes by how the operands compare, as the name of its condition says. -/
theorem jumpIf_compares (ops : List BuilderOp) (address : Nat) (code : List Byte)
    (built : (assemble ops).build address = .ok code) (index target : Nat) (condition : Condition) (label : Label)
    (found : ops[index]? = some (.jumpIf condition label)) (binds : Binds ops label target) (cpu : Cpu)
    (placed : Holds address code cpu.memory) (place : cpu.rip = point ops address index) (first second : Word)
    (compared : cpu.flags = subFlags first second) :
    (condition.Compares first second → cpu.advance = some { cpu with rip := point ops address target }) ∧
      (¬ condition.Compares first second → cpu.advance = some { cpu with rip := point ops address (index + 1) }) := by
  obtain ⟨piece, ⟨position, bound, leads⟩, here⟩ := codeAt_point built found placed
  obtain rfl := boundAt_unique bound binds.boundAt
  have branches := @advance_jumpIf cpu _ _ _ _ _ place leads (place ▸ here)
  rw [place] at branches
  rw [← condition.holds_subFlags, ← compared, Bool.not_eq_true, point_succ found]
  exact branches

theorem jumpIf_compares_skipping :
    let cpu := { loaded skippingCode with rip := point skipping 0x1000 1, flags := subFlags 1 2 }
    cpu.advance = some { cpu with rip := point skipping 0x1000 3 } := by
  intro cpu
  have compares := jumpIf_compares skipping 0x1000 skippingCode (by decide) 1 3 .notEqual ⟨0⟩ rfl skipping_binds cpu
    (loaded_holds skippingCode (by decide)) rfl 1 2 rfl
  exact compares.1 (show (1 : Word) ≠ 2 by decide)

/-- The processor does nothing but what the program does, as long as that does not go wrong. -/
theorem built_does_no_more (processor : Processor) (ops : List BuilderOp) (address : Nat) (code : List Byte)
    (built : (assemble ops).build address = .ok code) (index : Nat) (cpu final : Cpu)
    (placed : Holds address code cpu.memory)
    (unstuck : ∀ config,
      Relation.ReflTransGen (Step processor ops address (Holds address code)) (.ready index cpu) config →
      ∃ next, Step processor ops address (Holds address code) config next)
    (run : Relation.ReflTransGen processor.step { cpu with rip := point ops address index } final) :
    ∃ config, Relation.ReflTransGen (Step processor ops address (Holds address code)) (.ready index cpu) config ∧
      final = config.cpu ops address := by
  obtain ⟨config, path, follows⟩ := (lockstep processor built).run unstuck (follows_ready placed) run
  exact ⟨config, path, follows.1⟩

def looping : List BuilderOp := [.newLabel, .bind ⟨0⟩, .jumpTo ⟨0⟩]

theorem looping_binds : Binds looping ⟨0⟩ 1 := ⟨rfl, by decide, by decide⟩

theorem looping_reaches {processor : Processor} {intact : Contents → Prop} {cpu : Cpu} {config : Config}
    (run : Relation.ReflTransGen (Step processor looping 0x1000 intact) (.ready 0 cpu) config) :
    ∃ next, Step processor looping 0x1000 intact config next := by
  have inside : config = .ready 0 cpu ∨ config = .ready 1 cpu ∨ config = .ready 2 cpu := by
    induction run with
    | refl => exact Or.inl rfl
    | tail _ moved ih =>
      rcases ih with rfl | rfl | rfl
      · exact Or.inr (Or.inl (step_unique (by decide) moved (.silent rfl rfl)))
      · exact Or.inr (Or.inr (step_unique (by decide) moved (.silent rfl rfl)))
      · exact Or.inr (Or.inl (step_unique (by decide) moved (.jumpTo rfl looping_binds)))
  rcases inside with rfl | rfl | rfl
  · exact ⟨_, .silent rfl rfl⟩
  · exact ⟨_, .silent rfl rfl⟩
  · exact ⟨_, .jumpTo rfl looping_binds⟩

theorem built_does_no_more_looping :
    let start := { loaded [0xE9, 0xFB, 0xFF, 0xFF, 0xFF] with rip := point looping 0x1000 0 }
    ∃ config,
      Relation.ReflTransGen (Step Processor.halting looping 0x1000 (Holds 0x1000 [0xE9, 0xFB, 0xFF, 0xFF, 0xFF]))
        (.ready 0 (loaded [0xE9, 0xFB, 0xFF, 0xFF, 0xFF])) config ∧
      start.advance.getD start = config.cpu looping 0x1000 := by
  intro start
  exact built_does_no_more Processor.halting looping 0x1000 [0xE9, 0xFB, 0xFF, 0xFF, 0xFF] (by decide) 0 _ _
    (loaded_holds _ (by decide)) (fun _ => looping_reaches) (.single rfl)

end Program

end Patchy
