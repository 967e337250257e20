import Mathlib.Data.List.Basic

set_option autoImplicit false

/-! Code emitted with blank fields that are filled in once their values are known. -/

namespace Backpatch

variable {β ι ε : Type}

def patchField (code : List β) (start stop : Nat) (field : List β) : Option (List β) :=
  if start ≤ stop ∧ stop ≤ code.length ∧ stop - start = field.length then
    some (code.take start ++ field ++ code.drop stop)
  else none

/-- Fill the fields of `holes` in order; `misplaced` is the error of a field that does not fit. -/
def patchAll (misplaced : ε) (span : ι → Nat × Nat) (value : ι → Except ε (List β)) :
    List ι → List β → Except ε (List β)
  | [], code => .ok code
  | hole :: rest, code =>
      match value hole with
      | .error error => .error error
      | .ok field =>
        match patchField code (span hole).1 (span hole).2 field with
        | none => .error misplaced
        | some code => patchAll misplaced span value rest code

structure Chunk (β ι : Type) where
  literal : List β
  hole : Option ι

namespace Chunk

variable (blank : List β)

def template (chunk : Chunk β ι) : List β :=
  chunk.literal ++ chunk.hole.elim [] fun _ => blank

def size (chunk : Chunk β ι) : Nat := (chunk.template blank).length

end Chunk

variable (blank : List β)

def holes (chunks : List (Chunk β ι)) : List ι := chunks.filterMap (·.hole)

def Spans (span : ι → Nat × Nat) : (offset : Nat) → List (Chunk β ι) → Prop
  | _, [] => True
  | offset, chunk :: rest =>
      (∀ hole ∈ chunk.hole,
        span hole = (offset + chunk.literal.length, offset + chunk.literal.length + blank.length)) ∧
      Spans span (offset + chunk.size blank) rest

/-- `code` is the chunks from `offset` on, each hole filled with a field that `fills` it. -/
inductive Rendered (fills : ι → List β → Prop) : (offset : Nat) → List (Chunk β ι) → List β → Prop
  | nil (offset : Nat) : Rendered fills offset [] []
  | solid {offset : Nat} {literal : List β} {rest : List (Chunk β ι)} {code : List β}
      (tail : Rendered fills (offset + literal.length) rest code) :
      Rendered fills offset (⟨literal, none⟩ :: rest) (literal ++ code)
  | filled {offset : Nat} {literal field : List β} {hole : ι} {rest : List (Chunk β ι)} {code : List β}
      (width : field.length = blank.length) (fits : fills hole field)
      (tail : Rendered fills (offset + literal.length + blank.length) rest code) :
      Rendered fills offset (⟨literal, some hole⟩ :: rest) (literal ++ field ++ code)

variable {blank} {fills : ι → List β → Prop}

theorem Rendered.at {offset : Nat} {before rest : List (Chunk β ι)} {chunk : Chunk β ι} {code : List β}
    (rendered : Rendered blank fills offset (before ++ chunk :: rest) code) :
    ∃ piece, Rendered blank fills (offset + (before.flatMap (·.template blank)).length) [chunk] piece ∧
      (code.drop (before.flatMap (·.template blank)).length).take (chunk.size blank) = piece := by
  induction before generalizing offset code with
  | nil =>
    cases rendered with
    | @solid _ literal _ code tail =>
      have single : Rendered blank fills offset [⟨literal, none⟩] (literal ++ []) := .solid (.nil _)
      exact ⟨literal, by simpa using single, by simp [Chunk.size, Chunk.template]⟩
    | @filled _ literal field hole _ code width fits tail =>
      have single : Rendered blank fills offset [⟨literal, some hole⟩] (literal ++ field ++ []) :=
        .filled width fits (.nil _)
      have size : Chunk.size blank ⟨literal, some hole⟩ = (literal ++ field).length := by
        simp [Chunk.size, Chunk.template, width]
      refine ⟨literal ++ field, by simpa using single, ?_⟩
      rw [List.flatMap_nil, List.length_nil, List.drop_zero, size, List.take_left]
  | cons head before ih =>
    cases rendered with
    | @solid _ literal _ code tail =>
      obtain ⟨piece, single, slice⟩ := ih tail
      refine ⟨piece, ?_, ?_⟩
      · simpa [Chunk.template, Nat.add_assoc] using single
      · simpa [Chunk.template, Nat.add_comm, ← List.drop_drop] using slice
    | @filled _ literal field hole _ code width fits tail =>
      obtain ⟨piece, single, slice⟩ := ih tail
      refine ⟨piece, ?_, ?_⟩
      · simpa [Chunk.template, Nat.add_assoc] using single
      · have skip : (Chunk.template blank ⟨literal, some hole⟩).length = (literal ++ field).length := by
          simp [Chunk.template, width]
        simp only [List.flatMap_cons, List.length_append, skip]
        rw [← List.length_append, ← List.drop_drop]
        simpa using slice

theorem patchField_some {code field patched : List β} {start stop : Nat} :
    patchField code start stop field = some patched ↔
      (start ≤ stop ∧ stop ≤ code.length ∧ stop - start = field.length) ∧
        code.take start ++ field ++ code.drop stop = patched := by
  simp only [patchField, Option.ite_none_right_eq_some, Option.some.injEq]

theorem patchField_hole (before literal rest : List β) {field : List β}
    (width : field.length = blank.length) :
    patchField (before ++ literal ++ blank ++ rest) (before ++ literal).length
      ((before ++ literal).length + blank.length) field = some (before ++ literal ++ field ++ rest) := by
  have drop : (before ++ literal ++ blank ++ rest).drop ((before ++ literal).length + blank.length) = rest := by
    rw [← List.length_append, List.drop_left]
  have take : (before ++ literal ++ blank ++ rest).take (before ++ literal).length = before ++ literal := by
    rw [List.append_assoc (before ++ literal), List.take_left]
  refine patchField_some.mpr ⟨⟨Nat.le_add_right _ _, ?_, by omega⟩, by rw [drop, take]⟩
  simp only [List.length_append]
  omega

theorem patchAll_cons {misplaced : ε} {span : ι → Nat × Nat} {value : ι → Except ε (List β)}
    {hole : ι} {rest : List ι} {code patched : List β}
    (run : patchAll misplaced span value (hole :: rest) code = .ok patched) :
    ∃ field middle, value hole = .ok field ∧ patchField code (span hole).1 (span hole).2 field = some middle ∧
      patchAll misplaced span value rest middle = .ok patched := by
  cases found : value hole with
  | error error => simp [patchAll, found] at run
  | ok field =>
    cases placed : patchField code (span hole).1 (span hole).2 field with
    | none => simp [patchAll, found, placed] at run
    | some middle => exact ⟨field, middle, rfl, placed, by simpa [patchAll, found, placed] using run⟩

theorem patchAll_rendered (misplaced : ε) (span : ι → Nat × Nat) (value : ι → Except ε (List β))
    (sized : ∀ hole field, value hole = .ok field → field.length = blank.length)
    (chunks : List (Chunk β ι)) (before code : List β) (placed : Spans blank span before.length chunks)
    (patched : patchAll misplaced span value (holes chunks)
      (before ++ chunks.flatMap (·.template blank)) = .ok code) :
    ∃ rendered, code = before ++ rendered ∧
      Rendered blank (fun hole field => value hole = .ok field) before.length chunks rendered := by
  induction chunks generalizing before code with
  | nil =>
    refine ⟨[], ?_, .nil _⟩
    simpa [holes, patchAll, eq_comm] using patched
  | cons chunk rest ih =>
    obtain ⟨literal, hole⟩ := chunk
    obtain ⟨here, later⟩ := placed
    cases hole with
    | none =>
      have later : Spans blank span (before ++ literal).length rest := by
        simpa [Chunk.size, Chunk.template] using later
      obtain ⟨tail, same, rendered⟩ := ih (before ++ literal) code later (by
        simpa [holes, Chunk.template] using patched)
      rw [List.length_append] at rendered
      exact ⟨literal ++ tail, by simpa using same, .solid rendered⟩
    | some hole =>
      have spanned := here hole rfl
      rw [← List.length_append] at spanned
      obtain ⟨field, middle, found, placed, patched⟩ := patchAll_cons patched
      have width := sized hole field found
      simp only [spanned, List.flatMap_cons, Chunk.template, Option.elim_some] at placed
      rw [← List.append_assoc, ← List.append_assoc, patchField_hole before literal _ width] at placed
      obtain rfl := Option.some.inj placed
      have later : Spans blank span (before ++ literal ++ field).length rest := by
        simpa [Chunk.size, Chunk.template, width, Nat.add_assoc] using later
      obtain ⟨tail, same, rendered⟩ := ih (before ++ literal ++ field) code later patched
      refine ⟨literal ++ field ++ tail, by simpa using same, .filled width found ?_⟩
      rwa [List.length_append, List.length_append, width] at rendered

theorem patchField_length {code field patched : List β} {start stop : Nat}
    (run : patchField code start stop field = some patched) : patched.length = code.length := by
  obtain ⟨fits, rfl⟩ := patchField_some.mp run
  simp only [List.length_append, List.length_take, List.length_drop]
  omega

theorem patchField_outside {code field patched : List β} {start stop index : Nat}
    (run : patchField code start stop field = some patched) (outside : index < start ∨ stop ≤ index) :
    patched[index]? = code[index]? := by
  obtain ⟨fits, rfl⟩ := patchField_some.mp run
  have taken : (code.take start).length = start := by
    rw [List.length_take]
    omega
  rcases outside with low | high
  · rw [List.append_assoc, List.getElem?_append_left (by omega), List.getElem?_take_of_lt low]
  · rw [List.getElem?_append_right (by rw [List.length_append]; omega), List.getElem?_drop,
      List.length_append, taken]
    congr 1
    omega

theorem patchAll_length {misplaced : ε} {span : ι → Nat × Nat} {value : ι → Except ε (List β)}
    {all : List ι} {code patched : List β}
    (run : patchAll misplaced span value all code = .ok patched) : patched.length = code.length := by
  induction all generalizing code with
  | nil => rw [Except.ok.inj run]
  | cons hole rest ih =>
    obtain ⟨field, middle, -, placed, run⟩ := patchAll_cons run
    exact (ih run).trans (patchField_length placed)

theorem patchAll_outside {misplaced : ε} {span : ι → Nat × Nat} {value : ι → Except ε (List β)}
    {all : List ι} {code patched : List β} {index : Nat}
    (run : patchAll misplaced span value all code = .ok patched)
    (outside : ∀ hole ∈ all, index < (span hole).1 ∨ (span hole).2 ≤ index) :
    patched[index]? = code[index]? := by
  induction all generalizing code with
  | nil => rw [Except.ok.inj run]
  | cons hole rest ih =>
    obtain ⟨field, middle, -, placed, run⟩ := patchAll_cons run
    have later := ih run fun later member => outside later (List.mem_cons_of_mem _ member)
    exact later.trans (patchField_outside placed (outside hole List.mem_cons_self))

theorem patchAll_ok {misplaced : ε} {span : ι → Nat × Nat} {value : ι → Except ε (List β)}
    {all : List ι} {code patched : List β}
    (run : patchAll misplaced span value all code = .ok patched) :
    ∀ hole ∈ all, ∃ field, value hole = .ok field := by
  induction all generalizing code with
  | nil => simp
  | cons first rest ih =>
    obtain ⟨field, middle, found, -, run⟩ := patchAll_cons run
    intro hole member
    rcases List.mem_cons.mp member with rfl | member
    · exact ⟨field, found⟩
    · exact ih run hole member

theorem patchAll_congr {misplaced : ε} {span : ι → Nat × Nat} {value other : ι → Except ε (List β)} {all : List ι}
    (same : ∀ hole ∈ all, value hole = other hole) (code : List β) :
    patchAll misplaced span value all code = patchAll misplaced span other all code := by
  induction all generalizing code with
  | nil => rfl
  | cons hole rest ih =>
    obtain ⟨here, later⟩ := List.forall_mem_cons.mp same
    simp only [patchAll, here, ih later]

theorem patchAll_error_iff {misplaced error : ε} {span : ι → Nat × Nat} {value : ι → Except ε (List β)}
    {all : List ι} {code : List β}
    (fits : ∀ hole ∈ all, ∀ field, value hole = .ok field →
      (span hole).1 ≤ (span hole).2 ∧ (span hole).2 ≤ code.length ∧
        (span hole).2 - (span hole).1 = field.length) :
    patchAll misplaced span value all code = .error error ↔
      ∃ before hole after, all = before ++ hole :: after ∧
        (∀ earlier ∈ before, ∃ field, value earlier = .ok field) ∧ value hole = .error error := by
  -- Induction on the holes: the first one without a value decides.
  induction all generalizing code with
  | nil => simp [patchAll]
  | cons hole rest ih =>
    cases found : value hole with
    | error reason =>
      simp only [patchAll, found, Except.error.injEq]
      constructor
      · rintro rfl
        exact ⟨[], hole, rest, rfl, by simp, found⟩
      · rintro ⟨_ | ⟨first, before⟩, failing, after, same, fine, failed⟩
        · obtain ⟨rfl, -⟩ := List.cons.inj same
          exact Except.error.inj (found.symm.trans failed)
        · obtain ⟨rfl, -⟩ := List.cons.inj same
          obtain ⟨field, ok⟩ := fine hole List.mem_cons_self
          exact absurd (found.symm.trans ok) (by simp)
    | ok field =>
      obtain ⟨patched, placed⟩ : ∃ patched, patchField code (span hole).1 (span hole).2 field = some patched :=
        ⟨_, patchField_some.mpr ⟨fits hole List.mem_cons_self field found, rfl⟩⟩
      simp only [patchAll, found, placed]
      rw [ih fun later member field ok => by
        rw [patchField_length placed]
        exact fits later (List.mem_cons_of_mem _ member) field ok]
      constructor
      · rintro ⟨before, failing, after, rfl, fine, failed⟩
        refine ⟨hole :: before, failing, after, rfl, ?_, failed⟩
        intro earlier member
        rcases List.mem_cons.mp member with rfl | member
        · exact ⟨field, found⟩
        · exact fine earlier member
      · rintro ⟨_ | ⟨first, before⟩, failing, after, same, fine, failed⟩
        · obtain ⟨rfl, -⟩ := List.cons.inj same
          exact absurd (found.symm.trans failed) (by simp)
        · obtain ⟨rfl, rfl⟩ := List.cons.inj same
          exact ⟨before, failing, after, rfl,
            fun earlier member => fine earlier (List.mem_cons_of_mem _ member), failed⟩

end Backpatch
