import Mathlib.Data.List.Basic

set_option autoImplicit false

/-! Total memories over natural addresses, with contents of any type. -/

namespace Memory

variable {β : Type}

def cells (address : Nat) (contents : List β) : Nat → Option β :=
  fun location => if address ≤ location then contents[location - address]? else none

def readAt (memory : Nat → β) (address count : Nat) : List β :=
  (List.range count).map fun index => memory (address + index)

def writeAt (memory : Nat → β) (address : Nat) (contents : List β) : Nat → β :=
  fun location => (cells address contents location).getD (memory location)

def Apart (start size otherStart otherSize : Nat) : Prop :=
  start + size ≤ otherStart ∨ otherStart + otherSize ≤ start

instance (start size otherStart otherSize : Nat) :
    Decidable (Apart start size otherStart otherSize) := by
  simp only [Apart]
  infer_instance

def Inside (start size location : Nat) : Prop := start ≤ location ∧ location < start + size

instance (start size location : Nat) : Decidable (Inside start size location) := by
  simp only [Inside]
  infer_instance

theorem Apart.symm {start size otherStart otherSize : Nat}
    (apart : Apart start size otherStart otherSize) : Apart otherStart otherSize start size :=
  Or.symm apart

theorem Apart.not_inside {start size otherStart otherSize location : Nat}
    (apart : Apart start size otherStart otherSize) (inside : Inside start size location) :
    ¬ Inside otherStart otherSize location := by
  simp only [Apart, Inside] at *
  omega

theorem apart_iff {start size otherStart otherSize : Nat} (nonempty : 0 < size) (otherNonempty : 0 < otherSize) :
    Apart start size otherStart otherSize ↔
      ∀ location, Inside start size location → ¬ Inside otherStart otherSize location := by
  constructor
  · exact fun apart location => apart.not_inside
  · intro separate
    have first := separate start (by unfold Inside; omega)
    have second := separate otherStart
    simp only [Apart]
    simp only [Inside] at first second
    omega

@[simp] theorem readAt_length (memory : Nat → β) (address count : Nat) :
    (readAt memory address count).length = count := by
  simp [readAt]

theorem readAt_getElem? (memory : Nat → β) {address count index : Nat} (within : index < count) :
    (readAt memory address count)[index]? = some (memory (address + index)) := by
  simp [readAt, within]

theorem readAt_eq_iff {memory : Nat → β} {address : Nat} {contents : List β} :
    readAt memory address contents.length = contents ↔
      ∀ index, (within : index < contents.length) → memory (address + index) = contents[index] := by
  constructor
  · intro same index within
    have read : (readAt memory address contents.length)[index]? = some (memory (address + index)) :=
      readAt_getElem? memory within
    rw [same, List.getElem?_eq_getElem within] at read
    exact (Option.some.inj read).symm
  · intro agree
    apply List.ext_getElem?
    intro index
    by_cases within : index < contents.length
    · rw [readAt_getElem? memory within, agree index within, List.getElem?_eq_getElem within]
    · rw [List.getElem?_eq_none (by simpa using within), List.getElem?_eq_none (by simpa using within)]

theorem readAt_congr {first second : Nat → β} {address count : Nat}
    (agree : ∀ location, Inside address count location → first location = second location) :
    readAt first address count = readAt second address count := by
  simp only [readAt]
  apply List.map_congr_left
  intro index member
  have within := List.mem_range.mp member
  exact agree _ (by unfold Inside; omega)

theorem cells_some_iff {address location : Nat} {contents : List β} :
    (cells address contents location).isSome ↔ Inside address contents.length location := by
  simp only [cells, Inside]
  split <;> simp <;> omega

theorem cells_none_iff {address location : Nat} {contents : List β} :
    cells address contents location = none ↔ ¬ Inside address contents.length location := by
  rw [← cells_some_iff]
  simp

theorem cells_inside {address index : Nat} {contents : List β} (within : index < contents.length) :
    cells address contents (address + index) = some contents[index] := by
  simp [cells, within]

theorem writeAt_inside (memory : Nat → β) {address index : Nat} {contents : List β}
    (within : index < contents.length) :
    writeAt memory address contents (address + index) = contents[index] := by
  simp [writeAt, cells_inside within]

theorem writeAt_outside (memory : Nat → β) {address location : Nat} {contents : List β}
    (outside : ¬ Inside address contents.length location) :
    writeAt memory address contents location = memory location := by
  simp [writeAt, cells_none_iff.mpr outside]

theorem readAt_writeAt_same (memory : Nat → β) (address : Nat) (contents : List β) :
    readAt (writeAt memory address contents) address contents.length = contents :=
  readAt_eq_iff.mpr fun _ within => writeAt_inside memory within

theorem readAt_writeAt_apart (memory : Nat → β) {address count target : Nat} {contents : List β}
    (apart : Apart address count target contents.length) :
    readAt (writeAt memory target contents) address count = readAt memory address count :=
  readAt_congr fun _ inside => writeAt_outside memory (apart.not_inside inside)

end Memory
