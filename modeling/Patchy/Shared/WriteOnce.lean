import Mathlib.Data.List.Basic
import Mathlib.Logic.Relation

set_option autoImplicit false

/-! Stores in which a cell, once claimed, keeps its value. -/

namespace WriteOnce

variable {α β : Type}

abbrev Store (α β : Type) := α → Option β

def empty : Store α β := fun _ => none

def Separate (first second : Store α β) : Prop := ∀ cell, first cell = none ∨ second cell = none

def Extends (first second : Store α β) : Prop := ∀ cell value, first cell = some value → second cell = some value

def union (first second : Store α β) : Store α β := fun cell => (first cell).or (second cell)

def merge (stores : List (Store α β)) : Store α β := stores.foldr union empty

def overlay (base : α → β) (store : Store α β) : α → β := fun cell => (store cell).getD (base cell)

theorem Extends.refl (store : Store α β) : Extends store store := fun _ _ => id

theorem Extends.trans {first second third : Store α β} (early : Extends first second)
    (late : Extends second third) : Extends first third :=
  fun cell value claimed => late cell value (early cell value claimed)

theorem extends_union_left (first second : Store α β) : Extends first (union first second) := by
  intro cell value claimed
  simp [union, claimed]

theorem extends_union_right {first second : Store α β} (separate : Separate first second) :
    Extends second (union first second) := by
  intro cell value claimed
  rcases separate cell with free | free
  · simp [union, free, claimed]
  · simp [free] at claimed

theorem union_assoc (first second third : Store α β) :
    union (union first second) third = union first (union second third) := by
  funext cell
  simp [union, Option.or_assoc]

theorem union_none_iff {first second : Store α β} {cell : α} :
    union first second cell = none ↔ first cell = none ∧ second cell = none := by
  simp [union]

@[simp] theorem empty_union (store : Store α β) : union empty store = store := by
  funext cell
  simp [union, empty]

@[simp] theorem merge_nil : merge ([] : List (Store α β)) = empty := rfl

@[simp] theorem merge_cons (store : Store α β) (rest : List (Store α β)) :
    merge (store :: rest) = union store (merge rest) := rfl

theorem merge_append (first second : List (Store α β)) :
    merge (first ++ second) = union (merge first) (merge second) := by
  induction first with
  | nil => simp
  | cons store rest ih => rw [List.cons_append, merge_cons, merge_cons, ih, union_assoc]

theorem merge_none_iff {stores : List (Store α β)} {cell : α} :
    merge stores cell = none ↔ ∀ store ∈ stores, store cell = none := by
  induction stores with
  | nil => simp [empty]
  | cons store rest ih => simp [union_none_iff, ih]

theorem separate_merge {store : Store α β} {stores : List (Store α β)}
    (separate : ∀ other ∈ stores, Separate store other) : Separate store (merge stores) := by
  intro cell
  cases claimed : store cell with
  | none => exact Or.inl rfl
  | some value =>
    refine Or.inr (merge_none_iff.mpr fun other member => ?_)
    rcases separate other member cell with free | free
    · simp [free] at claimed
    · exact free

theorem extends_merge {stores : List (Store α β)} (separate : stores.Pairwise Separate) {store : Store α β}
    (member : store ∈ stores) : Extends store (merge stores) := by
  induction stores with
  | nil => contradiction
  | cons head rest ih =>
    rw [List.pairwise_cons] at separate
    rcases List.mem_cons.mp member with rfl | later
    · exact extends_union_left _ _
    · exact (ih separate.2 later).trans (extends_union_right (separate_merge separate.1))

theorem overlay_some {base : α → β} {store : Store α β} {cell : α} {value : β} (claimed : store cell = some value) :
    overlay base store cell = value := by
  simp [overlay, claimed]

theorem overlay_none {base : α → β} {store : Store α β} {cell : α} (free : store cell = none) :
    overlay base store cell = base cell := by
  simp [overlay, free]

theorem overlay_overlay (base : α → β) {first second : Store α β} (separate : Separate first second) :
    overlay (overlay base first) second = overlay base (union first second) := by
  funext cell
  rcases separate cell with free | free <;> simp [overlay, union, free]

theorem foldl_overlay (base : α → β) {stores : List (Store α β)} (separate : stores.Pairwise Separate) :
    stores.foldl overlay base = overlay base (merge stores) := by
  induction stores generalizing base with
  | nil => rfl
  | cons store rest ih =>
    rw [List.pairwise_cons] at separate
    rw [List.foldl_cons, ih _ separate.2, overlay_overlay _ (separate_merge separate.1), merge_cons]

inductive Step : Store α β → Store α β → Prop
  | idle (store : Store α β) : Step store store
  | claim (store batch : Store α β) (free : Separate store batch) : Step store (union store batch)

theorem Step.extends {first second : Store α β} (step : Step first second) : Extends first second := by
  cases step with
  | idle => exact Extends.refl first
  | claim batch free => exact extends_union_left first batch

theorem run_extends {first last : Store α β} (run : Relation.ReflTransGen Step first last) :
    Extends first last := by
  induction run with
  | refl => exact Extends.refl first
  | tail _ step ih => exact ih.trans step.extends

end WriteOnce
