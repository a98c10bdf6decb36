import Mathlib.Data.List.Basic

/-!
# Promises

The states that promises share with the futures taken from them. A state is made empty and is
satisfied at most once; from then on it holds the same value.

## Main definitions

- `SharedStates` — the states made so far
- `SharedStates.value` — what a future of a state yields
- `SharedStates.setValue` — satisfy a promise, unless it has been
-/

/-- The states made so far, in order, each empty or satisfied. -/
structure SharedStates (α : Type*) where
  cells : List (Option α)

namespace SharedStates

variable {α : Type*}

/-- No promise has been made. -/
def empty : SharedStates α := ⟨[]⟩

/-- The state of the next promise. -/
def next (s : SharedStates α) : ℕ := s.cells.length

/-- A new promise. -/
def make (s : SharedStates α) : SharedStates α := ⟨s.cells ++ [none]⟩

/-- What the futures of a state yield, if it is satisfied. -/
def value (s : SharedStates α) (i : ℕ) : Option α := (s.cells[i]?).join

/-- `std::promise::set_value`; `none` where it throws. -/
def setValue (s : SharedStates α) (i : ℕ) (a : α) : Option (SharedStates α) :=
  match s.cells[i]? with
  | some none => some ⟨s.cells.set i (some a)⟩
  | _ => none

variable {s s' : SharedStates α} {i j : ℕ} {a b : α}

@[simp] theorem next_make (s : SharedStates α) : s.make.next = s.next + 1 := by
  simp [next, make]

/-- A new state is empty, and the others stay as they are. -/
@[simp] theorem value_make (s : SharedStates α) (i : ℕ) : s.make.value i = s.value i := by
  simp only [value, make, List.getElem?_append]
  split
  · rfl
  · next hle =>
    rw [List.getElem?_eq_none (Nat.not_lt.mp hle)]
    cases hi : i - s.cells.length <;> rfl

theorem value_next (s : SharedStates α) : s.value s.next = none := by
  simp [value, next]

/-- A promise is satisfied just if it is there and its state is empty. -/
theorem setValue_eq_some_iff : s.setValue i a = some s' ↔
    i < s.next ∧ s.value i = none ∧ s' = ⟨s.cells.set i (some a)⟩ := by
  simp only [setValue, value, next]
  cases hcell : s.cells[i]? with
  | none =>
    have hle := List.getElem?_eq_none_iff.mp hcell
    simp [Nat.not_lt.mpr hle]
  | some cell =>
    have hlt := (List.getElem?_eq_some_iff.mp hcell).1
    cases cell with
    | none => simp [hlt, eq_comm]
    | some b => simp

/-- A state that is satisfied refuses a second value. -/
theorem setValue_of_value (h : s.value i = some b) (a : α) : s.setValue i a = none := by
  apply Option.eq_none_iff_forall_ne_some.mpr
  intro s' hs'
  rw [setValue_eq_some_iff, h] at hs'
  cases hs'.2.1

theorem exists_setValue (hi : i < s.next) (h : s.value i = none) (a : α) :
    ∃ s', s.setValue i a = some s' :=
  ⟨_, setValue_eq_some_iff.mpr ⟨hi, h, rfl⟩⟩

/-- What is set is what the state yields; the other states stay as they are. -/
theorem value_of_setValue (h : s.setValue i a = some s') (j : ℕ) :
    s'.value j = if j = i then some a else s.value j := by
  obtain ⟨hi, -, rfl⟩ := setValue_eq_some_iff.mp h
  simp only [value, List.getElem?_set]
  split
  · next heq =>
    have hi : i < s.cells.length := hi
    subst heq
    simp [hi]
  · next hne =>
    rw [if_neg (Ne.symm hne)]

theorem next_of_setValue (h : s.setValue i a = some s') : s'.next = s.next := by
  obtain ⟨-, -, rfl⟩ := setValue_eq_some_iff.mp h
  simp [next]

/-- A state once satisfied keeps its value. -/
theorem value_stays (h : s.setValue i a = some s') (hj : s.value j = some b) :
    s'.value j = some b := by
  obtain ⟨-, hempty, -⟩ := setValue_eq_some_iff.mp h
  rw [value_of_setValue h, if_neg, hj]
  rintro rfl
  rw [hempty] at hj
  cases hj

end SharedStates
