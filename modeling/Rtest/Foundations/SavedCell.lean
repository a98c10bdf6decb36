import Mathlib.Data.List.Basic

/-!
# Cells that scopes save and restore

A cell holds a value. A scope that opens saves the value it finds and installs one of its own, and
when it closes it puts back what it saved. Scopes that close in the reverse of the order in which
they opened leave the cell as it was; two that overlap leave what the first of them installed.

## Main definitions

- `SavedCell.Nested` — the open scopes, each on top of what it saved
-/

namespace SavedCell

variable {σ ν : Type*} (installs saved : σ → ν) (initial : ν)

/-- The open scopes, the innermost first: the cell holds what the innermost installed, and each
scope saved what the next one around it had installed. -/
def Nested : List σ → ν → Prop
  | [], cell => cell = initial
  | a :: scopes, cell => cell = installs a ∧ Nested scopes (saved a)

variable {installs saved initial} {scopes : List σ} {cell : ν} {a b : σ}

/-- A scope opens. -/
theorem Nested.enter (h : Nested installs saved initial scopes cell) (ha : saved a = cell) :
    Nested installs saved initial (a :: scopes) (installs a) :=
  ⟨rfl, by rwa [ha]⟩

/-- The innermost scope closes. -/
theorem Nested.leave (h : Nested installs saved initial (a :: scopes) cell) :
    Nested installs saved initial scopes (saved a) := h.2

/-- With all scopes closed the cell is as it was. -/
theorem Nested.restored (h : Nested installs saved initial [] cell) : cell = initial := h

/-- The cell holds what it held at first, or what an open scope installed. -/
theorem Nested.source (h : Nested installs saved initial scopes cell) :
    cell = initial ∨ ∃ a ∈ scopes, cell = installs a := by
  cases scopes with
  | nil => exact Or.inl h
  | cons a scopes => exact Or.inr ⟨a, List.mem_cons_self, h.1⟩

/-- What an inner scope puts back is what the scope around it installed. -/
theorem Nested.inner_saved (h : Nested installs saved initial (b :: a :: scopes) cell) :
    saved b = installs a := h.2.1

end SavedCell
