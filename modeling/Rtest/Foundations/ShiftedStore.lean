import Rtest.Foundations.ObjectStore

/-!
# The younger part of a store

A store that has seen objects before, next to one that has not: what the first builds after the
first `off` objects, the second builds from the start. References to the younger objects of the
first are those of the second moved up by `off`.

## Main definitions

- `ObjectStore.Shifted` — the younger objects of one store are those of the other, seen through `f`
- `ObjectStore.Vacant` — of the first `off` objects none lives
-/

namespace ObjectStore

variable {α β : Type*}

/-- The objects of `s` from the `off`-th on are those of `s₀`. -/
structure Shifted (off : ℕ) (f : α → β) (s : ObjectStore β) (s₀ : ObjectStore α) : Prop where
  next : s.next = s₀.next + off
  get? : ∀ i, s.get? (i + off) = (s₀.get? i).map f

/-- None of the first `off` objects lives. -/
def Vacant (off : ℕ) (s : ObjectStore α) : Prop := ∀ i < off, s.get? i = none

variable {off : ℕ} {f : α → β} {s : ObjectStore β} {s₀ : ObjectStore α}

/-- What is built from now on. -/
theorem shifted_next (f : α → β) (s : ObjectStore β) :
    Shifted s.next f s (empty : ObjectStore α) where
  next := (Nat.zero_add _).symm
  get? := by
    intro i
    rw [get?_eq_none_of_next_le (Nat.le_add_left s.next i)]
    simp [ObjectStore.get?, empty]

theorem Shifted.alloc (h : Shifted off f s s₀) (a : α) :
    Shifted off f (s.alloc (f a)) (s₀.alloc a) where
  next := by
    rw [next_alloc, next_alloc, h.next]
    omega
  get? := by
    intro i
    have hiff : i + off = s.next ↔ i = s₀.next := by
      rw [h.next]
      omega
    simp only [get?_alloc, hiff, h.get?]
    split <;> rfl

theorem Shifted.free (h : Shifted off f s s₀) (i : ℕ) :
    Shifted off f (s.free (i + off)) (s₀.free i) where
  next := by rw [next_free, next_free, h.next]
  get? := by
    intro j
    simp only [get?_free, Nat.add_right_cancel_iff, h.get?]
    split <;> rfl

theorem Shifted.modify (h : Shifted off f s s₀) (i : ℕ) {g : β → β} {g₀ : α → α}
    (hg : ∀ a, g (f a) = f (g₀ a)) :
    Shifted off f (s.modify (i + off) g) (s₀.modify i g₀) where
  next := by rw [next_modify, next_modify, h.next]
  get? := by
    intro j
    simp only [get?_modify, Nat.add_right_cancel_iff, h.get?]
    split
    · simp only [Option.map_map, Function.comp_def, hg]
    · rfl

theorem Shifted.alive (h : Shifted off f s s₀) (i : ℕ) : s.alive (i + off) = s₀.alive i := by
  rw [ObjectStore.alive, h.get?, Option.isSome_map, ObjectStore.alive]

/-- A weak reference, moved up. -/
def up (off : ℕ) (p : Option ℕ) : Option ℕ := p.map (· + off)

@[simp] theorem up_none (off : ℕ) : up off none = none := rfl

@[simp] theorem up_some (off i : ℕ) : up off (some i) = some (i + off) := rfl

@[simp] theorem up_eq_none_iff {p : Option ℕ} : up off p = none ↔ p = none := by
  cases p <;> simp

theorem Shifted.lock (h : Shifted off f s s₀) (p : WeakPtr) :
    s.lock (up off p) = up off (s₀.lock p) := by
  cases p with
  | none => rfl
  | some i =>
    simp only [ObjectStore.lock, up_some, Option.filter, h.alive]
    split <;> rfl

/-- What holds of all objects holds of the younger ones. -/
theorem Shifted.all_of (h : Shifted off f s s₀) {p : β → Bool} {p₀ : α → Bool}
    (hp : ∀ a, p (f a) = p₀ a) (hall : s.all p = true) : s₀.all p₀ = true := by
  rw [all_iff] at hall ⊢
  intro i a ha
  have hget : s.get? (i + off) = some (f a) := by rw [h.get?, ha, Option.map_some]
  rw [← hp]
  exact hall _ _ hget

theorem Shifted.all_eq (h : Shifted off f s s₀) (hv : Vacant off s) {p : β → Bool} {p₀ : α → Bool}
    (hp : ∀ a, p (f a) = p₀ a) : s.all p = s₀.all p₀ := by
  rw [Bool.eq_iff_iff]
  refine ⟨h.all_of hp, fun hall => ?_⟩
  rw [all_iff] at hall ⊢
  intro i b hb
  -- an object that lives is one of the younger
  obtain ⟨j, rfl⟩ : ∃ j, i = j + off := by
    refine ⟨i - off, ?_⟩
    by_contra hlt
    rw [hv i (by omega)] at hb
    cases hb
  rw [h.get?, Option.map_eq_some_iff] at hb
  obtain ⟨a, ha, rfl⟩ := hb
  rw [hp]
  exact hall j a ha

theorem Vacant.alloc {s : ObjectStore α} (h : Vacant off s) (hoff : off ≤ s.next) (a : α) :
    Vacant off (s.alloc a) := by
  intro i hi
  rw [get?_alloc, if_neg (by omega), h i hi]

theorem Vacant.free {s : ObjectStore α} (h : Vacant off s) (j : ℕ) : Vacant off (s.free j) := by
  intro i hi
  rw [get?_free, h i hi, ite_self]

theorem Vacant.modify {s : ObjectStore α} (h : Vacant off s) (j : ℕ) (g : α → α) :
    Vacant off (s.modify j g) := by
  intro i hi
  rw [get?_modify, h i hi, Option.map_none, ite_self]

end ObjectStore
