import Mathlib.Data.List.Basic
import Mathlib.Data.List.Induction
import Mathlib.Data.Nat.Basic

/-!
# Objects with lifetimes

A store of objects whose identity is their birth: the `i`-th object ever built is `i` for ever,
whether or not it has been destroyed, and no later object is. An address, a control block or any
other resource that is recycled is a field of the object, so a store can hold two objects that
used one address in turn and still tell them apart.

## Main definitions

- `ObjectStore` — the births so far, each with its object while that object lives
- `ObjectStore.alloc`, `ObjectStore.free`, `ObjectStore.modify` — birth, death and update
- `WeakPtr`, `ObjectStore.lock` — a reference that does not keep its object alive
- `ObjectStore.Distinct` — no two living objects use the same resource
-/

/-- The objects born so far, in order of birth; `none` stands for one that has been destroyed. -/
structure ObjectStore (α : Type*) where
  births : List (Option α)

/-- A weak reference: empty, or to the `i`-th object born. -/
abbrev WeakPtr := Option ℕ

namespace ObjectStore

variable {α : Type*}

/-- No object has been built. -/
def empty : ObjectStore α := ⟨[]⟩

instance : Inhabited (ObjectStore α) := ⟨empty⟩

/-- The identity the next object will have. -/
def next (s : ObjectStore α) : ℕ := s.births.length

/-- The object `i`, while it lives. -/
def get? (s : ObjectStore α) (i : ℕ) : Option α := (s.births[i]?).join

/-- Build an object; its identity is `s.next`. -/
def alloc (s : ObjectStore α) (a : α) : ObjectStore α := ⟨s.births ++ [some a]⟩

/-- Destroy the object `i`. -/
def free (s : ObjectStore α) (i : ℕ) : ObjectStore α := ⟨s.births.set i none⟩

/-- Change the object `i` in place. -/
def modify (s : ObjectStore α) (i : ℕ) (f : α → α) : ObjectStore α :=
  ⟨s.births.modify i (Option.map f)⟩

/-- Change every living object in place. -/
def map (s : ObjectStore α) (f : α → α) : ObjectStore α := ⟨s.births.map (Option.map f)⟩

/-- Whether the object `i` is alive. -/
def alive (s : ObjectStore α) (i : ℕ) : Bool := (s.get? i).isSome

/-- `weak_ptr::lock`: the object a weak reference names, while it lives. -/
def lock (s : ObjectStore α) (p : WeakPtr) : Option ℕ := p.filter s.alive

/-- Whether every living object satisfies `p`. -/
def all (s : ObjectStore α) (p : α → Bool) : Bool := s.births.all fun o => o.all p

-- ════════════════════════════════════════════════════════════════════════
-- Reading a store after one change
-- ════════════════════════════════════════════════════════════════════════

@[simp] theorem next_alloc (s : ObjectStore α) (a : α) : (s.alloc a).next = s.next + 1 := by
  simp [next, alloc]

@[simp] theorem next_free (s : ObjectStore α) (i : ℕ) : (s.free i).next = s.next := by
  simp [next, free]

@[simp] theorem next_modify (s : ObjectStore α) (i : ℕ) (f : α → α) :
    (s.modify i f).next = s.next := by
  simp [next, modify]

@[simp] theorem next_map (s : ObjectStore α) (f : α → α) : (s.map f).next = s.next := by
  simp [next, map]

theorem get?_eq_none_of_next_le {s : ObjectStore α} {i : ℕ} (h : s.next ≤ i) :
    s.get? i = none := by
  have hi : s.births[i]? = none := List.getElem?_eq_none_iff.mpr h
  simp [get?, hi]

/-- A living object has been born. -/
theorem lt_next_of_get? {s : ObjectStore α} {i : ℕ} {a : α} (h : s.get? i = some a) :
    i < s.next := by
  by_contra hi
  rw [get?_eq_none_of_next_le (by omega)] at h
  cases h

theorem get?_alloc (s : ObjectStore α) (a : α) (i : ℕ) :
    (s.alloc a).get? i = if i = s.next then some a else s.get? i := by
  show ((s.births ++ [some a])[i]?).join =
    if i = s.births.length then some a else s.births[i]?.join
  rcases lt_trichotomy i s.births.length with hi | hi | hi
  · rw [List.getElem?_append_left hi, if_neg (by omega)]
  · subst hi
    simp
  · have hl : [some a].length ≤ i - s.births.length := by
      simp only [List.length_singleton]
      omega
    rw [List.getElem?_append_right (by omega), if_neg (by omega),
      List.getElem?_eq_none_iff.mpr hl, List.getElem?_eq_none_iff.mpr (by omega)]

@[simp] theorem get?_alloc_next (s : ObjectStore α) (a : α) :
    (s.alloc a).get? s.next = some a := by
  simp [get?_alloc]

/-- A birth leaves every object that was alive as it was. -/
theorem get?_alloc_of_some {s : ObjectStore α} {i : ℕ} {b : α} (a : α) (h : s.get? i = some b) :
    (s.alloc a).get? i = some b := by
  have hi := lt_next_of_get? h
  rw [get?_alloc, if_neg (by omega), h]

theorem get?_free (s : ObjectStore α) (i j : ℕ) :
    (s.free i).get? j = if j = i then none else s.get? j := by
  simp only [get?, free, List.getElem?_set]
  by_cases hij : i = j
  · subst hij
    by_cases hl : i < s.births.length <;> simp [hl]
  · simp [hij, Ne.symm hij]

/-- What lives after a death lived before it. -/
theorem get?_of_free {s : ObjectStore α} {i j : ℕ} {a : α} (h : (s.free i).get? j = some a) :
    s.get? j = some a := by
  rw [get?_free] at h
  split at h
  · cases h
  · exact h

/-- No two living objects use the same resource. -/
def Distinct {κ : Type*} (resource : α → κ) (s : ObjectStore α) : Prop :=
  ∀ i j a b, s.get? i = some a → s.get? j = some b → resource a = resource b → i = j

/-- A birth on a resource that no living object uses. -/
theorem Distinct.alloc {κ : Type*} {resource : α → κ} {s : ObjectStore α} {x : α}
    (h : Distinct resource s) (hx : ∀ i a, s.get? i = some a → resource a ≠ resource x) :
    Distinct resource (s.alloc x) := by
  intro i j a b ha hb hab
  rw [get?_alloc] at ha hb
  split at ha <;> split at hb
  · omega
  · cases ha
    exact absurd hab.symm (hx j b hb)
  · cases hb
    exact absurd hab (hx i a ha)
  · exact h i j a b ha hb hab

theorem Distinct.free {κ : Type*} {resource : α → κ} {s : ObjectStore α}
    (h : Distinct resource s) (i : ℕ) : Distinct resource (s.free i) := by
  intro j k a b ha hb
  exact h j k a b (get?_of_free ha) (get?_of_free hb)

theorem get?_modify (s : ObjectStore α) (i : ℕ) (f : α → α) (j : ℕ) :
    (s.modify i f).get? j = if j = i then (s.get? j).map f else s.get? j := by
  simp only [get?, modify, List.getElem?_modify]
  by_cases hij : i = j
  · subst hij
    cases h : s.births[i]? <;> simp
  · simp [hij, Ne.symm hij]

/-- What lives after a change is what lived before, or the changed object. -/
theorem get?_of_modify {s : ObjectStore α} {i j : ℕ} {f : α → α} {a : α}
    (h : (s.modify i f).get? j = some a) :
    ∃ b, s.get? j = some b ∧ (a = b ∨ (j = i ∧ a = f b)) := by
  rw [get?_modify] at h
  by_cases hji : j = i
  · rw [if_pos hji, Option.map_eq_some_iff] at h
    obtain ⟨b, hb, rfl⟩ := h
    exact ⟨b, hb, Or.inr ⟨hji, rfl⟩⟩
  · rw [if_neg hji] at h
    exact ⟨a, h, Or.inl rfl⟩

theorem get?_map (s : ObjectStore α) (f : α → α) (i : ℕ) :
    (s.map f).get? i = (s.get? i).map f := by
  simp only [get?, map, List.getElem?_map]
  cases s.births[i]? with
  | none => rfl
  | some o => rfl

/-- A store is what was born and what lives. -/
theorem ext_get? {s s' : ObjectStore α} (hnext : s.next = s'.next)
    (h : ∀ i, s.get? i = s'.get? i) : s = s' := by
  cases s with
  | mk births =>
    cases s' with
    | mk births' =>
      congr 1
      apply List.ext_getElem hnext
      intro i hi hi'
      have hget := h i
      simp only [get?, List.getElem?_eq_getElem hi, List.getElem?_eq_getElem hi',
        Option.join_some] at hget
      exact hget

-- ════════════════════════════════════════════════════════════════════════
-- Lifetimes and weak references
-- ════════════════════════════════════════════════════════════════════════

theorem alive_iff {s : ObjectStore α} {i : ℕ} : s.alive i = true ↔ ∃ a, s.get? i = some a := by
  simp [alive, Option.isSome_iff_exists]

theorem alive_of_get? {s : ObjectStore α} {i : ℕ} {a : α} (h : s.get? i = some a) :
    s.alive i = true := by
  simp [alive, h]

@[simp] theorem alive_alloc (s : ObjectStore α) (a : α) (i : ℕ) :
    (s.alloc a).alive i = (decide (i = s.next) || s.alive i) := by
  by_cases hi : i = s.next <;> simp [alive, get?_alloc, hi]

@[simp] theorem alive_free (s : ObjectStore α) (i j : ℕ) :
    (s.free i).alive j = (decide (j ≠ i) && s.alive j) := by
  by_cases hj : j = i <;> simp [alive, get?_free, hj]

@[simp] theorem alive_modify (s : ObjectStore α) (i : ℕ) (f : α → α) (j : ℕ) :
    (s.modify i f).alive j = s.alive j := by
  by_cases hj : j = i <;> simp [alive, get?_modify, hj]

@[simp] theorem alive_map (s : ObjectStore α) (f : α → α) (i : ℕ) :
    (s.map f).alive i = s.alive i := by
  simp [alive, get?_map]

theorem lock_eq_some_iff {s : ObjectStore α} {p : WeakPtr} {i : ℕ} :
    s.lock p = some i ↔ p = some i ∧ s.alive i = true := by
  simp only [lock, Option.filter_eq_some_iff]

/-- What a lock returns is alive. -/
theorem alive_of_lock {s : ObjectStore α} {p : WeakPtr} {i : ℕ} (h : s.lock p = some i) :
    s.alive i = true :=
  (lock_eq_some_iff.mp h).2

/-- Locking a list of weak references keeps the living ones. -/
theorem filterMap_lock (s : ObjectStore α) (l : List ℕ) :
    (l.map some).filterMap s.lock = l.filter s.alive := by
  induction l with
  | nil => rfl
  | cons i l ih =>
    have hlock : s.lock (some i) = if s.alive i then some i else none := by
      simp [lock, Option.filter]
    cases hi : s.alive i <;> simp [hlock, hi, ih]

theorem all_iff {s : ObjectStore α} {p : α → Bool} :
    s.all p = true ↔ ∀ i a, s.get? i = some a → p a = true := by
  simp only [all, List.all_eq_true, get?]
  constructor
  · intro h i a ha
    have ho : s.births[i]? = some (some a) := Option.join_eq_some_iff.mp ha
    simpa using h (some a) (List.mem_of_getElem? ho)
  · intro h o ho
    obtain ⟨i, hi⟩ := List.mem_iff_getElem?.mp ho
    cases o with
    | none => rfl
    | some a => simpa using h i a (by simp [hi])

-- ════════════════════════════════════════════════════════════════════════
-- The living, by age
-- ════════════════════════════════════════════════════════════════════════

/-- The objects alive, the youngest first. -/
def living (s : ObjectStore α) : List α := s.births.reverse.filterMap id

@[simp] theorem living_alloc (s : ObjectStore α) (a : α) :
    (s.alloc a).living = a :: s.living := by
  simp [living, alloc]

theorem mem_living {s : ObjectStore α} {a : α} : a ∈ s.living ↔ ∃ i, s.get? i = some a := by
  rw [living, List.mem_filterMap]
  constructor
  · rintro ⟨o, ho, rfl⟩
    obtain ⟨i, hi⟩ := List.mem_iff_getElem?.mp (List.mem_reverse.mp ho)
    exact ⟨i, by rw [get?, hi]; rfl⟩
  · rintro ⟨i, hi⟩
    have ho : s.births[i]? = some (some a) := Option.join_eq_some_iff.mp hi
    exact ⟨some a, List.mem_reverse.mpr (List.mem_of_getElem? ho), rfl⟩

/-- The youngest of the objects alive is the first of them. -/
theorem living_of_youngest {s : ObjectStore α} {i : ℕ} {a : α} (h : s.get? i = some a)
    (hyoungest : ∀ j, i < j → s.get? j = none) : s.living = a :: (s.free i).living := by
  obtain ⟨births⟩ := s
  simp only [get?, Option.join_eq_some_iff] at h hyoungest
  simp only [living, free]
  induction births using List.reverseRecOn with
  | nil => simp at h
  | append_singleton births o ih =>
    have hi := (List.getElem?_eq_some_iff.mp h).1
    rw [List.length_append, List.length_singleton] at hi
    by_cases hlast : i = births.length
    · subst hlast
      rw [List.getElem?_concat_length, Option.some_inj] at h
      simp [h]
    · -- what was born after the object is gone
      have hlt : i < births.length := by omega
      have ho := hyoungest births.length hlt
      rw [List.getElem?_concat_length, Option.join_some] at ho
      subst ho
      rw [List.getElem?_append_left hlt] at h
      have hgone : ∀ j, i < j → births[j]?.join = none := by
        intro j hj
        by_cases hj' : j < births.length
        · have hnone := hyoungest j hj
          rwa [List.getElem?_append_left hj'] at hnone
        · rw [List.getElem?_eq_none (by omega), Option.join_none]
      have hearlier := ih hgone h
      simpa [List.set_append_left _ _ hlt] using hearlier
section View

variable {s s' : ObjectStore α} {f : α → α}

theorem map_alloc (s : ObjectStore α) (f : α → α) (a : α) :
    (s.alloc a).map f = (s.map f).alloc (f a) := by
  simp [map, alloc]

theorem map_free (s : ObjectStore α) (f : α → α) (i : ℕ) :
    (s.free i).map f = (s.map f).free i := by
  simp [map, free, List.map_set]

/-- Of two stores seen alike through `f`, an object of one is seen alike in the other. -/
theorem get?_of_map_eq (h : s.map f = s'.map f) {i : ℕ} {a : α} (ha : s.get? i = some a) :
    ∃ b, s'.get? i = some b ∧ f a = f b := by
  have hi : (s.map f).get? i = (s'.map f).get? i := by rw [h]
  rw [get?_map, get?_map, ha, Option.map_some, eq_comm, Option.map_eq_some_iff] at hi
  obtain ⟨b, hb, hab⟩ := hi
  exact ⟨b, hb, hab.symm⟩

theorem next_of_map_eq (h : s.map f = s'.map f) : s.next = s'.next := by
  simpa using congrArg next h

theorem alive_of_map_eq (h : s.map f = s'.map f) : s.alive = s'.alive := by
  funext i
  rw [← alive_map s f, h, alive_map]

theorem lock_of_map_eq (h : s.map f = s'.map f) : s.lock = s'.lock := by
  funext p
  rw [lock, lock, alive_of_map_eq h]

/-- Changes seen alike of an object keep it seen alike. -/
theorem get?_map_eq (h : s.map f = s'.map f) {i : ℕ} {g g' : α → α}
    (hg : ∀ a b, s.get? i = some a → s'.get? i = some b → f a = f b → f (g a) = f (g' b)) :
    ((s.get? i).map g).map f = ((s'.get? i).map g').map f := by
  cases hs : s.get? i with
  | some a =>
    obtain ⟨b, hb, hab⟩ := get?_of_map_eq h hs
    simp only [hb, Option.map_some, hg a b hs hb hab]
  | none =>
    cases hs' : s'.get? i with
    | none => rfl
    | some b =>
      obtain ⟨a, ha, -⟩ := get?_of_map_eq h.symm hs'
      rw [hs] at ha
      cases ha

theorem map_modify_eq (h : s.map f = s'.map f) {i : ℕ} {g g' : α → α}
    (hg : ∀ a b, s.get? i = some a → s'.get? i = some b → f a = f b → f (g a) = f (g' b)) :
    (s.modify i g).map f = (s'.modify i g').map f := by
  apply ext_get?
  · simpa using next_of_map_eq h
  · intro j
    have hj : (s.map f).get? j = (s'.map f).get? j := by rw [h]
    simp only [get?_map, get?_modify] at hj ⊢
    by_cases hji : j = i
    · subst hji
      rw [if_pos rfl, if_pos rfl, get?_map_eq h hg]
    · rw [if_neg hji, if_neg hji, hj]

theorem map_map (s : ObjectStore α) (f g : α → α) : (s.map g).map f = s.map (f ∘ g) := by
  simp [map]

/-- A change that cannot be seen. -/
theorem map_modify_self {i : ℕ} {g : α → α} (hg : ∀ a, s.get? i = some a → f (g a) = f a) :
    (s.modify i g).map f = s.map f := by
  apply ext_get?
  · simp
  · intro j
    simp only [get?_map, get?_modify]
    by_cases hji : j = i
    · subst hji
      cases hs : s.get? j with
      | none => simp
      | some a => simp [hg a hs]
    · rw [if_neg hji]

theorem map_map_eq (h : s.map f = s'.map f) {g g' : α → α}
    (hg : ∀ a b, f a = f b → f (g a) = f (g' b)) : (s.map g).map f = (s'.map g').map f := by
  apply ext_get?
  · simpa using next_of_map_eq h
  · intro j
    simp only [get?_map]
    exact get?_map_eq h fun a b _ _ => hg a b

end View

end ObjectStore
