import Mathlib.Data.List.Basic

/-!
# Procedures that write to a caller's buffer

A procedure reads and writes a buffer of its caller's and returns or throws; what it wrote before it
threw stays written. A caller may hand over an empty scratch buffer instead of its own, and append
what is in it when the procedure has returned. The procedure cannot be told from that one where it
only appends, and appends nothing before it throws.

## Main definitions

- `BufferM` — procedures with a buffer that return or throw
- `BufferM.throughScratch` — the procedure run on a scratch buffer
- `BufferM.Extends` — from the given content the procedure does what it does through scratch
- `BufferM.Appends`, `BufferM.Overwrites` — what is in the buffer stays, or has no influence
- `BufferCommand`, `BufferM.script` — procedures written as a list of commands
-/

universe u

/-- A procedure that works on a buffer of elements of `α` and returns a `β` or throws an `ε`. -/
abbrev BufferM (α ε β : Type u) := ExceptT ε (StateM (List α)) β

/-- What a script may do to the buffer, or throw. -/
inductive BufferCommand (α ε : Type u) where
  | append (xs : List α)
  | assign (xs : List α)
  | clear
  | throw (e : ε)

namespace BufferM

variable {α ε β γ : Type u} {p : BufferM α ε β} {f : β → BufferM α ε γ} {xs ys : List α} {b : β}
  {e : ε}

/-- Run the procedure on a buffer: how it ends, and what it leaves in the buffer. -/
def exec (p : BufferM α ε β) (buffer : List α) : Except ε β × List α :=
  Id.run ((ExceptT.run p).run buffer)

@[simp] theorem exec_pure (b : β) : (pure b : BufferM α ε β).exec xs = (.ok b, xs) := rfl

@[simp] theorem exec_throw (e : ε) : (throw e : BufferM α ε β).exec xs = (.error e, xs) := rfl

@[simp] theorem exec_get : (get : BufferM α ε (List α)).exec xs = (.ok xs, xs) := rfl

@[simp] theorem exec_set (ys : List α) : (set ys : BufferM α ε PUnit).exec xs = (.ok ⟨⟩, ys) := rfl

@[simp] theorem exec_modify (g : List α → List α) :
    (modify g : BufferM α ε PUnit).exec xs = (.ok ⟨⟩, g xs) := rfl

theorem exec_bind (p : BufferM α ε β) (f : β → BufferM α ε γ) (xs : List α) :
    (p >>= f).exec xs =
      match p.exec xs with
      | (.ok b, ys) => (f b).exec ys
      | (.error e, ys) => (.error e, ys) := by
  unfold exec ExceptT.run StateT.run Id.run
  simp only [bind, ExceptT.bind, ExceptT.mk, StateT.bind]
  rcases p xs with ⟨b | e, ys⟩ <;> rfl

theorem exec_map (g : β → γ) (p : BufferM α ε β) (xs : List α) :
    (g <$> p).exec xs = ((p.exec xs).1.map g, (p.exec xs).2) := by
  unfold exec ExceptT.run StateT.run Id.run
  simp only [Functor.map, ExceptT.map, ExceptT.mk, bind, StateT.bind]
  rcases p xs with ⟨b | e, ys⟩ <;> rfl

theorem exec_tryCatch (p : BufferM α ε β) (handler : ε → BufferM α ε β) (xs : List α) :
    (tryCatch p handler).exec xs =
      match p.exec xs with
      | (.ok b, ys) => (.ok b, ys)
      | (.error e, ys) => (handler e).exec ys := by
  unfold exec ExceptT.run StateT.run Id.run
  simp only [tryCatch, tryCatchThe, MonadExceptOf.tryCatch, ExceptT.tryCatch, ExceptT.mk, bind,
    StateT.bind]
  rcases p xs with ⟨b | e, ys⟩ <;> rfl

-- ════════════════════════════════════════════════════════════════════════
-- Through a scratch buffer
-- ════════════════════════════════════════════════════════════════════════

/-- Run the procedure on an empty buffer, and append what it leaves there if it returns. -/
def throughScratch (p : BufferM α ε β) : BufferM α ε β := do
  let prior ← get
  set ([] : List α)
  let b ← tryCatch p fun e => do
    set prior
    throw e
  modify (prior ++ ·)
  return b

/-- The elements a run from the empty buffer reports: what it leaves there, if it returns. -/
def reported (p : BufferM α ε β) : List α :=
  match p.exec [] with
  | (.ok _, ys) => ys
  | (.error _, _) => []

/-- From this content the procedure ends as it does from the empty buffer, and leaves the content
followed by what it reports. -/
def Extends (p : BufferM α ε β) (xs : List α) : Prop :=
  p.exec xs = ((p.exec []).1, xs ++ p.reported)

theorem reported_of_ok (h : p.exec [] = (.ok b, ys)) : p.reported = ys := by
  rw [reported, h]

theorem reported_of_error (h : p.exec [] = (.error e, ys)) : p.reported = [] := by
  rw [reported, h]

theorem exec_throughScratch (p : BufferM α ε β) (xs : List α) :
    p.throughScratch.exec xs = ((p.exec []).1, xs ++ p.reported) := by
  rcases h : p.exec [] with ⟨e | b, ys⟩
  · simp [throughScratch, exec_bind, exec_tryCatch, h, reported_of_error h]
  · simp [throughScratch, exec_bind, exec_tryCatch, exec_map, Except.map, h, reported_of_ok h]

/-- Procedures are equal when they do the same to every buffer. -/
theorem ext {p q : BufferM α ε β} (h : ∀ xs, p.exec xs = q.exec xs) : p = q := by
  funext xs
  exact h xs

/-- A procedure cannot be told from itself through scratch exactly when it extends every buffer. -/
theorem throughScratch_eq_iff : p.throughScratch = p ↔ ∀ xs, p.Extends xs := by
  constructor
  · intro h xs
    rw [Extends, ← exec_throughScratch, h]
  · intro h
    apply BufferM.ext
    intro xs
    rw [exec_throughScratch, h xs]

-- ════════════════════════════════════════════════════════════════════════
-- Appending and overwriting
-- ════════════════════════════════════════════════════════════════════════

/-- The procedure ends in the same way from every content, and leaves the content followed by what
it leaves of the empty buffer. -/
def Appends (p : BufferM α ε β) : Prop :=
  ∀ xs, p.exec xs = ((p.exec []).1, xs ++ (p.exec []).2)

/-- The content the procedure finds has no influence. -/
def Overwrites (p : BufferM α ε β) : Prop := ∀ xs, p.exec xs = p.exec []

theorem appends_pure (b : β) : Appends (pure b : BufferM α ε β) := by
  intro xs
  simp

theorem appends_throw (e : ε) : Appends (throw e : BufferM α ε β) := by
  intro xs
  simp

theorem appends_append (ys : List α) : Appends (modify (· ++ ys) : BufferM α ε PUnit) := by
  intro xs
  simp

theorem overwrites_set (ys : List α) : Overwrites (set ys : BufferM α ε PUnit) := by
  intro xs
  simp

theorem Appends.bind (hp : Appends p) (hf : ∀ b, Appends (f b)) : Appends (p >>= f) := by
  intro xs
  have hxs := hp xs
  rcases h : p.exec [] with ⟨e | b, ys⟩
  · rw [h] at hxs
    rw [exec_bind, exec_bind, hxs, h]
  · rw [h] at hxs
    rw [exec_bind, exec_bind, hxs, h]
    show (f b).exec (xs ++ ys) = (((f b).exec ys).1, xs ++ ((f b).exec ys).2)
    rw [hf b (xs ++ ys), hf b ys, List.append_assoc]

/-- What follows an overwriting procedure overwrites as well. -/
theorem Overwrites.bind (hp : Overwrites p) : Overwrites (p >>= f) := by
  intro xs
  rw [exec_bind, exec_bind, hp xs]

/-- An appending procedure extends every content if it returns, or appends nothing. -/
theorem Appends.extends_iff (hp : Appends p) :
    p.Extends xs ↔ (p.exec []).1.isOk = true ∨ (p.exec []).2 = [] := by
  rw [Extends, hp xs]
  rcases h : p.exec [] with ⟨e | b, ys⟩
  · simp [reported_of_error h, Except.isOk, Except.toBool]
  · simp [reported_of_ok h, Except.isOk, Except.toBool]

/-- An overwriting procedure extends only the empty buffer if it returns, and only the content it
puts there if it throws. -/
theorem Overwrites.extends_iff (hp : Overwrites p) :
    p.Extends xs ↔ if (p.exec []).1.isOk = true then xs = [] else xs = (p.exec []).2 := by
  rw [Extends, hp xs]
  rcases h : p.exec [] with ⟨e | b, ys⟩
  · simp [reported_of_error h, Except.isOk, Except.toBool, eq_comm]
  · simp [reported_of_ok h, Except.isOk, Except.toBool]

-- ════════════════════════════════════════════════════════════════════════
-- Scripts
-- ════════════════════════════════════════════════════════════════════════

/-- Perform the commands in order, and return `b`. -/
def script : List (BufferCommand α ε) → β → BufferM α ε β
  | [], b => pure b
  | .append xs :: commands, b => do
    modify (· ++ xs)
    script commands b
  | .assign xs :: commands, b => do
    set xs
    script commands b
  | .clear :: commands, b => do
    set ([] : List α)
    script commands b
  | .throw e :: _, _ => throw e

/-- A command that replaces the content is performed. -/
def replaces : List (BufferCommand α ε) → Bool
  | [] | .throw _ :: _ => false
  | .assign _ :: _ | .clear :: _ => true
  | .append _ :: commands => replaces commands

theorem script_appends_of_replaces {commands : List (BufferCommand α ε)}
    (h : replaces commands = false) : Appends (script commands b) := by
  induction commands with
  | nil => exact appends_pure b
  | cons command commands ih =>
    cases command with
    | append ys => exact (appends_append ys).bind fun _ => ih h
    | throw e => exact appends_throw e
    | assign | clear => cases h

theorem script_overwrites_of_replaces {commands : List (BufferCommand α ε)}
    (h : replaces commands = true) : Overwrites (script commands b) := by
  induction commands with
  | nil => cases h
  | cons command commands ih =>
    cases command with
    | append ys =>
      intro xs
      show (script commands b).exec (xs ++ ys) = (script commands b).exec ([] ++ ys)
      exact (ih h (xs ++ ys)).trans (ih h ([] ++ ys)).symm
    | throw => cases h
    | assign ys => exact (overwrites_set ys).bind
    | clear => exact (overwrites_set []).bind

/-- A script extends every content exactly when no command it performs replaces the content, and
it returns or appends nothing. -/
theorem script_extends_all_iff [Nonempty α] {commands : List (BufferCommand α ε)} :
    (∀ xs, (script commands b).Extends xs) ↔
      replaces commands = false ∧
        (((script commands b).exec []).1.isOk = true ∨ ((script commands b).exec []).2 = []) := by
  obtain ⟨a⟩ := ‹Nonempty α›
  cases hrep : replaces commands with
  | false =>
    have happ := script_appends_of_replaces (b := b) hrep
    constructor
    · intro h
      exact ⟨rfl, happ.extends_iff.mp (h [])⟩
    · rintro ⟨-, hend⟩ xs
      exact happ.extends_iff.mpr hend
  | true =>
    have hover := script_overwrites_of_replaces (b := b) hrep
    refine iff_of_false (fun h => ?_) (by simp)
    -- one element more than the script puts there is neither nothing nor what the script puts there
    have hend := hover.extends_iff.mp (h (((script commands b).exec []).2 ++ [a]))
    split at hend <;> simp at hend

end BufferM
