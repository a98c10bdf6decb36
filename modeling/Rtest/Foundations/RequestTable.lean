import Mathlib.Data.List.Basic
import Mathlib.Data.List.Perm.Basic

/-!
# Requests on a table

A table keeps the requests sent and not settled yet, and each request has a future. A request is
settled once: by an answer, or without one when it is dropped from the table. A caller that sends
one request at a time, and drops it before the next, has the table to itself, whoever else answers
and drops requests.

## Main definitions

- `RequestTable` — what can be seen of a table
- `RequestTable.Sent`, `RequestTable.Settled` — what its operations do
- `RequestTable.Shows` — the table holds the request of one caller and no other

## Main results

- `RequestTable.Shows.sent`, `RequestTable.Shows.settled`, `RequestTable.Shows.forget` — it goes on
  to do so
-/

/-- What can be seen of a table in state `k`. -/
structure RequestTable (K I T R : Type*) where
  /-- The requests not settled, with the times they were sent at. -/
  pending : K → List (I × T)
  /-- What the future of a request yields, if it is settled. -/
  outcome : K → I → Option (Option R)

/-- A request waits since the time it was sent, or is settled, by an answer or without one. -/
inductive Standing (T R : Type*) where
  | waiting (since : T)
  | settled (answer : Option R)
  deriving DecidableEq, Repr

structure Request (I T R : Type*) where
  id : I
  standing : Standing T R
  deriving DecidableEq, Repr

namespace Request

variable {I T R : Type*}

/-- What a table holds of the request. -/
def pending (r : Request I T R) : List (I × T) :=
  match r.standing with
  | .waiting since => [(r.id, since)]
  | .settled _ => []

/-- What its future yields. -/
def outcome (r : Request I T R) : Option (Option R) :=
  match r.standing with
  | .waiting _ => none
  | .settled answer => some answer

/-- Settle the request, if it waits and is one of those meant. -/
def settle (p : I × T → Bool) (answer : Option R) (r : Request I T R) : Request I T R :=
  match r.standing with
  | .waiting since => if p (r.id, since) then { r with standing := .settled answer } else r
  | .settled _ => r

@[simp] theorem id_settle (p : I × T → Bool) (answer : Option R) (r : Request I T R) :
    (r.settle p answer).id = r.id := by
  simp only [settle]
  split
  · split <;> rfl
  · rfl

@[simp] theorem pending_settle (p : I × T → Bool) (answer : Option R) (r : Request I T R) :
    (r.settle p answer).pending = r.pending.filter fun it => !p it := by
  obtain ⟨id, standing⟩ := r
  cases standing with
  | waiting since => by_cases hp : p (id, since) = true <;> simp [settle, pending, hp]
  | settled answer' => rfl

end Request

namespace RequestTable

variable {K I T R : Type*}

/-- What is held of the request of a caller that may have none. -/
def held (current : Option (Request I T R)) : List (I × T) := (current.map Request.pending).getD []

variable (table : RequestTable K I T R)

/-- A request has been sent, under an id of its own. -/
structure Sent (k k' : K) (id : I) (since : T) : Prop where
  pending : (table.pending k').Perm ((id, since) :: table.pending k)
  outcome : table.outcome k' id = none

/-- The requests meant have been settled alike, and no others. -/
structure Settled (k k' : K) (p : I × T → Bool) (answer : Option R) : Prop where
  pending : table.pending k' = (table.pending k).filter fun it => !p it
  settled : ∀ it ∈ table.pending k, p it → table.outcome k' it.1 = some answer
  others : ∀ id, (∀ it ∈ table.pending k, it.1 = id → p it = false) →
    table.outcome k' id = table.outcome k id

/-- The table holds the request of one caller and no other, and its future stands as the request
does. -/
structure Shows (k : K) (current : Option (Request I T R)) : Prop where
  pending : table.pending k = held current
  outcome : ∀ r ∈ current, table.outcome k r.id = r.outcome

variable {table} {k k' : K} {current : Option (Request I T R)} {id : I} {since : T}
  {p : I × T → Bool} {answer : Option R}

theorem held_none : held (none : Option (Request I T R)) = [] := rfl

theorem shows_none (h : table.pending k = []) : table.Shows k none where
  pending := h
  outcome := by
    intro r hr
    cases hr

/-- A caller none of whose requests is held sends the next one. -/
theorem Shows.sent (h : table.Shows k current) (hheld : held current = [])
    (hsent : table.Sent k k' id since) : table.Shows k' (some ⟨id, .waiting since⟩) where
  pending := by
    have hperm := hsent.pending
    rw [h.pending, hheld] at hperm
    exact List.perm_singleton.mp hperm
  outcome := by
    intro r hr
    cases hr
    exact hsent.outcome

/-- **Whoever settles requests** settles that of the caller, if it is meant and still waits. -/
theorem Shows.settled (h : table.Shows k current) (hset : table.Settled k k' p answer) :
    table.Shows k' (current.map (Request.settle p answer)) where
  pending := by
    rw [hset.pending, h.pending]
    cases current with
    | none => rfl
    | some r => exact (Request.pending_settle p answer r).symm
  outcome := by
    intro r' hr'
    obtain ⟨r, rfl, rfl⟩ := Option.map_eq_some_iff.mp hr'
    have hpending : table.pending k = r.pending := h.pending
    have houtcome := h.outcome r rfl
    obtain ⟨id, standing⟩ := r
    rw [Request.id_settle]
    cases standing with
    | settled answer' =>
      -- a request that is settled is off the table, where nothing more happens to it
      rw [hset.others, houtcome]
      · rfl
      · rw [hpending]
        intro it hit
        cases hit
    | waiting since =>
      have hmem : (id, since) ∈ table.pending k := by
        rw [hpending]
        exact List.mem_singleton.mpr rfl
      by_cases hp : p (id, since) = true
      · rw [hset.settled _ hmem hp]
        simp [Request.settle, Request.outcome, hp]
      · rw [hset.others, houtcome]
        · simp [Request.settle, Request.outcome, hp]
        · rw [hpending]
          intro it hit _
          obtain rfl := List.mem_singleton.mp hit
          exact Bool.not_eq_true _ ▸ hp

/-- A request that is settled may be forgotten. -/
theorem Shows.forget (h : table.Shows k current) (hheld : held current = []) :
    table.Shows k none :=
  shows_none (h.pending.trans hheld)

end RequestTable
