import Mathlib.Order.Lattice
import Mathlib.Order.Monotone.Basic
import Mathlib.Data.List.Pairwise

/-!
# Spaced events

Events come in order of time, and each that is taken puts off the next: none is taken before the
time that is due after the last one. Taking every event as soon as it can be taken takes as many as
can be taken at all.

## Main definitions

- `Spacing.Spaced` — no event comes before it is due
- `Spacing.take` — take every event that is due

## Main results

- `Spacing.length_le_take` — nothing takes more
-/

namespace Spacing

variable {α τ : Type*} [LinearOrder τ] (time : α → τ) (due : τ → τ)

/-- Each event comes when it is due after the one before; `last` is the time of the one before the
first. -/
def Spaced (last : τ) : List α → Prop
  | [] => True
  | a :: as => due last ≤ time a ∧ Spaced (time a) as

/-- The events taken. -/
def take (last : τ) : List α → List α
  | [] => []
  | a :: as => if due last ≤ time a then a :: take (time a) as else take last as

variable {time due}

theorem take_sublist (last : τ) (as : List α) : (take time due last as).Sublist as := by
  induction as generalizing last with
  | nil => exact .slnil
  | cons a as ih =>
    rw [take]
    split
    · exact (ih (time a)).cons_cons a
    · exact (ih last).cons a

theorem spaced_take (last : τ) (as : List α) : Spaced time due last (take time due last as) := by
  induction as generalizing last with
  | nil => trivial
  | cons a as ih =>
    rw [take]
    split
    · next hdue => exact ⟨hdue, ih (time a)⟩
    · exact ih last

/-- **Nothing takes more**, from a time on that is not before `last`. The induction is on the
events; what is taken elsewhere lags behind. -/
theorem length_le_take (hdue : Monotone due) {as bs : List α}
    (hsorted : as.Pairwise fun a b => time a ≤ time b) (hsub : bs.Sublist as) {last last' : τ}
    (hlast : last ≤ last') (h : Spaced time due last' bs) :
    bs.length ≤ (take time due last as).length := by
  induction as generalizing bs last last' with
  | nil =>
    rw [List.sublist_nil.mp hsub]
    exact Nat.zero_le _
  | cons a as ih =>
    obtain ⟨hfirst, hrest⟩ := List.pairwise_cons.mp hsorted
    rw [take]
    cases hsub with
    | cons _ hsub =>
      split
      · -- `a` is taken here only
        cases bs with
        | nil => exact Nat.zero_le _
        | cons b bs =>
          have hb : time a ≤ time b := hfirst b (hsub.subset List.mem_cons_self)
          exact Nat.succ_le_succ (ih hrest (List.sublist_of_cons_sublist hsub) hb h.2)
      · exact ih hrest hsub hlast h
    | cons_cons _ hsub =>
      have ha : due last ≤ time a := le_trans (hdue hlast) h.1
      rw [if_pos ha]
      exact Nat.succ_le_succ (ih hrest hsub le_rfl h.2)

end Spacing
