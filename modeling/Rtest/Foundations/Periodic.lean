import Mathlib.Data.Int.Order.Basic
import Mathlib.Data.Set.Card
import Mathlib.Tactic.Linarith
import Mathlib.Tactic.Ring

/-!
# Periodic events

Events fall at `n`, `n + p`, `n + 2 * p` and so on. `eventsUpTo n p t` is the number of those
that are not after `t`, and the count is pinned down by its neighbours.
-/

namespace Periodic

/-- The number of events at `n`, `n + p`, `n + 2 * p`, ... that are not after `t`. -/
def eventsUpTo (n p t : ℤ) : ℕ := ((t - n) / p + 1).toNat

variable {n p t : ℤ}

/-- The event `k` is counted exactly when it is not after `t`. -/
theorem lt_eventsUpTo_iff (hp : 0 < p) (k : ℕ) : k < eventsUpTo n p t ↔ n + k * p ≤ t := by
  have hdiv : (k : ℤ) ≤ (t - n) / p ↔ n + k * p ≤ t := by
    rw [Int.le_ediv_iff_mul_le hp]
    constructor
    · intro h
      linarith
    · intro h
      linarith
  rw [← hdiv, eventsUpTo]
  omega

theorem ncard_events (hp : 0 < p) : Set.ncard {k : ℕ | n + k * p ≤ t} = eventsUpTo n p t := by
  have hset : {k : ℕ | n + k * p ≤ t} = Finset.range (eventsUpTo n p t) := by
    ext k
    simp [lt_eventsUpTo_iff hp]
  rw [hset, Set.ncard_coe_finset, Finset.card_range]

/-- A count is right when the last event it counts is not after `t` and the next one is. -/
theorem eventsUpTo_eq (hp : 0 < p) {c : ℕ} (hnext : t < n + c * p)
    (hlast : ∀ k : ℕ, c = k + 1 → n + k * p ≤ t) : eventsUpTo n p t = c := by
  have hle : ¬ c < eventsUpTo n p t := by
    rw [lt_eventsUpTo_iff hp]
    omega
  cases c with
  | zero => omega
  | succ k =>
    have hk := (lt_eventsUpTo_iff hp k).mpr (hlast k rfl)
    omega

/-- The event after those counted is still to come. -/
theorem lt_after_eventsUpTo (hp : 0 < p) (n t : ℤ) : t < n + eventsUpTo n p t * p := by
  by_contra hle
  exact Nat.lt_irrefl _ ((lt_eventsUpTo_iff hp _).mpr (not_lt.mp hle))

/-- The events up to `t'` are those up to an earlier `t` and those that come after. -/
theorem eventsUpTo_split (hp : 0 < p) (n : ℤ) {t' : ℤ} (h : t ≤ t') :
    eventsUpTo n p t' = eventsUpTo n p t + eventsUpTo (n + eventsUpTo n p t * p) p t' := by
  have hafter := lt_after_eventsUpTo hp (n + eventsUpTo n p t * p) t'
  refine eventsUpTo_eq hp ?_ fun k hk => ?_
  · push_cast
    linarith
  · cases hsecond : eventsUpTo (n + eventsUpTo n p t * p) p t' with
    | zero =>
      have hlast := (lt_eventsUpTo_iff (n := n) (t := t) hp k).mp (by omega)
      omega
    | succ j =>
      have hlt : j < eventsUpTo (n + eventsUpTo n p t * p) p t' := by omega
      have hlast := (lt_eventsUpTo_iff hp j).mp hlt
      obtain rfl : k = eventsUpTo n p t + j := by omega
      push_cast
      linarith

/-- What counts from one period ahead of `t`. -/
theorem eventsUpTo_ahead (hp : 0 < p) {t' : ℤ} (h : t ≤ t') :
    (eventsUpTo (t + p) p t' : ℤ) = (t' - t) / p := by
  have hnonneg : 0 ≤ (t' - t) / p := Int.ediv_nonneg (by omega) hp.le
  have hdiv : (t' - (t + p)) / p + 1 = (t' - t) / p := by
    have hsub : t' - (t + p) = t' - t + -1 * p := by ring
    rw [hsub, Int.add_mul_ediv_right _ _ hp.ne']
    ring
  rw [eventsUpTo, hdiv, Int.toNat_of_nonneg hnonneg]

end Periodic
