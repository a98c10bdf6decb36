import Rtest.Foundations.Periodic
import Mathlib.Data.List.Basic
import Mathlib.Data.List.Pairwise
import Mathlib.Tactic.Ring

/-!
# Agendas

The events of several sources in an interval of time, one after the other: by time, and those of one
time in the order the sources are listed. The agenda of an interval is that of its parts.

## Main definitions

- `Periodic.fallsAt` — a periodic event falls at a time
- `Periodic.agenda` — the events after `a` and not after `b`
-/

namespace Periodic

/-- One of the events `n`, `n + p`, `n + 2 * p`, ... falls at `x`. -/
def fallsAt (n p x : ℤ) : Bool := decide (n ≤ x) && decide ((x - n) % p = 0)

variable {n p x : ℤ}

theorem fallsAt_iff (hp : 0 < p) : fallsAt n p x = true ↔ ∃ k : ℕ, n + k * p = x := by
  simp only [fallsAt, Bool.and_eq_true, decide_eq_true_eq]
  constructor
  · rintro ⟨hle, hmod⟩
    obtain ⟨q, hq⟩ := Int.dvd_of_emod_eq_zero hmod
    have hq0 : 0 ≤ q := by
      by_contra hneg
      have hmul : p * q < 0 := mul_neg_of_pos_of_neg hp (not_le.mp hneg)
      omega
    obtain ⟨k, rfl⟩ := Int.eq_ofNat_of_zero_le hq0
    exact ⟨k, by rw [mul_comm]; omega⟩
  · rintro ⟨k, rfl⟩
    refine ⟨?_, by simp⟩
    have hmul : 0 ≤ k * p := mul_nonneg (Int.natCast_nonneg k) hp.le
    omega

/-- After the first event the later ones are the same. -/
theorem fallsAt_next (hp : 0 < p) (hx : n < x) : fallsAt (n + p) p x = fallsAt n p x := by
  rw [Bool.eq_iff_iff, fallsAt_iff hp, fallsAt_iff hp]
  constructor
  · rintro ⟨k, rfl⟩
    exact ⟨k + 1, by push_cast; ring⟩
  · rintro ⟨k, rfl⟩
    obtain ⟨j, rfl⟩ : ∃ j, k = j + 1 := by
      refine Nat.exists_eq_succ_of_ne_zero ?_
      rintro rfl
      simp at hx
    exact ⟨j, by push_cast; ring⟩

theorem fallsAt_self (n p : ℤ) : fallsAt n p n = true := by
  simp [fallsAt]

theorem le_of_fallsAt (h : fallsAt n p x = true) : n ≤ x := by
  simp only [fallsAt, Bool.and_eq_true, decide_eq_true_eq] at h
  exact h.1

/-- The multiple of `m` that comes after the multiple `a`. -/
theorem eq_add_of_emod {m a b : ℤ} (ha : a % m = 0) (hb : b % m = 0) (hlt : a < b)
    (hle : b ≤ a + m) : b = a + m := by
  have hdiff : (b - a) % m = 0 := by
    rw [Int.sub_emod, ha, hb]
    simp
  by_contra hne
  have hsmall : (b - a) % m = b - a := Int.emod_eq_of_lt (by omega) (by omega)
  omega

section Agenda

variable {ι : Type} (on : ι → ℤ → Bool) (l : List ι)

/-- The events of one time, in the order of the sources. -/
def eventsAt (x : ℤ) : List (ι × ℤ) := (l.filter fun i => on i x).map fun i => (i, x)

/-- The events after `a` and not after `b`. -/
def agenda (a b : ℤ) : List (ι × ℤ) :=
  (List.range (b - a).toNat).flatMap fun i : ℕ => eventsAt on l (a + 1 + i)

variable {on l} {a b c : ℤ}

theorem agenda_self (a : ℤ) : agenda on l a a = [] := by
  simp [agenda]

/-- The agenda of an interval is that of its two parts. -/
theorem agenda_append (hab : a ≤ b) (hbc : b ≤ c) :
    agenda on l a c = agenda on l a b ++ agenda on l b c := by
  have hlen : (c - a).toNat = (b - a).toNat + (c - b).toNat := by omega
  simp only [agenda, hlen, List.range_add, List.flatMap_append, List.flatMap_map]
  congr 2
  funext i
  congr 1
  omega

theorem agenda_succ (b : ℤ) : agenda on l b (b + 1) = eventsAt on l (b + 1) := by
  simp [agenda]

theorem agenda_eq_nil (h : ∀ i ∈ l, ∀ x, a < x → x ≤ b → on i x = false) :
    agenda on l a b = [] := by
  simp only [agenda, List.flatMap_eq_nil_iff, List.mem_range, eventsAt, List.map_eq_nil_iff,
    List.filter_eq_nil_iff]
  intro i hi j hj
  rw [h j hj _ (by omega) (by omega)]
  exact Bool.false_ne_true

/-- An interval with events at its end only. -/
theorem agenda_of_last (hab : a < b) (h : ∀ i ∈ l, ∀ x, a < x → x < b → on i x = false) :
    agenda on l a b = eventsAt on l b := by
  have hsplit := @agenda_append ι on l a (b - 1) b (by omega) (by omega)
  have hnone : agenda on l a (b - 1) = [] :=
    agenda_eq_nil fun i hi x hax hxb => h i hi x hax (by omega)
  have hlast := @agenda_succ ι on l (b - 1)
  rw [Int.sub_add_cancel] at hlast
  rw [hsplit, hnone, hlast, List.nil_append]

/-- Only what happens in the interval matters. -/
theorem agenda_congr {on' : ι → ℤ → Bool} (h : ∀ i ∈ l, ∀ x, a < x → on i x = on' i x) :
    agenda on l a b = agenda on' l a b := by
  simp only [agenda, eventsAt]
  congr 1
  funext i
  congr 1
  apply List.filter_congr
  intro j hj
  exact h j hj _ (by omega)

/-- An agenda is in order of time. -/
theorem agenda_pairwise (a b : ℤ) : (agenda on l a b).Pairwise fun e e' => e.2 ≤ e'.2 := by
  have htime : ∀ x, ∀ e ∈ eventsAt on l x, e.2 = x := by
    intro x e he
    obtain ⟨i, -, rfl⟩ := List.mem_map.mp he
    rfl
  rw [agenda, List.pairwise_flatMap]
  constructor
  · intro i _
    exact List.pairwise_of_forall_mem_list fun e he e' he' => by
      rw [htime _ e he, htime _ e' he']
  · refine List.pairwise_lt_range.imp ?_
    intro i j hij e he e' he'
    rw [htime _ e he, htime _ e' he']
    omega

end Agenda

end Periodic
