import Rtest.Clock.CallbackCounts
import Rtest.Clock.Consistency
import Rtest.Clock.Rounds

/-!
# Writes of the clock that fail

`TestClock.advance` moves `now_` first and writes the node's clock afterwards. When the write fails
the call throws, and no callback of that step has run; but `now_` is ahead of the node's clock by
the step, and the next write that succeeds makes up for it.

## Main definitions

- `CleanFailure` — the exception leaves the clocks as the last write that succeeded left them
- `NoHarm` — no write of the call fails, or its steps are of zero nanoseconds
-/

namespace Rtest

open TriggeringTestClock

variable {env : Env} {s u v : Sim} {d : Duration}

/-- A write that failed from the state `v` ended in `r`: an exception, before any callback, with
`now()` at the value last written, so that a later advance of the plain clock moves the node's clock
by what it is asked for. -/
structure CleanFailure (env : Env) (v : Sim) (r : Outcome) : Prop where
  throws : r.1 = .error .advance
  callbacks : r.2.trace = v.trace
  written : r.2.rosTime = v.rosTime
  agree : r.2.now = v.rosTime
  later : ∀ e w, TestClock.advance env e r.2 = (.ok (), w) → w.rosTime = v.rosTime + e.nanoseconds

/-- Every failing write of `TestClock.advance` leaves the clocks consistent. -/
def PlainFailsCleanly (env : Env) (d : Duration) (s : Sim) : Prop :=
  env.overrideOk s.overrides = false → CleanFailure env s (TestClock.advance env d s)

/-- Every failing write of `TriggeringTestClock.advance` leaves the clocks consistent. -/
def FailsCleanly (env : Env) (d : Duration) (s : Sim) : Prop :=
  ∀ v step, Writes env d s v step → env.overrideOk v.overrides = false →
    ∃ r, Ends env d s r ∧ CleanFailure env v r

/-- The one write does not fail, or writes what the clock reads. -/
def PlainNoHarm (env : Env) (d : Duration) (s : Sim) : Prop :=
  env.overrideOk s.overrides = true ∨ d.nanoseconds = 0

/-- None of the writes the duration takes fails, or they are steps of zero nanoseconds. -/
def NoHarm (env : Env) (d : Duration) (s : Sim) : Prop :=
  if s.findTimers = [] then PlainNoHarm env d s
  else getTimersMinPeriod s.findTimers s = 0 ∨
    ∀ i : ℕ, i * getTimersMinPeriod s.findTimers s < d.nanoseconds →
      env.overrideOk (s.overrides + i) = true

/-- A failing write is consistent just if its step is of zero nanoseconds. -/
theorem cleanFailure_iff {step : ℤ} {r : Outcome} (hagree : v.Agree)
    (hthrows : r.1 = .error .advance) (htrace : r.2.trace = v.trace) (hros : r.2.rosTime = v.rosTime)
    (hnow : r.2.now = v.now + step) : CleanFailure env v r ↔ step = 0 := by
  have hstart : v.now = v.rosTime := hagree
  constructor
  · intro h
    have heq := h.agree
    omega
  · intro hzero
    refine ⟨hthrows, htrace, hros, by omega, fun e w hw => ?_⟩
    cases hok : env.overrideOk r.2.overrides with
    | true =>
      rw [TestClock.advance, TestClock.advanceNs_ok hok] at hw
      obtain rfl := (Prod.mk.inj hw).2
      show r.2.now + e.nanoseconds = v.rosTime + e.nanoseconds
      omega
    | false =>
      rw [TestClock.advance, TestClock.advanceNs_error hok] at hw
      cases (Prod.mk.inj hw).1

theorem plain_cleanFailure_iff (hagree : s.Agree) (hfail : env.overrideOk s.overrides = false) :
    CleanFailure env s (TestClock.advance env d s) ↔ d.nanoseconds = 0 := by
  rw [TestClock.advance, TestClock.advanceNs_error hfail]
  exact cleanFailure_iff hagree rfl rfl rfl rfl

/-- What a failed advance of the plain clock leaves. -/
theorem plainFailsCleanly_iff (hagree : s.Agree) :
    PlainFailsCleanly env d s ↔ PlainNoHarm env d s := by
  rw [PlainFailsCleanly, PlainNoHarm]
  cases hok : env.overrideOk s.overrides with
  | true => simp
  | false =>
    rw [plain_cleanFailure_iff hagree hok]
    simp

-- ════════════════════════════════════════════════════════════════════════
-- The writes of an advance, by number
-- ════════════════════════════════════════════════════════════════════════

/-- The loop comes to its `i`th write if the earlier ones succeed and the duration takes so many. -/
theorem atLoop_of_ok (hm : 0 ≤ getTimersMinPeriod s.findTimers s) {i : ℕ}
    (hok : ∀ j < i, env.overrideOk (s.overrides + j) = true)
    (hlt : i * getTimersMinPeriod s.findTimers s < d.nanoseconds) :
    ∃ v, AtLoop env d s (i * getTimersMinPeriod s.findTimers s) v ∧
      v.overrides = s.overrides + i := by
  induction i with
  | zero =>
    refine ⟨held s, ?_, rfl⟩
    rw [Nat.cast_zero, Int.zero_mul]
    exact .refl
  | succ i ih =>
    have hnext : ((i + 1 : ℕ) : ℤ) * getTimersMinPeriod s.findTimers s =
        i * getTimersMinPeriod s.findTimers s + getTimersMinPeriod s.findTimers s := by
      push_cast
      ring
    rw [hnext] at hlt ⊢
    obtain ⟨v, hreach, hindex⟩ := ih (fun j hj => hok j (by omega)) (by omega)
    have hwrite : env.overrideOk v.overrides = true := by
      rw [hindex]
      exact hok i (Nat.lt_succ_self i)
    obtain ⟨u, hround⟩ : ∃ u, advanceRound env s.findTimers
        (min (getTimersMinPeriod s.findTimers s)
          (d.nanoseconds - i * getTimersMinPeriod s.findTimers s)) v = (.ok (), u) :=
      ⟨_, advanceRound_ok_iff.mpr ⟨hwrite, rfl⟩⟩
    refine ⟨u, hreach.tail ⟨by simp only; omega, ?_, hround⟩, ?_⟩
    · simp only
      omega
    · rw [(advanceRound_clock hround).2.2, hindex]
      rfl

/-- Where the loop is at its `i`th write. -/
theorem TriggeringTestClock.AtLoop.index {start : ℤ} (h : AtLoop env d s start v)
    (hgoing : start < d.nanoseconds) :
    ∃ i : ℕ, v.overrides = s.overrides + i ∧ start = i * getTimersMinPeriod s.findTimers s ∧
      ∀ j < i, env.overrideOk (s.overrides + j) = true := by
  have hindex := h.induction (P := fun start v => ∃ i : ℕ, v.overrides = s.overrides + i ∧
    (start = i * getTimersMinPeriod s.findTimers s ∨ d.nanoseconds ≤ start) ∧
      ∀ j < i, env.overrideOk (s.overrides + j) = true)
    ⟨0, rfl, Or.inl (by simp), by simp⟩ ?_
  · obtain ⟨i, hi, hstart | hdone, hok⟩ := hindex
    · exact ⟨i, hi, hstart, hok⟩
    · omega
  · rintro start v u - hgoing hround ⟨i, hi, hstart | hdone, hok⟩
    · refine ⟨i + 1, ?_, ?_, fun j hj => ?_⟩
      · rw [(advanceRound_clock hround).2.2, hi]
        rfl
      · have hnext : ((i + 1 : ℕ) : ℤ) * getTimersMinPeriod s.findTimers s =
            i * getTimersMinPeriod s.findTimers s + getTimersMinPeriod s.findTimers s := by
          push_cast
          ring
        omega
      · rcases Nat.lt_succ_iff_lt_or_eq.mp hj with hlt | rfl
        · exact hok j hlt
        · rw [← hi]
          exact (advanceRound_ok_iff.mp hround).1
    · omega

/-- What a failing write of the loop leaves is consistent just if its step is zero. -/
theorem loop_cleanFailure_iff (hagree : s.Agree) (hne : s.findTimers ≠ []) {start : ℤ}
    (h : AtLoop env d s start v) (hgoing : start < d.nanoseconds)
    (hfail : env.overrideOk v.overrides = false) :
    (∃ r, Ends env d s r ∧ CleanFailure env v r) ↔
      min (getTimersMinPeriod s.findTimers s) (d.nanoseconds - start) = 0 := by
  obtain ⟨u, hends, htrace, hwritten, hmoved⟩ := ends_error hne h hgoing hfail
  have hv : v.Agree := by
    have hs : s.now = s.rosTime := hagree
    obtain ⟨hnow, ⟨hzero, -, hros⟩ | ⟨-, hros⟩⟩ := h.clock
    · show v.now = v.rosTime
      omega
    · exact hros.symm
  rw [← @cleanFailure_iff env v _ (.error .advance, u) hv rfl htrace hwritten hmoved]
  constructor
  · rintro ⟨r, hr, hclean⟩
    rw [hr.unique hends] at hclean
    exact hclean
  · exact fun hclean => ⟨_, hends, hclean⟩

/-- **When a failed write leaves the clocks consistent.** From clocks that agree, with any timers
and callbacks and any pattern of failing writes, an advance of either clock leaves a consistent
state at every failing write exactly when no write it takes fails, or its steps are of zero
nanoseconds. -/
theorem failed_write_iff (hagree : s.Agree)
    (hperiod : ∀ t ∈ s.findTimers, ∀ timer, s.timers.get? t = some timer → 0 ≤ timer.period) :
    (PlainFailsCleanly env d s ↔ PlainNoHarm env d s) ∧
      (FailsCleanly env d s ↔ NoHarm env d s) := by
  refine ⟨plainFailsCleanly_iff hagree, ?_⟩
  rw [FailsCleanly, NoHarm]
  split
  · next hempty =>
    rw [← plainFailsCleanly_iff hagree, PlainFailsCleanly]
    simp only [Writes, if_pos hempty, ends_of_empty hempty, exists_eq_left]
    constructor
    · exact fun h => h s d.nanoseconds ⟨rfl, rfl⟩
    · rintro h v step ⟨rfl, -⟩
      exact h
  · next hne =>
    have hm := le_getTimersMinPeriod (by decide) s.findTimers s hperiod
    simp only [Writes, if_neg hne]
    constructor
    · intro hclean
      by_cases hzero : getTimersMinPeriod s.findTimers s = 0
      · exact Or.inl hzero
      refine Or.inr fun i hi => ?_
      -- by strong induction the earlier writes succeed, so the loop comes to this one
      induction i using Nat.strong_induction_on with
      | _ i ih =>
        have hok : ∀ j < i, env.overrideOk (s.overrides + j) = true := by
          intro j hj
          apply ih j hj
          have hmul := mul_le_mul_of_nonneg_right (Int.ofNat_le.mpr hj.le) hm
          exact Int.lt_of_le_of_lt hmul hi
        obtain ⟨v, hreach, hindex⟩ := atLoop_of_ok hm hok hi
        rw [← hindex]
        by_contra hfail
        rw [Bool.not_eq_true] at hfail
        have hstep := (loop_cleanFailure_iff hagree hne hreach hi hfail).mp
          (hclean v _ ⟨_, hreach, hi, rfl⟩ hfail)
        omega
    · rintro hharm v step ⟨start, hreach, hgoing, -⟩ hfail
      rw [loop_cleanFailure_iff hagree hne hreach hgoing hfail]
      rcases hharm with hzero | hall
      · omega
      · obtain ⟨i, hi, hstart, -⟩ := hreach.index hgoing
        rw [hi, hall i (by omega)] at hfail
        cases hfail

/-- The third write of the node's clock fails. -/
def thirdFails : Env := { plainEnv with overrideOk := fun i => i ≠ 2 }

theorem failed_write_twoTimers :
    (PlainFailsCleanly thirdFails ⟨7, 1⟩ twoTimers ↔ PlainNoHarm thirdFails ⟨7, 1⟩ twoTimers) ∧
      (FailsCleanly thirdFails ⟨7, 1⟩ twoTimers ↔ NoHarm thirdFails ⟨7, 1⟩ twoTimers) :=
  failed_write_iff rfl (fun t ht timer htimer =>
    Int.le_trans (by decide) (simulated_twoTimers.period t ht timer htimer))

/-- The third step of an advance by seven nanoseconds fails: it throws, and `now()` is 17 where the
node's clock stands at 16; the next advance by five moves the node's clock by six. -/
theorem twoTimers_ahead :
    ∃ u, TriggeringTestClock.advance thirdFails ⟨7, 1⟩ twoTimers = some (.error .advance, u) ∧
      u.rosTime = 16 ∧ u.now = 17 ∧
      (TestClock.advance thirdFails ⟨5, 1⟩ u).1 = .ok () ∧
      (TestClock.advance thirdFails ⟨5, 1⟩ u).2.rosTime = 22 :=
  ⟨_, rfl, rfl, rfl, rfl, rfl⟩

end Rtest
