import Rtest.Clock.CallbackCounts
import Rtest.Clock.Rounds

/-!
# The triggering clock against the plain one

With timers on its node, `TriggeringTestClock.advance` sums up steps; without any it hands its
duration to `TestClock.advance`. The sum comes to the duration where the loop runs, which it does
for a positive duration only.

## Main definitions

- `MovesAsPlain` — an advance moves the clocks to where the plain one would
-/

namespace Rtest

open TriggeringTestClock

variable {env : Env} {s : Sim} {d : Duration}

/-- An advance of the triggering clock ends, and normally if no write fails; it leaves the clocks
where the plain clock would, and writes nothing that is not between where it started and where it
was asked to go. -/
structure MovesAsPlain (env : Env) (d : Duration) (s : Sim) : Prop where
  ends : ∃ r, TriggeringTestClock.advance env d s = some r
  returns : (∀ i, env.overrideOk i = true) →
    ∃ u, TriggeringTestClock.advance env d s = some (.ok (), u)
  same : ∀ u, TriggeringTestClock.advance env d s = some (.ok (), u) →
    u.now = (TestClock.advance env d s).2.now ∧
      u.rosTime = (TestClock.advance env d s).2.rosTime
  between : ∀ v step, Writes env d s v step →
    min s.now (s.now + d.nanoseconds) ≤ v.now + step ∧
      v.now + step ≤ max s.now (s.now + d.nanoseconds)

/-- With timers of positive period, `advance` ends. -/
theorem advance_isSome (hperiod : 1 ≤ getTimersMinPeriod s.findTimers s) :
    ∃ r, TriggeringTestClock.advance env d s = some r := by
  by_cases hempty : s.findTimers = []
  · exact ⟨_, advanceWithin_of_empty hempty _⟩
  · obtain ⟨r, hr⟩ := @advanceLoop_isSome env s.findTimers _ d.nanoseconds 0 (held s) hperiod
      d.nanoseconds.toNat (by omega)
    refine ⟨(r.1, r.2.unpin), ?_⟩
    rw [TriggeringTestClock.advance, advanceWithin_of_ne hempty, hr]
    rfl

/-- With timers of positive period, `advance` is given fuel enough. -/
theorem advance_eq_some_iff (hperiod : 1 ≤ getTimersMinPeriod s.findTimers s) {r : Outcome} :
    TriggeringTestClock.advance env d s = some r ↔ Ends env d s r := by
  constructor
  · exact fun h => ⟨_, h⟩
  · intro h
    obtain ⟨r', hr'⟩ := @advance_isSome env s d hperiod
    rw [hr', h.unique ⟨_, hr'⟩]

/-- Where an advance over timers ends that comes to its target. -/
theorem ends_at_target (hne : s.findTimers ≠ []) {u : Sim} (h : Ends env d s (.ok (), u)) :
    (0 < d.nanoseconds → u.now = s.now + d.nanoseconds ∧ u.rosTime = s.now + d.nanoseconds) ∧
      (d.nanoseconds ≤ 0 → u.now = s.now ∧ u.rosTime = s.rosTime) := by
  constructor
  · intro hd
    obtain ⟨start, v, hreach, ⟨hdone, hr⟩ | ⟨hgoing, hfail⟩⟩ := h.rounds hne
    · obtain rfl : u = v.unpin := (Prod.mk.inj hr).2
      have hle := hreach.le hd.le
      obtain ⟨hnow, ⟨hzero, -, -⟩ | ⟨-, hros⟩⟩ := hreach.clock
      · omega
      · have hu : v.unpin.now = v.now ∧ v.unpin.rosTime = v.rosTime := ⟨rfl, rfl⟩
        omega
    · obtain ⟨_, herror, -⟩ := ends_error hne hreach hgoing hfail
      cases h.unique herror
  · intro hd
    have hstart : AtLoop env d s 0 (held s) := .refl
    cases h.unique (ends_ok hne hstart hd)
    exact ⟨rfl, rfl⟩

/-- No write of an advance over timers is outside the interval. -/
theorem writes_between (hne : s.findTimers ≠ [])
    (hperiod : 1 ≤ getTimersMinPeriod s.findTimers s) {v : Sim} {step : ℤ}
    (h : Writes env d s v step) :
    s.now < v.now + step ∧ v.now + step ≤ s.now + d.nanoseconds := by
  rw [Writes, if_neg hne] at h
  obtain ⟨start, hreach, hgoing, rfl⟩ := h
  have hnow := hreach.clock.1
  have hstart := hreach.nonneg (by omega)
  omega

/-- **When the triggering clock moves as the plain one.** With timers of positive period only, and
where the plain clock's write succeeds, an advance leaves the clocks where the plain clock would
exactly when the node has no timers, or the duration is positive, or it is zero and the clocks
agree already. -/
theorem moves_as_plain_iff (hok : env.overrideOk s.overrides = true)
    (hpositive : ∀ t ∈ s.findTimers, ∀ timer, s.timers.get? t = some timer → 1 ≤ timer.period) :
    MovesAsPlain env d s ↔
      s.findTimers = [] ∨ 0 < d.nanoseconds ∨ (d.nanoseconds = 0 ∧ s.now = s.rosTime) := by
  have hperiod := getTimersMinPeriod_pos s.findTimers s hpositive
  have hplain : (TestClock.advance env d s).1 = .ok () ∧
      (TestClock.advance env d s).2.now = s.now + d.nanoseconds ∧
      (TestClock.advance env d s).2.rosTime = s.now + d.nanoseconds := by
    rw [TestClock.advance, TestClock.advanceNs_ok hok]
    exact ⟨rfl, rfl, rfl⟩
  obtain ⟨hreturns, hnow, hros⟩ := hplain
  by_cases hempty : s.findTimers = []
  · have hadvance : TriggeringTestClock.advance env d s = some (TestClock.advance env d s) :=
      advanceWithin_of_empty hempty _
    refine iff_of_true ⟨⟨_, hadvance⟩, fun _ => ⟨(TestClock.advance env d s).2, ?_⟩, ?_, ?_⟩
      (Or.inl hempty)
    · rw [hadvance, ← hreturns]
    · intro u hu
      rw [hadvance, Option.some_inj] at hu
      rw [hu]
      exact ⟨rfl, rfl⟩
    · intro v step hwrites
      rw [Writes, if_pos hempty] at hwrites
      obtain ⟨rfl, rfl⟩ := hwrites
      omega
  · constructor
    · intro hmoves
      refine Or.inr ?_
      by_contra hnot
      obtain ⟨hd, hzero⟩ := not_or.mp hnot
      -- the loop does not run, and the clocks stay as they are
      have hstart : AtLoop env d s 0 (held s) := .refl
      have hends := (advance_eq_some_iff hperiod).mpr (ends_ok hempty hstart (by omega))
      obtain ⟨hnow', hros'⟩ := hmoves.same _ hends
      have hu : (held s).unpin.now = s.now ∧ (held s).unpin.rosTime = s.rosTime := ⟨rfl, rfl⟩
      exact hzero (by omega)
    · intro hcase
      refine ⟨advance_isSome hperiod, fun hall => ?_, fun u hu => ?_, fun v step hwrites => ?_⟩
      · obtain ⟨r, hr⟩ := @advance_isSome env s d hperiod
        obtain ⟨start, v, -, ⟨-, rfl⟩ | ⟨-, hfail⟩⟩ := Ends.rounds hempty ⟨_, hr⟩
        · exact ⟨_, hr⟩
        · rw [hall] at hfail
          cases hfail
      · obtain ⟨hpos, hzero⟩ := ends_at_target hempty ((advance_eq_some_iff hperiod).mp hu)
        rcases hcase with hnil | hd | ⟨hd, hagree⟩
        · exact absurd hnil hempty
        · have hclocks := hpos hd
          omega
        · have hclocks := hzero (by omega)
          omega
      · have hbetween := writes_between hempty hperiod hwrites
        omega

theorem moves_as_plain_twoTimers :
    MovesAsPlain plainEnv ⟨7, 1⟩ twoTimers ↔ twoTimers.findTimers = [] ∨
      0 < (⟨7, 1⟩ : Duration).nanoseconds ∨
      ((⟨7, 1⟩ : Duration).nanoseconds = 0 ∧ twoTimers.now = twoTimers.rosTime) :=
  moves_as_plain_iff rfl simulated_twoTimers.period

/-- Going back by four nanoseconds, the triggering clock returns and stays at 10 where the plain
one goes to 6. -/
theorem twoTimers_stays :
    (∃ u, TriggeringTestClock.advance plainEnv ⟨-4, 1⟩ twoTimers = some (.ok (), u) ∧
      u.now = 10 ∧ u.rosTime = 10) ∧
    (TestClock.advance plainEnv ⟨-4, 1⟩ twoTimers).1 = .ok () ∧
    (TestClock.advance plainEnv ⟨-4, 1⟩ twoTimers).2.now = 6 ∧
    (TestClock.advance plainEnv ⟨-4, 1⟩ twoTimers).2.rosTime = 6 := by
  have hstart : AtLoop plainEnv ⟨-4, 1⟩ twoTimers 0 (held twoTimers) := .refl
  have hperiod : 1 ≤ getTimersMinPeriod twoTimers.findTimers twoTimers := by decide
  have hends := (advance_eq_some_iff hperiod).mpr (ends_ok (by decide) hstart (by decide))
  exact ⟨⟨_, hends, rfl, rfl⟩, rfl, rfl, rfl⟩

end Rtest
