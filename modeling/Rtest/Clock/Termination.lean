import Rtest.Clock.CallbackCounts
import Rtest.Clock.PeriodCast
import Rtest.Clock.Rounds

/-!
# When an advance ends

The loop of `TriggeringTestClock.advance` steps by the shortest period among the node's timers.
The check of a period at creation lets zero pass, and with a timer of period zero the loop does not
move: it goes on until a write of the clock fails.

## Main definitions

- `AcceptedPeriod` — the check at the creation of a timer returns this period
-/

namespace Rtest

open TriggeringTestClock

/-- Some duration is cast to this period when a timer is created with it. -/
def AcceptedPeriod (rnd : ℚ → ℚ) (period : ℤ) : Prop :=
  ∃ k c, 1 ≤ k ∧ k ≤ nanosecondsMax ∧ safeCastToPeriodInNs rnd k c = .ok period

/-- The sign is checked last, so no period is negative. -/
theorem AcceptedPeriod.nonneg {rnd : ℚ → ℚ} {period : ℤ} (h : AcceptedPeriod rnd period) :
    0 ≤ period := by
  obtain ⟨k, c, -, -, hcast⟩ := h
  simp only [safeCastToPeriodInNs] at hcast
  split_ifs at hcast with hneg hlarge hsign
  rw [← Except.ok.inj hcast]
  omega

variable {env : Env} {timers : List TimerRef} {timeStep targetTime startPoint : ℤ} {s : Sim}
  {d : Duration}

/-- A write that fails ends the loop, if it comes to it. -/
theorem advanceLoop_of_failure {n : ℕ} (hfail : env.overrideOk (s.overrides + n) = false) :
    ∃ r, advanceLoop env timers timeStep targetTime (n + 1) startPoint s = some r := by
  induction n generalizing startPoint s with
  | zero =>
    by_cases hgoing : startPoint < targetTime
    · rw [advanceLoop_succ 0 hgoing, advanceRound_error_iff.mpr ⟨hfail, rfl, rfl⟩]
      exact ⟨_, rfl⟩
    · exact ⟨_, advanceLoop_of_le _ (by omega)⟩
  | succ n ih =>
    by_cases hgoing : startPoint < targetTime
    · rw [advanceLoop_succ _ hgoing]
      rcases hround : advanceRound env timers (min timeStep (targetTime - startPoint)) s with
        ⟨result, u⟩
      cases result with
      | error e => exact ⟨_, rfl⟩
      | ok _ =>
        obtain ⟨-, -, hoverrides⟩ := advanceRound_clock hround
        apply ih
        rw [hoverrides]
        rwa [Nat.add_right_comm, Nat.add_assoc]
    · exact ⟨_, advanceLoop_of_le _ (by omega)⟩

/-- The loop steps just if no timer of the node has period zero. -/
theorem minPeriod_pos_iff
    (hperiod : ∀ t ∈ s.findTimers, ∀ timer, s.timers.get? t = some timer → 0 ≤ timer.period) :
    1 ≤ getTimersMinPeriod s.findTimers s ↔
      ∀ t ∈ s.findTimers, ∀ timer, s.timers.get? t = some timer → timer.period ≠ 0 := by
  constructor
  · intro hmin t ht timer htimer
    have hle := getTimersMinPeriod_le ht htimer
    omega
  · intro hne
    apply getTimersMinPeriod_pos
    intro t ht timer htimer
    have h0 := hperiod t ht timer htimer
    have hzero := hne t ht timer htimer
    omega

/-- **When an advance ends.** On a node with timers whose periods the check at creation accepts,
`advance` ends exactly when its duration is not positive, or no timer has period zero, or a write
of the clock fails at last. -/
theorem advance_ends_iff {rnd : ℚ → ℚ} (hne : s.findTimers ≠ [])
    (haccepted : ∀ t ∈ s.findTimers, ∀ timer, s.timers.get? t = some timer →
      AcceptedPeriod rnd timer.period) :
    (∃ r, Ends env d s r) ↔
      d.nanoseconds ≤ 0 ∨
      (∀ t ∈ s.findTimers, ∀ timer, s.timers.get? t = some timer → timer.period ≠ 0) ∨
      ∃ i, s.overrides ≤ i ∧ env.overrideOk i = false := by
  have hperiod : ∀ t ∈ s.findTimers, ∀ timer, s.timers.get? t = some timer → 0 ≤ timer.period :=
    fun t ht timer htimer => (haccepted t ht timer htimer).nonneg
  have hloop : (∃ r, Ends env d s r) ↔ ∃ fuel r, advanceLoop env s.findTimers
      (getTimersMinPeriod s.findTimers s) d.nanoseconds fuel 0 (held s) = some r := by
    simp only [Ends, advanceWithin_of_ne hne, Option.map_eq_some_iff]
    constructor
    · rintro ⟨r, fuel, o, ho, -⟩
      exact ⟨fuel, o, ho⟩
    · rintro ⟨fuel, o, ho⟩
      exact ⟨_, fuel, o, ho, rfl⟩
  rw [hloop, ← minPeriod_pos_iff hperiod]
  constructor
  · rintro ⟨fuel, r, hr⟩
    by_contra hnot
    simp only [not_or, not_exists, not_and, Bool.not_eq_false] at hnot
    obtain ⟨hd, hstep, hok⟩ := hnot
    rw [@advanceLoop_stuck env s.findTimers _ _ 0 (held s) (by omega) hok (by omega)] at hr
    cases hr
  · rintro (hd | hstep | ⟨i, hi, hfail⟩)
    · exact ⟨0, _, advanceLoop_of_le 0 hd⟩
    · obtain ⟨r, hr⟩ := @advanceLoop_isSome env s.findTimers _ d.nanoseconds 0 (held s) hstep
        d.nanoseconds.toNat (by omega)
      exact ⟨_, r, hr⟩
    · obtain ⟨n, rfl⟩ := Nat.exists_eq_add_of_le hi
      exact ⟨_, advanceLoop_of_failure hfail⟩

theorem acceptedPeriod_of_le {period : ℤ} (h0 : 0 ≤ period)
    (hclear : period ≤ nanosecondsMax - 1 - 8192) :
    AcceptedPeriod (Rounding.roundNearest 53) period := by
  have hcast := @safeCastToPeriodInNs_of_le (Rounding.roundNearest 53) 1 period
    (Rounding.relError_roundNearest 53) (by decide) (by omega) (by omega)
  rw [mul_one] at hcast
  exact ⟨1, period, by decide, by decide, hcast⟩

theorem advance_ends_twoTimers :
    (∃ r, Ends plainEnv ⟨7, 1⟩ twoTimers r) ↔
      (⟨7, 1⟩ : Duration).nanoseconds ≤ 0 ∨
      (∀ t ∈ twoTimers.findTimers, ∀ timer, twoTimers.timers.get? t = some timer →
        timer.period ≠ 0) ∨
      ∃ i, twoTimers.overrides ≤ i ∧ plainEnv.overrideOk i = false :=
  @advance_ends_iff plainEnv twoTimers ⟨7, 1⟩ (Rounding.roundNearest 53) (by decide) (by
    intro t ht timer htimer
    rcases mem_twoTimers ht htimer with rfl | rfl <;>
      exact acceptedPeriod_of_le (by decide) (by decide))

/-- A node with one timer, of period zero. -/
def zeroPeriod : Sim where
  timers := ⟨[some ⟨.ros, 0, 0, false⟩]⟩
  registry := StaticMocksRegistry.empty.registerTimer 1 (some 0)
  node := 1
  rosTime := 0
  now := 0
  overrides := 0
  steadyReads := 0
  pinned := []
  released := []
  trace := []

/-- The check at creation accepts the timer, and an advance by a nanosecond never ends. -/
theorem zeroPeriod_never_ends : zeroPeriod.findTimers = [0] ∧
    (∀ t ∈ zeroPeriod.findTimers, ∀ timer, zeroPeriod.timers.get? t = some timer →
      AcceptedPeriod (Rounding.roundNearest 53) timer.period) ∧
    ¬ ∃ r, Ends plainEnv ⟨1, 1⟩ zeroPeriod r := by
  have hfind : zeroPeriod.findTimers = [0] := by decide
  refine ⟨hfind, fun t ht timer htimer => ?_, ?_⟩
  · rw [hfind, List.mem_singleton] at ht
    subst ht
    obtain rfl := Option.some.inj htimer
    exact acceptedPeriod_of_le (by decide) (by decide)
  · rintro ⟨r, fuel, hr⟩
    rw [@advanceWithin_stuck plainEnv zeroPeriod ⟨1, 1⟩ (fun _ => rfl) (by decide) (by decide)
      (by decide)] at hr
    cases hr

end Rtest
