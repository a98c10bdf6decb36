import Mathlib.Logic.Relation
import Rtest.Clock.TestClock

/-!
# The rounds of an advance

`TriggeringTestClock.advance` as the sequence of states its loop goes through: where each write of
the node's clock happens, and how the call ends. What holds before the first round and is kept by
every round holds at every write.

## Main definitions

- `TriggeringTestClock.Round` — one turn of the loop
- `TriggeringTestClock.AtLoop` — the loop comes to a starting point in a state
- `TriggeringTestClock.Writes` — the call writes the node's clock from a state, by a step
- `TriggeringTestClock.Ends` — what the call ends in
-/

namespace Rtest.TriggeringTestClock

variable (env : Env)

/-- One turn of the loop of `advance` that ends normally, from a starting point and a state to the
next. -/
structure Round (timers : List TimerRef) (timeStep targetTime : ℤ) (a b : ℤ × Sim) : Prop where
  going : a.1 < targetTime
  next : b.1 = a.1 + min timeStep (targetTime - a.1)
  ok : advanceRound env timers (min timeStep (targetTime - a.1)) a.2 = (.ok (), b.2)

/-- The state in which the loop of an `advance` starts: the timers found are held. -/
def held (s : Sim) : Sim := { s with pinned := s.findTimers, released := [] }

/-- The loop of `advance` comes to `startPoint` in the state `v`. -/
def AtLoop (d : Duration) (s : Sim) (startPoint : ℤ) (v : Sim) : Prop :=
  Relation.ReflTransGen
    (Round env s.findTimers (getTimersMinPeriod s.findTimers s) d.nanoseconds)
    (0, held s) (startPoint, v)

/-- `advance` moves the clock by `step` from the state `v`, or fails to. -/
def Writes (d : Duration) (s v : Sim) (step : ℤ) : Prop :=
  if s.findTimers = [] then v = s ∧ step = d.nanoseconds
  else ∃ startPoint, AtLoop env d s startPoint v ∧ startPoint < d.nanoseconds ∧
    step = min (getTimersMinPeriod s.findTimers s) (d.nanoseconds - startPoint)

/-- A round after its write, before the callbacks. -/
def written (v : Sim) (step : ℤ) : Sim :=
  { v with now := v.now + step }.overridden env (v.now + step)

/-- `advance` ends in `r`. -/
def Ends (d : Duration) (s : Sim) (r : Outcome) : Prop :=
  ∃ fuel, advanceWithin env fuel d s = some r

section Loop

variable {env} {timers : List TimerRef} {timeStep targetTime startPoint step : ℤ} {s u v : Sim}
  {d : Duration} {r : Outcome} {e : ClockError}

theorem advanceRound_ok_iff : advanceRound env timers step s = (.ok (), u) ↔
    env.overrideOk s.overrides = true ∧
      u = (written env s step).fireAllTimerCallbacks env timers := by
  cases hok : env.overrideOk s.overrides with
  | true =>
    simp only [advanceRound, TestClock.advanceNs_ok hok, Prod.mk.injEq, true_and]
    exact eq_comm
  | false => simp [advanceRound, TestClock.advanceNs_error hok]

theorem advanceRound_error_iff : advanceRound env timers step s = (.error e, u) ↔
    env.overrideOk s.overrides = false ∧ e = .advance ∧
      u = { s with now := s.now + step, overrides := s.overrides + 1 } := by
  cases hok : env.overrideOk s.overrides with
  | true => simp [advanceRound, TestClock.advanceNs_ok hok]
  | false =>
    simp only [advanceRound, TestClock.advanceNs_error hok, Prod.mk.injEq, Except.error.injEq,
      true_and]
    constructor
    · rintro ⟨rfl, rfl⟩
      exact ⟨rfl, rfl⟩
    · rintro ⟨rfl, rfl⟩
      exact ⟨rfl, rfl⟩

/-- A round whose write succeeds moves both clocks by its step. -/
theorem advanceRound_clock (h : advanceRound env timers step s = (.ok (), u)) :
    u.now = s.now + step ∧ u.rosTime = s.now + step ∧ u.overrides = s.overrides + 1 := by
  obtain ⟨-, rfl⟩ := advanceRound_ok_iff.mp h
  have hsame := Sim.sameClock_fireAll env timers (written env s step)
  exact ⟨hsame.now, hsame.rosTime, hsame.overrides⟩

/-- The loop goes through rounds, until it is done or a write fails. -/
theorem rounds_of_advanceLoop {fuel : ℕ}
    (h : advanceLoop env timers timeStep targetTime fuel startPoint s = some r) :
    ∃ b v, Relation.ReflTransGen (Round env timers timeStep targetTime) (startPoint, s) (b, v) ∧
      ((targetTime ≤ b ∧ r = (.ok (), v)) ∨
        (b < targetTime ∧ ∃ e u, r = (.error e, u) ∧
          advanceRound env timers (min timeStep (targetTime - b)) v = (.error e, u))) := by
  induction fuel generalizing startPoint s with
  | zero =>
    rw [advanceLoop] at h
    split at h
    · cases h
    · next hdone => exact ⟨startPoint, s, .refl, Or.inl ⟨by omega, (Option.some.inj h).symm⟩⟩
  | succ fuel ih =>
    by_cases hgoing : startPoint < targetTime
    · rw [advanceLoop_succ fuel hgoing] at h
      rcases hround : advanceRound env timers (min timeStep (targetTime - startPoint)) s with
        ⟨result, s'⟩
      rw [hround] at h
      cases result with
      | error e =>
        exact ⟨startPoint, s, .refl, Or.inr ⟨hgoing, e, s', (Option.some.inj h).symm, hround⟩⟩
      | ok _ =>
        obtain ⟨b, v, hreach, hend⟩ := ih h
        exact ⟨b, v, .head ⟨hgoing, rfl, hround⟩ hreach, hend⟩
    · rw [advanceLoop_of_le _ (by omega)] at h
      exact ⟨startPoint, s, .refl, Or.inl ⟨by omega, (Option.some.inj h).symm⟩⟩

/-- What the loop ends in from where its rounds lead to, it ends in from the start. -/
theorem advanceLoop_of_rounds {a b : ℤ × Sim}
    (h : Relation.ReflTransGen (Round env timers timeStep targetTime) a b)
    (hb : ∃ fuel, advanceLoop env timers timeStep targetTime fuel b.1 b.2 = some r) :
    ∃ fuel, advanceLoop env timers timeStep targetTime fuel a.1 a.2 = some r := by
  induction h using Relation.ReflTransGen.head_induction_on with
  | refl => exact hb
  | head hround _ ih =>
    obtain ⟨fuel, hfuel⟩ := ih
    refine ⟨fuel + 1, ?_⟩
    rw [advanceLoop_succ fuel hround.going, hround.ok, ← hround.next]
    exact hfuel

theorem advanceWithin_of_empty (h : s.findTimers = []) (fuel : ℕ) :
    advanceWithin env fuel d s = some (TestClock.advance env d s) := by
  simp [advanceWithin, h]

theorem advanceWithin_of_ne (h : s.findTimers ≠ []) (fuel : ℕ) :
    advanceWithin env fuel d s =
      (advanceLoop env s.findTimers (getTimersMinPeriod s.findTimers s) d.nanoseconds fuel 0
        (held s)).map fun r => (r.1, r.2.unpin) := by
  have hempty : ¬ s.findTimers.isEmpty = true := by
    rw [List.isEmpty_iff]
    exact h
  simp only [advanceWithin, if_neg hempty, held]

/-- Short of its target, the loop writes the clock. -/
theorem AtLoop.writes (h : AtLoop env d s startPoint v) (hne : s.findTimers ≠ [])
    (hgoing : startPoint < d.nanoseconds) :
    Writes env d s v (min (getTimersMinPeriod s.findTimers s) (d.nanoseconds - startPoint)) := by
  rw [Writes, if_neg hne]
  exact ⟨startPoint, h, hgoing, rfl⟩

theorem ends_of_empty (h : s.findTimers = []) :
    Ends env d s r ↔ r = TestClock.advance env d s := by
  simp only [Ends, advanceWithin_of_empty h, Option.some.injEq, exists_const]
  exact eq_comm

/-- An `advance` ends in one way only. -/
theorem Ends.unique {r' : Outcome} (h : Ends env d s r) (h' : Ends env d s r') : r = r' := by
  by_cases hempty : s.findTimers = []
  · rw [(ends_of_empty hempty).mp h, (ends_of_empty hempty).mp h']
  · obtain ⟨fuel, hfuel⟩ := h
    obtain ⟨fuel', hfuel'⟩ := h'
    rw [advanceWithin_of_ne hempty] at hfuel hfuel'
    obtain ⟨o, ho, rfl⟩ := Option.map_eq_some_iff.mp hfuel
    obtain ⟨o', ho', rfl⟩ := Option.map_eq_some_iff.mp hfuel'
    have hmono := advanceLoop_mono ho fuel'
    have hmono' := advanceLoop_mono ho' fuel
    rw [Nat.add_comm, hmono] at hmono'
    obtain rfl := Option.some.inj hmono'
    rfl

/-- How an `advance` ends whose loop comes to its target. -/
theorem ends_ok (hne : s.findTimers ≠ []) (h : AtLoop env d s startPoint v)
    (hdone : d.nanoseconds ≤ startPoint) : Ends env d s (.ok (), v.unpin) := by
  obtain ⟨fuel, hfuel⟩ := advanceLoop_of_rounds h ⟨0, advanceLoop_of_le 0 hdone⟩
  exact ⟨fuel, by rw [advanceWithin_of_ne hne, hfuel]; rfl⟩

/-- How an `advance` ends when a write fails: before any callback of that round, with `now_` moved
on and the node's clock not. -/
theorem ends_error (hne : s.findTimers ≠ []) (h : AtLoop env d s startPoint v)
    (hgoing : startPoint < d.nanoseconds) (hfail : env.overrideOk v.overrides = false) :
    ∃ u, Ends env d s (.error .advance, u) ∧ u.trace = v.trace ∧ u.rosTime = v.rosTime ∧
      u.now = v.now + min (getTimersMinPeriod s.findTimers s) (d.nanoseconds - startPoint) := by
  obtain ⟨u, hround⟩ : ∃ u, advanceRound env s.findTimers
      (min (getTimersMinPeriod s.findTimers s) (d.nanoseconds - startPoint)) v =
        (.error .advance, u) := ⟨_, advanceRound_error_iff.mpr ⟨hfail, rfl, rfl⟩⟩
  have hloop : advanceLoop env s.findTimers (getTimersMinPeriod s.findTimers s) d.nanoseconds 1
      startPoint v = some (.error .advance, u) := by
    rw [advanceLoop_succ 0 hgoing, hround]
  obtain ⟨fuel, hfuel⟩ := advanceLoop_of_rounds h ⟨1, hloop⟩
  refine ⟨u.unpin, ⟨fuel, by rw [advanceWithin_of_ne hne, hfuel]; rfl⟩, ?_⟩
  obtain ⟨-, -, rfl⟩ := advanceRound_error_iff.mp hround
  exact ⟨rfl, rfl, rfl⟩

/-- An `advance` over timers that ends has come to its target, or to a write that fails. -/
theorem Ends.rounds (hne : s.findTimers ≠ []) (h : Ends env d s r) :
    ∃ startPoint v, AtLoop env d s startPoint v ∧
      ((d.nanoseconds ≤ startPoint ∧ r = (.ok (), v.unpin)) ∨
        (startPoint < d.nanoseconds ∧ env.overrideOk v.overrides = false)) := by
  obtain ⟨fuel, hfuel⟩ := h
  rw [advanceWithin_of_ne hne] at hfuel
  obtain ⟨o, ho, rfl⟩ := Option.map_eq_some_iff.mp hfuel
  obtain ⟨b, v, hreach, ⟨hdone, rfl⟩ | ⟨hgoing, e, u, -, hround⟩⟩ := rounds_of_advanceLoop ho
  · exact ⟨b, v, hreach, Or.inl ⟨hdone, rfl⟩⟩
  · exact ⟨b, v, hreach, Or.inr ⟨hgoing, (advanceRound_error_iff.mp hround).1⟩⟩

/-- **Induction over the rounds of an `advance`.** -/
theorem AtLoop.induction {P : ℤ → Sim → Prop} (h : AtLoop env d s startPoint v)
    (hstart : P 0 (held s))
    (hround : ∀ start v u, AtLoop env d s start v → start < d.nanoseconds →
      advanceRound env s.findTimers
        (min (getTimersMinPeriod s.findTimers s) (d.nanoseconds - start)) v = (.ok (), u) →
      P start v →
      P (start + min (getTimersMinPeriod s.findTimers s) (d.nanoseconds - start)) u) :
    P startPoint v := by
  have hpair : ∀ b : ℤ × Sim, Relation.ReflTransGen
      (Round env s.findTimers (getTimersMinPeriod s.findTimers s) d.nanoseconds) (0, held s) b →
      P b.1 b.2 := by
    intro b hb
    induction hb with
    | refl => exact hstart
    | tail hreach hlast ih =>
      rw [hlast.next]
      exact hround _ _ _ hreach hlast.going hlast.ok ih
  exact hpair _ h

/-- The clocks where a round starts: before the first the node's clock is as it was, after it the
clocks agree. -/
theorem AtLoop.clock (h : AtLoop env d s startPoint v) : v.now = s.now + startPoint ∧
    ((startPoint = 0 ∧ v.overrides = s.overrides ∧ v.rosTime = s.rosTime) ∨
      (s.overrides < v.overrides ∧ v.rosTime = v.now)) := by
  refine h.induction (P := fun start v => v.now = s.now + start ∧
      ((start = 0 ∧ v.overrides = s.overrides ∧ v.rosTime = s.rosTime) ∨
        (s.overrides < v.overrides ∧ v.rosTime = v.now)))
    ⟨(Int.add_zero _).symm, Or.inl ⟨rfl, rfl, rfl⟩⟩ ?_
  rintro start v u - - hround ⟨hnow, hclock⟩
  obtain ⟨hnow', hros', hoverrides⟩ := advanceRound_clock hround
  refine ⟨by omega, Or.inr ⟨?_, by omega⟩⟩
  rcases hclock with ⟨-, heq, -⟩ | ⟨hlt, -⟩ <;> omega

/-- No round steps past the target. -/
theorem AtLoop.le (h : AtLoop env d s startPoint v) (hd : 0 ≤ d.nanoseconds) :
    startPoint ≤ d.nanoseconds := by
  refine h.induction (P := fun start _ => start ≤ d.nanoseconds) hd ?_
  intro start v u _ hgoing _ _
  omega

/-- Where the steps do not go back, neither do the starting points. -/
theorem AtLoop.nonneg (h : AtLoop env d s startPoint v)
    (hstep : 0 ≤ getTimersMinPeriod s.findTimers s) : 0 ≤ startPoint := by
  refine h.induction (P := fun start _ => 0 ≤ start) (Int.le_refl 0) ?_
  intro start v u _ hgoing _ hstart
  omega

end Loop

end Rtest.TriggeringTestClock
