import Rtest.Foundations.Runs
import Rtest.Clock.RclTimer

/-!
# The test clocks

`TestClock` and `TriggeringTestClock`. A method ends normally or throws, and leaves the state it
reached either way; `TriggeringTestClock.advance` may also loop for ever, for which the model has
`none`. Times are integers: where the arithmetic of the code would overflow, its behaviour is
undefined.

## Main definitions

- `TestClock.advance`, `TestClock.resetClock`, `TriggeringTestClock.advance`
- `ClockOp`, `Sim.step`, `Sim.attempt` — the operations on a clock, as long as they return or end

## Main results

- `TriggeringTestClock.advanceLoop_rule` — a loop that steps by a nanosecond or more ends
- `TriggeringTestClock.advanceWithin_of_le` — `advance` is given fuel enough
- `TriggeringTestClock.advanceWithin_stuck` — with a period of zero no fuel is enough
-/

namespace Rtest

/-- A `std::chrono::duration`: `count` units of `unit` nanoseconds. -/
structure Duration where
  count : ℤ
  unit : ℕ
  deriving DecidableEq, Repr

/-- `std::chrono::duration_cast<std::chrono::nanoseconds>(d).count()`. -/
def Duration.nanoseconds (d : Duration) : ℤ := d.count * d.unit

/-- Why a method of a clock throws. -/
inductive ClockError where
  | invalidNodeInterface
  | simTimeNotSet
  | invalidBaseInterface
  | advance
  | resetClock
  deriving DecidableEq, Repr

/-- The exception's type and `what()`. -/
def ClockError.what : ClockError → String × String
  | invalidNodeInterface => ("std::invalid_argument", "TestClock - invalid node interface ptr")
  | simTimeNotSet => ("std::invalid_argument",
      "TestClock - The node must be set with use_sim_time = true")
  | invalidBaseInterface => ("std::invalid_argument",
      "TriggeringTestClock - invalid node base_interface ptr")
  | advance => ("std::runtime_error", "TestClock::advance() error")
  -- the text is that of another method in the source too
  | resetClock => ("std::runtime_error", "TestClock::advanceMs() error")

/-- A write of the node's clock that succeeds. -/
def Sim.overridden (env : Env) (tv : ℤ) (s : Sim) : Sim :=
  { s with
    overrides := s.overrides + 1
    rosTime := tv
    timers := s.timers.map fun t =>
      if t.clockType = .ros then env.rcl.timeJump s.rosTime tv t else t }

theorem Sim.setRosTimeOverride_ok {env : Env} {s : Sim} (h : env.overrideOk s.overrides = true)
    (tv : ℤ) : s.setRosTimeOverride env tv = (true, s.overridden env tv) := by
  rw [Sim.setRosTimeOverride, if_pos h]
  rfl

theorem Sim.setRosTimeOverride_error {env : Env} {s : Sim}
    (h : env.overrideOk s.overrides = false) (tv : ℤ) :
    s.setRosTimeOverride env tv = (false, { s with overrides := s.overrides + 1 }) := by
  rw [Sim.setRosTimeOverride, if_neg (Bool.eq_false_iff.mp h)]

/-- `TestClockNodeInterface`: which interfaces are there, and the parameter `use_sim_time`. -/
structure NodeInterfaces where
  parameters : Bool
  clock : Bool
  base : Bool
  useSimTime : Bool
  deriving DecidableEq, Repr

/-- How a method ended, and the state it left. -/
abbrev Outcome := Except ClockError Unit × Sim

variable (env : Env)

namespace TestClock

/-- `resetClock`: the node's clock is written, `now_` is not. -/
def resetClock (tv : ℤ) (s : Sim) : Outcome :=
  match s.setRosTimeOverride env tv with
  | (true, s) => (.ok (), s)
  | (false, s) => (.error .resetClock, s)

/-- The constructor; `now_` starts at zero. -/
def construct (iface : NodeInterfaces) (s : Sim) : Outcome :=
  if !iface.parameters || !iface.clock then (.error .invalidNodeInterface, s)
  else if !iface.useSimTime then (.error .simTimeNotSet, s)
  else resetClock env 0 { s with now := 0 }

/-- `advance`, once its duration is cast to nanoseconds. -/
def advanceNs (ns : ℤ) (s : Sim) : Outcome :=
  let s := { s with now := s.now + ns }
  match s.setRosTimeOverride env s.now with
  | (true, s) => (.ok (), s)
  | (false, s) => (.error .advance, s)

/-- `advance`. -/
def advance (d : Duration) (s : Sim) : Outcome := advanceNs env d.nanoseconds s

/-- `advanceMs`. -/
def advanceMs (milliseconds : ℤ) (s : Sim) : Outcome := advance env ⟨milliseconds, 1000000⟩ s

variable {env} {s : Sim}

theorem resetClock_ok (h : env.overrideOk s.overrides = true) (tv : ℤ) :
    resetClock env tv s = (.ok (), s.overridden env tv) := by
  rw [resetClock, Sim.setRosTimeOverride_ok h]

theorem advanceNs_ok (h : env.overrideOk s.overrides = true) (ns : ℤ) :
    advanceNs env ns s =
      (.ok (), { s with now := s.now + ns }.overridden env (s.now + ns)) := by
  have h : env.overrideOk { s with now := s.now + ns }.overrides = true := h
  simp only [advanceNs, Sim.setRosTimeOverride_ok h]

theorem resetClock_error (h : env.overrideOk s.overrides = false) (tv : ℤ) :
    resetClock env tv s = (.error .resetClock, { s with overrides := s.overrides + 1 }) := by
  rw [resetClock, Sim.setRosTimeOverride_error h]

theorem advanceNs_error (h : env.overrideOk s.overrides = false) (ns : ℤ) :
    advanceNs env ns s =
      (.error .advance, { s with now := s.now + ns, overrides := s.overrides + 1 }) := by
  have h : env.overrideOk { s with now := s.now + ns }.overrides = false := h
  simp only [advanceNs, Sim.setRosTimeOverride_error h]

theorem construct_ok {iface : NodeInterfaces} (h : env.overrideOk s.overrides = true)
    (hiface : (iface.parameters && iface.clock && iface.useSimTime) = true) :
    construct env iface s = (.ok (), { s with now := 0 }.overridden env 0) := by
  simp only [Bool.and_eq_true] at hiface
  obtain ⟨⟨hp, hc⟩, hu⟩ := hiface
  have h : env.overrideOk { s with now := 0 }.overrides = true := h
  simp only [construct, hp, hc, hu, Bool.not_true, Bool.or_self, Bool.false_eq_true, if_false,
    resetClock_ok h]

end TestClock

namespace TriggeringTestClock

/-- The constructor: the test clock's, and the node's handle. -/
def construct (iface : NodeInterfaces) (s : Sim) : Outcome :=
  match TestClock.construct env iface s with
  | (.error e, s) => (.error e, s)
  | (.ok (), s) => if !iface.base then (.error .invalidBaseInterface, s) else (.ok (), s)

/-- `std::numeric_limits<int64_t>::max()`. -/
def int64Max : ℤ := 9223372036854775807

/-- The body of the loop in `get_timers_min_period`; `rcl_timer_get_period` fails for no timer that
lives. -/
def minTimerPeriod (s : Sim) (minPeriod : ℤ) (t : TimerRef) : ℤ :=
  match s.timers.get? t with
  | some timer => min minPeriod timer.period
  | none => minPeriod

/-- `get_timers_min_period`. -/
def getTimersMinPeriod (timers : List TimerRef) (s : Sim) : ℤ :=
  timers.foldl (minTimerPeriod s) int64Max

/-- One round of the loop in `advance`: move the clock, then fire the callbacks that are due. -/
def advanceRound (timers : List TimerRef) (step : ℤ) (s : Sim) : Outcome :=
  match TestClock.advanceNs env step s with
  | (.error e, s) => (.error e, s)
  | (.ok (), s) => (.ok (), s.fireAllTimerCallbacks env timers)

/-- The `while` loop of `advance`, for at most `fuel` rounds. -/
def advanceLoop (timers : List TimerRef) (timeStep targetTime : ℤ) :
    ℕ → (startPoint : ℤ) → Sim → Option Outcome
  | 0, startPoint, s => if startPoint < targetTime then none else some (.ok (), s)
  | fuel + 1, startPoint, s =>
    if startPoint < targetTime then
      let step := min timeStep (targetTime - startPoint)
      match advanceRound env timers step s with
      | (.error e, s) => some (.error e, s)
      | (.ok (), s) => advanceLoop timers timeStep targetTime fuel (startPoint + step) s
    else some (.ok (), s)

/-- `advance`, looked at for at most `fuel` rounds of its loop. -/
def advanceWithin (fuel : ℕ) (d : Duration) (s : Sim) : Option Outcome :=
  let timers := s.findTimers
  if timers.isEmpty then some (TestClock.advance env d s)
  else
    let timeStep := getTimersMinPeriod timers s
    (advanceLoop env timers timeStep d.nanoseconds fuel 0
      { s with pinned := timers, released := [] }).map fun (outcome, s) => (outcome, s.unpin)

/-- `advance`. One round for each nanosecond is enough for a loop that steps at all. A loop that does
not, because of a period of zero, ends only with a write that fails; where that comes later this is
`none`, although the call ends. -/
def advance (d : Duration) (s : Sim) : Option Outcome :=
  advanceWithin env d.nanoseconds.toNat d s

def resetClock (tv : ℤ) (s : Sim) : Outcome := TestClock.resetClock env tv s

theorem construct_ok {iface : NodeInterfaces} {s : Sim} {env : Env}
    (h : env.overrideOk s.overrides = true)
    (hiface : (iface.parameters && iface.clock && iface.useSimTime) = true)
    (hbase : iface.base = true) :
    construct env iface s = (.ok (), { s with now := 0 }.overridden env 0) := by
  rw [construct, TestClock.construct_ok h hiface]
  simp only [hbase, Bool.not_true, Bool.false_eq_true, if_false]

section Loop

variable {env} {timers : List TimerRef} {timeStep targetTime startPoint : ℤ} {s : Sim}

theorem advanceLoop_of_le (fuel : ℕ) (h : targetTime ≤ startPoint) :
    advanceLoop env timers timeStep targetTime fuel startPoint s = some (.ok (), s) := by
  cases fuel <;> rw [advanceLoop, if_neg (by omega)]

theorem advanceLoop_succ (fuel : ℕ) (h : startPoint < targetTime) :
    advanceLoop env timers timeStep targetTime (fuel + 1) startPoint s =
      match advanceRound env timers (min timeStep (targetTime - startPoint)) s with
      | (.error e, s) => some (.error e, s)
      | (.ok (), s) => advanceLoop env timers timeStep targetTime fuel
          (startPoint + min timeStep (targetTime - startPoint)) s := by
  rw [advanceLoop, if_pos h]

/-- **Total correctness of the loop.** If it steps by a nanosecond or more, and a round that starts
with `P` at its starting point ends normally with `P` at the next, then given a round for each
nanosecond the loop ends, with `P` at the target. -/
theorem advanceLoop_rule {P : ℤ → Sim → Prop} (hstep : 1 ≤ timeStep)
    (hround : ∀ startPoint s, startPoint < targetTime → P startPoint s →
      ∃ s', advanceRound env timers (min timeStep (targetTime - startPoint)) s = (.ok (), s') ∧
        P (startPoint + min timeStep (targetTime - startPoint)) s')
    (fuel : ℕ) (hfuel : targetTime - startPoint ≤ fuel) (hle : startPoint ≤ targetTime)
    (h : P startPoint s) :
    ∃ s', advanceLoop env timers timeStep targetTime fuel startPoint s = some (.ok (), s') ∧
      P targetTime s' := by
  induction fuel generalizing startPoint s with
  | zero =>
    obtain rfl : startPoint = targetTime := by omega
    exact ⟨s, advanceLoop_of_le 0 (Int.le_refl _), h⟩
  | succ fuel ih =>
    by_cases hlt : startPoint < targetTime
    · obtain ⟨s', hs', h'⟩ := hround startPoint s hlt h
      obtain ⟨s'', hs'', h''⟩ := @ih
        (startPoint + min timeStep (targetTime - startPoint)) s' (by omega) (by omega) h'
      refine ⟨s'', ?_, h''⟩
      rw [advanceLoop_succ fuel hlt, hs']
      exact hs''
    · obtain rfl : startPoint = targetTime := by omega
      exact ⟨s, advanceLoop_of_le _ (Int.le_refl _), h⟩

/-- More fuel gives the same result. -/
theorem advanceLoop_mono {fuel : ℕ} {r : Outcome}
    (h : advanceLoop env timers timeStep targetTime fuel startPoint s = some r) (extra : ℕ) :
    advanceLoop env timers timeStep targetTime (fuel + extra) startPoint s = some r := by
  induction fuel generalizing startPoint s with
  | zero =>
    by_cases hlt : startPoint < targetTime
    · rw [advanceLoop, if_pos hlt] at h
      cases h
    · rw [advanceLoop_of_le _ (by omega)] at h ⊢
      exact h
  | succ fuel ih =>
    rw [Nat.add_right_comm]
    by_cases hlt : startPoint < targetTime
    · rw [advanceLoop_succ _ hlt] at h ⊢
      split at h
      · exact h
      · exact ih h
    · rw [advanceLoop_of_le _ (by omega)] at h ⊢
      exact h

/-- A loop that does not step goes on as long as no write fails: the induction is on the rounds it
is given. -/
theorem advanceLoop_stuck (hstep : timeStep ≤ 0)
    (hok : ∀ i, s.overrides ≤ i → env.overrideOk i = true) (hlt : startPoint < targetTime)
    (fuel : ℕ) : advanceLoop env timers timeStep targetTime fuel startPoint s = none := by
  induction fuel generalizing startPoint s with
  | zero => rw [advanceLoop, if_pos hlt]
  | succ fuel ih =>
    rw [advanceLoop_succ fuel hlt]
    simp only [advanceRound, TestClock.advanceNs_ok (hok _ (Nat.le_refl _))]
    refine ih (fun i hi => hok i ?_) (by omega)
    have hoverrides := (Sim.sameClock_fireAll env timers
      ({ s with now := s.now + min timeStep (targetTime - startPoint) }.overridden env
        (s.now + min timeStep (targetTime - startPoint)))).overrides
    rw [hoverrides] at hi
    exact Nat.le_of_succ_le hi

/-- A loop that steps by a nanosecond or more ends, given a round for each nanosecond. -/
theorem advanceLoop_isSome (hstep : 1 ≤ timeStep) (fuel : ℕ)
    (hfuel : targetTime - startPoint ≤ fuel) :
    ∃ r, advanceLoop env timers timeStep targetTime fuel startPoint s = some r := by
  induction fuel generalizing startPoint s with
  | zero => exact ⟨_, advanceLoop_of_le 0 (by omega)⟩
  | succ fuel ih =>
    by_cases hlt : startPoint < targetTime
    · rw [advanceLoop_succ fuel hlt]
      split
      · exact ⟨_, rfl⟩
      · apply ih
        omega
    · exact ⟨_, advanceLoop_of_le _ (by omega)⟩

end Loop

/-- What is no more than any of the periods is no more than the step. -/
theorem le_getTimersMinPeriod {b : ℤ} (hb : b ≤ int64Max) (timers : List TimerRef) (s : Sim)
    (h : ∀ t ∈ timers, ∀ timer, s.timers.get? t = some timer → b ≤ timer.period) :
    b ≤ getTimersMinPeriod timers s := by
  have hfold : ∀ (l : List TimerRef) (m : ℤ), (∀ t ∈ l, t ∈ timers) → b ≤ m →
      b ≤ l.foldl (minTimerPeriod s) m := by
    intro l
    induction l with
    | nil => exact fun m _ hm => hm
    | cons t l ih =>
      intro m hl hm
      refine ih _ (fun t' ht' => hl t' (List.mem_cons_of_mem t ht')) ?_
      simp only [minTimerPeriod]
      split
      · next timer htimer =>
        have hperiod := h t (hl t List.mem_cons_self) timer htimer
        omega
      · exact hm
  exact hfold timers int64Max (fun _ ht => ht) hb

theorem getTimersMinPeriod_pos (timers : List TimerRef) (s : Sim)
    (h : ∀ t ∈ timers, ∀ timer, s.timers.get? t = some timer → 1 ≤ timer.period) :
    1 ≤ getTimersMinPeriod timers s := le_getTimersMinPeriod (by decide) timers s h

/-- The step is no longer than the period of any timer. -/
theorem getTimersMinPeriod_le {timers : List TimerRef} {s : Sim} {t : TimerRef} {timer : Timer}
    (ht : t ∈ timers) (htimer : s.timers.get? t = some timer) :
    getTimersMinPeriod timers s ≤ timer.period := by
  have hdown : ∀ (l : List TimerRef) (m : ℤ), l.foldl (minTimerPeriod s) m ≤ m := by
    intro l
    induction l with
    | nil => exact fun m => Int.le_refl m
    | cons t' l ih =>
      intro m
      have hbody : minTimerPeriod s m t' ≤ m := by
        simp only [minTimerPeriod]
        split <;> omega
      exact Int.le_trans (ih _) hbody
  have hfold : ∀ (l : List TimerRef) (m : ℤ), t ∈ l →
      l.foldl (minTimerPeriod s) m ≤ timer.period := by
    intro l
    induction l with
    | nil => exact fun m h => absurd h List.not_mem_nil
    | cons t' l ih =>
      intro m hmem
      rcases List.mem_cons.mp hmem with rfl | hmem
      · have hbody : minTimerPeriod s m t ≤ timer.period := by
          simp only [minTimerPeriod, htimer]
          omega
        exact Int.le_trans (hdown l _) hbody
      · exact ih _ hmem
  exact hfold timers int64Max ht

/-- With timers of positive period, no amount of fuel beyond a round for each nanosecond changes
what `advance` ends in. -/
theorem advanceWithin_of_le {s : Sim} {d : Duration} {fuel : ℕ}
    (hperiod : 1 ≤ getTimersMinPeriod s.findTimers s) (hfuel : d.nanoseconds.toNat ≤ fuel) :
    advanceWithin env fuel d s = advance env d s := by
  simp only [advance, advanceWithin]
  split
  · rfl
  · obtain ⟨r, hr⟩ := @advanceLoop_isSome env s.findTimers _ d.nanoseconds 0
      { s with pinned := s.findTimers, released := [] } hperiod d.nanoseconds.toNat (by omega)
    have hmore := advanceLoop_mono hr (fuel - d.nanoseconds.toNat)
    rw [Nat.add_sub_cancel' hfuel] at hmore
    rw [hr, hmore]

/-- With a timer of period zero, `advance` does not end while the writes of the clock succeed. -/
theorem advanceWithin_stuck {s : Sim} {d : Duration} (hok : ∀ i, env.overrideOk i = true)
    (hne : s.findTimers ≠ []) (hperiod : getTimersMinPeriod s.findTimers s ≤ 0)
    (hd : 0 < d.nanoseconds) (fuel : ℕ) : advanceWithin env fuel d s = none := by
  have hempty : ¬ s.findTimers.isEmpty = true := by
    rw [List.isEmpty_iff]
    exact hne
  simp only [advanceWithin]
  rw [if_neg hempty, advanceLoop_stuck hperiod (fun i _ => hok i) hd]
  rfl

end TriggeringTestClock

/-- An operation on a test clock. -/
inductive ClockOp where
  | construct (iface : NodeInterfaces)
  | constructTriggering (iface : NodeInterfaces)
  | advance (d : Duration)
  | advanceMs (milliseconds : ℤ)
  | resetClock (tv : ℤ)
  | advanceTriggering (d : Duration)
  deriving DecidableEq, Repr

/-- What an operation ends in, if it ends. -/
def Sim.perform? (s : Sim) : ClockOp → Option Outcome
  | .construct iface => some (TestClock.construct env iface s)
  | .constructTriggering iface => some (TriggeringTestClock.construct env iface s)
  | .advance d => some (TestClock.advance env d s)
  | .advanceMs milliseconds => some (TestClock.advanceMs env milliseconds s)
  | .resetClock tv => some (TestClock.resetClock env tv s)
  | .advanceTriggering d => TriggeringTestClock.advance env d s

/-- The state an operation leaves if it ends, normally or with an exception. -/
def Sim.attempt (s : Sim) (op : ClockOp) : Option Sim := (s.perform? env op).map Prod.snd

/-- An operation that returns. -/
def Sim.step (s : Sim) (op : ClockOp) : Option Sim :=
  match s.perform? env op with
  | some (.ok (), s) => some s
  | _ => none

end Rtest
