import Mathlib.Tactic.Linarith
import Mathlib.Tactic.Ring
import Rtest.Registry.StaticMocksRegistry

/-!
# Timers of a node under a test clock

The timers `create_timer` and `create_wall_timer` make, the clocks they read, and what happens when
one is asked whether it is ready and called. The functions of rcl are not part of the repository:
they are fields of `Rcl`, and `TimerRules` states what is relied on of them.

## Main definitions

- `Rcl`, `TimerRules` — the rcl functions and their rules
- `Env` — rcl, the steady clock, the outcome of clock writes, and what callbacks do
- `Sim` — a node's timers, the node's clock and the test clock's own reading
- `Sim.fireAllTimerCallbacks` — one pass over a list of timers
-/

namespace Rtest

/-- `RCL_ROS_TIME` for `create_timer`, `RCL_STEADY_TIME` for `create_wall_timer`. -/
inductive ClockType where
  | ros
  | steady
  deriving DecidableEq, Repr

/-- A timer as rcl keeps it; times and the period are in nanoseconds. -/
structure Timer where
  clockType : ClockType
  period : ℤ
  nextCall : ℤ
  canceled : Bool
  deriving DecidableEq, Repr

/-- The functions of rcl a timer goes through. A time argument is the reading of the timer's own
clock; `timeJump before after` is what a change of the ROS clock does to a timer of that clock. -/
structure Rcl where
  timerInit : ClockType → (period now : ℤ) → (autostart : Bool) → Timer
  timerIsReady : Timer → (now : ℤ) → Bool
  timerCall : Timer → (now : ℤ) → Option Timer
  timerCancel : Timer → Timer
  timerReset : Timer → (now : ℤ) → Timer
  timeJump : (before after : ℤ) → Timer → Timer

/-- The documented behaviour of these functions. -/
structure TimerRules (rcl : Rcl) : Prop where
  init : ∀ c p now autostart, rcl.timerInit c p now autostart = ⟨c, p, now + p, !autostart⟩
  ready : ∀ t now, rcl.timerIsReady t now = true ↔ t.canceled = false ∧ t.nextCall ≤ now
  callCanceled : ∀ t now, t.canceled = true → rcl.timerCall t now = none
  /-- A call moves the due time on by one period, and from there by whole periods to the first
  one not in the past. -/
  call : ∀ t now, t.canceled = false → 0 < t.period → ∃ k : ℕ,
    rcl.timerCall t now = some { t with nextCall := t.nextCall + (k + 1) * t.period } ∧
      now ≤ t.nextCall + (k + 1) * t.period ∧ (k ≠ 0 → t.nextCall + k * t.period < now)
  callKeeps : ∀ t now t', rcl.timerCall t now = some t' →
    t'.clockType = t.clockType ∧ t'.period = t.period ∧ t'.canceled = t.canceled
  cancel : ∀ t, rcl.timerCancel t = { t with canceled := true }
  reset : ∀ t now, rcl.timerReset t now = { t with nextCall := now + t.period, canceled := false }
  jumpForward : ∀ before after t, before ≤ after → rcl.timeJump before after t = t
  jumpKeeps : ∀ before after t, (rcl.timeJump before after t).clockType = t.clockType ∧
    (rcl.timeJump before after t).period = t.period ∧
    (rcl.timeJump before after t).canceled = t.canceled

/-- Functions that follow the rules. -/
def referenceRcl : Rcl where
  timerInit c period now autostart := ⟨c, period, now + period, !autostart⟩
  timerIsReady t now := !t.canceled && t.nextCall ≤ now
  timerCall t now :=
    if t.canceled then none
    else
      let next := t.nextCall + t.period
      let ahead := if next < now then 1 + (now - next - 1) / t.period else 0
      some { t with nextCall := next + ahead * t.period }
  timerCancel t := { t with canceled := true }
  timerReset t now := { t with nextCall := now + t.period, canceled := false }
  timeJump before after t :=
    if before ≤ after then t else { t with nextCall := after + t.period }

theorem timerRules_referenceRcl : TimerRules referenceRcl where
  init := fun _ _ _ _ => rfl
  ready := by
    intro t now
    simp [referenceRcl]
  callCanceled := by
    intro t now h
    simp [referenceRcl, h]
  call := by
    intro t now hc hp
    by_cases hnext : t.nextCall + t.period < now
    · have hq : 0 ≤ (now - (t.nextCall + t.period) - 1) / t.period :=
        Int.ediv_nonneg (by omega) hp.le
      have hlo := Int.ediv_mul_le (now - (t.nextCall + t.period) - 1) hp.ne'
      have hhi := Int.lt_ediv_add_one_mul_self (now - (t.nextCall + t.period) - 1) hp
      refine ⟨(1 + (now - (t.nextCall + t.period) - 1) / t.period).toNat, ?_, ?_, fun _ => ?_⟩
      · simp only [referenceRcl, hc, hnext, if_true, Bool.false_eq_true, if_false]
        congr 2
        rw [Int.toNat_of_nonneg (by omega)]
        ring
      · rw [Int.toNat_of_nonneg (by omega)]
        linarith
      · rw [Int.toNat_of_nonneg (by omega)]
        linarith
    · refine ⟨0, ?_, ?_, fun h => absurd rfl h⟩
      · simp [referenceRcl, hc, hnext]
      · simp only [Nat.cast_zero]
        omega
  callKeeps := by
    intro t now t' h
    simp only [referenceRcl] at h
    split at h
    · cases h
    · cases h
      exact ⟨rfl, rfl, rfl⟩
  cancel := fun _ => rfl
  reset := fun _ _ => rfl
  jumpForward := by
    intro before after t h
    simp [referenceRcl, h]
  jumpKeeps := by
    intro before after t
    simp only [referenceRcl]
    split <;> exact ⟨rfl, rfl, rfl⟩

/-- What a callback does to the timers of its node. -/
inductive TimerAction where
  | create (clockType : ClockType) (period : ℕ) (autostart : Bool)
  | cancel (t : TimerRef)
  | reset (t : TimerRef)
  | release (t : TimerRef)
  deriving DecidableEq, Repr

/-- What a run does not decide itself: rcl, the readings of the steady clock in the order they are
taken, which writes of the node's clock succeed, and what a callback does given the invocations so
far, its own the last. -/
structure Env where
  rcl : Rcl
  steady : ℕ → ℤ
  overrideOk : ℕ → Bool
  script : List (TimerRef × ℤ) → List TimerAction

/-- Nothing fails and callbacks leave the timers alone. -/
def plainEnv : Env := ⟨referenceRcl, fun _ => 0, fun _ => true, fun _ => []⟩

/-- A node with its timers and its clock, and the test clock. `rosTime` is the value last written
to the node's clock, `now` the test clock's `now_`; `pinned` are the timers a running `advance`
holds, `released` those of them that nobody else owns; `trace` lists the invocations of callbacks
with the reading of the node's clock. -/
structure Sim where
  timers : ObjectStore Timer
  registry : StaticMocksRegistry
  node : NodeId
  rosTime : ℤ
  now : ℤ
  overrides : ℕ
  steadyReads : ℕ
  pinned : List TimerRef
  released : List TimerRef
  trace : List (TimerRef × ℤ)

namespace Sim

variable (env : Env)

/-- The reading of a clock. -/
def readClock (c : ClockType) (s : Sim) : ℤ × Sim :=
  match c with
  | .ros => (s.rosTime, s)
  | .steady => (env.steady s.steadyReads, { s with steadyReads := s.steadyReads + 1 })

/-- `rcl_set_ros_time_override`: a success moves the node's clock and tells its timers. -/
def setRosTimeOverride (tv : ℤ) (s : Sim) : Bool × Sim :=
  if env.overrideOk s.overrides then
    (true, { s with
      overrides := s.overrides + 1
      rosTime := tv
      timers := s.timers.map fun t =>
        if t.clockType = .ros then env.rcl.timeJump s.rosTime tv t else t })
  else (false, { s with overrides := s.overrides + 1 })

/-- `timer->is_ready()`. -/
def isReady (t : TimerRef) (s : Sim) : Bool × Sim :=
  match s.timers.get? t with
  | none => (false, s)
  | some timer =>
    let (now, s) := s.readClock env timer.clockType
    (env.rcl.timerIsReady timer now, s)

/-- `timer->call()`, and whether it returned data. -/
def call (t : TimerRef) (s : Sim) : Bool × Sim :=
  match s.timers.get? t with
  | none => (false, s)
  | some timer =>
    let (now, s) := s.readClock env timer.clockType
    match env.rcl.timerCall timer now with
    | none => (false, s)
    | some timer => (true, { s with timers := s.timers.modify t fun _ => timer })

/-- One thing a callback does. -/
def perform (s : Sim) : TimerAction → Sim
  | .create c period autostart =>
    let (now, s) := s.readClock env c
    { s with
      timers := s.timers.alloc (env.rcl.timerInit c period now autostart)
      registry := s.registry.registerTimer s.node (some s.timers.next) }
  | .cancel t => { s with timers := s.timers.modify t env.rcl.timerCancel }
  | .reset t =>
    match s.timers.get? t with
    | none => s
    | some timer =>
      let (now, s) := s.readClock env timer.clockType
      { s with timers := s.timers.modify t fun timer => env.rcl.timerReset timer now }
  | .release t =>
    if t ∈ s.pinned then { s with released := t :: s.released }
    else { s with timers := s.timers.free t }

/-- `timer->execute_callback(data)`. -/
def executeCallback (t : TimerRef) (s : Sim) : Sim :=
  let s := { s with trace := s.trace ++ [(t, s.rosTime)] }
  (env.script s.trace).foldl (perform env) s

/-- The body of the loop in `fire_all_timer_callbacks`. -/
def fireTimerCallback (s : Sim) (t : TimerRef) : Sim :=
  let (ready, s) := s.isReady env t
  if ready then
    let (data, s) := s.call env t
    if data then s.executeCallback env t else s
  else s

/-- `fire_all_timer_callbacks`. -/
def fireAllTimerCallbacks (timers : List TimerRef) (s : Sim) : Sim :=
  timers.foldl (fireTimerCallback env) s

/-- `detail::findTimers` for the clock's node. -/
def findTimers (s : Sim) : List TimerRef := s.registry.findTimers s.timers s.node

theorem alive_of_mem_findTimers {s : Sim} {t : TimerRef} (ht : t ∈ s.findTimers) :
    ∃ timer, s.timers.get? t = some timer := by
  simp only [findTimers, StaticMocksRegistry.findTimers, List.mem_filterMap] at ht
  obtain ⟨p, -, hp⟩ := ht
  exact ObjectStore.alive_iff.mp (ObjectStore.alive_of_lock hp)

/-- The end of an `advance`: the timers only it held are destroyed. -/
def unpin (s : Sim) : Sim :=
  { s with timers := s.released.foldl (·.free ·) s.timers, pinned := [], released := [] }

section Fire

variable {env} {s : Sim} {t : TimerRef} {timer : Timer}

theorem fireTimerCallback_dead (h : s.timers.get? t = none) : s.fireTimerCallback env t = s := by
  simp only [fireTimerCallback, isReady, h, Bool.false_eq_true, if_false]

theorem fireTimerCallback_ros (h : s.timers.get? t = some timer) (hros : timer.clockType = .ros)
    {now : ℤ} (hnow : s.rosTime = now) :
    s.fireTimerCallback env t =
      if env.rcl.timerIsReady timer now then
        match env.rcl.timerCall timer now with
        | none => s
        | some next =>
          executeCallback env t { s with timers := s.timers.modify t fun _ => next }
      else s := by
  subst hnow
  simp only [fireTimerCallback, isReady, h, hros, readClock]
  split
  · simp only [call, h, hros, readClock]
    cases env.rcl.timerCall timer s.rosTime <;> rfl
  · rfl

/-- The steady clock is read once by `is_ready()` and, if that is true, again by `call()`. -/
theorem fireTimerCallback_steady (h : s.timers.get? t = some timer)
    (hsteady : timer.clockType = .steady) :
    s.fireTimerCallback env t =
      if env.rcl.timerIsReady timer (env.steady s.steadyReads) then
        match env.rcl.timerCall timer (env.steady (s.steadyReads + 1)) with
        | none => { s with steadyReads := s.steadyReads + 2 }
        | some next =>
          executeCallback env t
            { s with
              steadyReads := s.steadyReads + 2
              timers := s.timers.modify t fun _ => next }
      else { s with steadyReads := s.steadyReads + 1 } := by
  simp only [fireTimerCallback, isReady, h, hsteady, readClock]
  split
  · simp only [call, h, hsteady, readClock]
    cases env.rcl.timerCall timer (env.steady (s.steadyReads + 1)) <;> rfl
  · rfl

end Fire

/-- The clocks and the writes so far are the same. -/
structure SameClock (s s' : Sim) : Prop where
  rosTime : s'.rosTime = s.rosTime
  now : s'.now = s.now
  overrides : s'.overrides = s.overrides

variable {s s' s'' : Sim}

theorem SameClock.refl (s : Sim) : SameClock s s := ⟨rfl, rfl, rfl⟩

theorem SameClock.trans (h : SameClock s s') (h' : SameClock s' s'') : SameClock s s'' :=
  ⟨h'.rosTime.trans h.rosTime, h'.now.trans h.now, h'.overrides.trans h.overrides⟩

/-- What a list of steps keeps, if each of them does. -/
theorem foldl_keeps {α : Type} {P : Sim → Prop} {f : Sim → α → Sim} (l : List α)
    (hf : ∀ s a, a ∈ l → P s → P (f s a)) (h : P s) : P (l.foldl f s) := by
  induction l generalizing s with
  | nil => exact h
  | cons a l ih =>
    refine ih (fun s b hb hs => hf s b (List.mem_cons_of_mem a hb) hs) ?_
    exact hf s a List.mem_cons_self h

theorem sameClock_readClock (c : ClockType) (s : Sim) : SameClock s (s.readClock env c).2 := by
  cases c <;> exact ⟨rfl, rfl, rfl⟩

theorem sameClock_isReady (t : TimerRef) (s : Sim) : SameClock s (s.isReady env t).2 := by
  simp only [isReady]
  split
  · exact .refl s
  · exact sameClock_readClock env _ s

theorem sameClock_call (t : TimerRef) (s : Sim) : SameClock s (s.call env t).2 := by
  simp only [call]
  split
  · exact .refl s
  · next timer _ =>
    have h := sameClock_readClock env timer.clockType s
    split
    · exact h
    · exact ⟨h.rosTime, h.now, h.overrides⟩

theorem sameClock_perform (s : Sim) (a : TimerAction) : SameClock s (s.perform env a) := by
  cases a with
  | create c period autostart =>
    have h := sameClock_readClock env c s
    exact ⟨h.rosTime, h.now, h.overrides⟩
  | cancel t => exact ⟨rfl, rfl, rfl⟩
  | reset t =>
    simp only [perform]
    split
    · exact .refl s
    · next timer _ =>
      have h := sameClock_readClock env timer.clockType s
      exact ⟨h.rosTime, h.now, h.overrides⟩
  | release t =>
    simp only [perform]
    split <;> exact ⟨rfl, rfl, rfl⟩

theorem sameClock_executeCallback (t : TimerRef) (s : Sim) :
    SameClock s (s.executeCallback env t) := by
  refine foldl_keeps _ (fun s' a _ h => h.trans (sameClock_perform env s' a)) ?_
  exact ⟨rfl, rfl, rfl⟩

theorem sameClock_fireTimerCallback (s : Sim) (t : TimerRef) :
    SameClock s (s.fireTimerCallback env t) := by
  have hready := sameClock_isReady env t s
  have hcall := hready.trans (sameClock_call env t _)
  simp only [fireTimerCallback]
  split
  · split
    · exact hcall.trans (sameClock_executeCallback env t _)
    · exact hcall
  · exact hready

/-- Firing callbacks moves no clock. -/
theorem sameClock_fireAll (timers : List TimerRef) (s : Sim) :
    SameClock s (s.fireAllTimerCallbacks env timers) :=
  foldl_keeps timers (fun s' t _ h => h.trans (sameClock_fireTimerCallback env s' t)) (.refl s)

end Sim

end Rtest
