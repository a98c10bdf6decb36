import Rtest.Foundations.Alarm
import Rtest.Clock.PeriodCast
import Rtest.Clock.RealTime

/-!
# The timers of a node, from their creation on

`create_timer` and `create_wall_timer` check their arguments, make a timer and register it under
its node, where the triggering clock finds it. Between two calls of `advance` a program creates
timers, cancels and resets them and lets go of them, and a creation that throws is caught.

A timer on the node's clock is called as an alarm rings that hears only of what is done to this
timer and when: the other timers, the number of `advance` calls it takes to get somewhere, and the
steps the clock takes do not show.

## Main definitions

- `Sim.createTimer`, `Sim.createWallTimer` — with their checks
- `NodeEvent`, `Sim.handle` — what happens to a node
- `story` — what is done to one timer, and when

## Main results

- `Sim.called_as_alone` — the calls of a timer are the rings of its alarm
-/

namespace Rtest

open TriggeringTestClock Rounding

/-- Why `create_timer` or `create_wall_timer` throws. -/
inductive CreateTimerError where
  | nullClock
  | nullNodeBase
  | nullNodeTimers
  | period (e : PeriodError)
  deriving DecidableEq, Repr

/-- The exception's type and `what()`. -/
def CreateTimerError.what : CreateTimerError → String × String
  | nullClock => ("std::invalid_argument", "clock cannot be null")
  | nullNodeBase => ("std::invalid_argument", "input node_base cannot be null")
  | nullNodeTimers => ("std::invalid_argument", "input node_timers cannot be null")
  | period e => e.what

/-- The arguments: which of the pointers are there, the period, and `autostart`. -/
structure TimerRequest where
  clock : Bool
  nodeBase : Bool
  nodeTimers : Bool
  period : Duration
  autostart : Bool
  deriving DecidableEq, Repr

namespace Sim

variable (env : Env) (rnd : ℚ → ℚ)

/-- A timer is made and registered under its node. -/
def addTimer (c : ClockType) (periodNs : ℤ) (autostart : Bool) (s : Sim) : TimerRef × Sim :=
  let (now, s) := s.readClock env c
  (s.timers.next,
    { s with
      timers := s.timers.alloc (env.rcl.timerInit c periodNs now autostart)
      registry := s.registry.registerTimer s.node (some s.timers.next) })

/-- What both creators do once they know which clock it is. -/
def createTimerOn (c : ClockType) (r : TimerRequest) (s : Sim) :
    Except CreateTimerError TimerRef × Sim :=
  if !r.nodeBase then (.error .nullNodeBase, s)
  else if !r.nodeTimers then (.error .nullNodeTimers, s)
  else
    match safeCastToPeriodInNs rnd r.period.unit r.period.count with
    | .error e => (.error (.period e), s)
    | .ok periodNs =>
      let (t, s) := s.addTimer env c periodNs r.autostart
      (.ok t, s)

/-- `create_timer`. -/
def createTimer (r : TimerRequest) (s : Sim) : Except CreateTimerError TimerRef × Sim :=
  if !r.clock then (.error .nullClock, s) else s.createTimerOn env rnd .ros r

/-- `create_wall_timer`. -/
def createWallTimer (r : TimerRequest) (s : Sim) : Except CreateTimerError TimerRef × Sim :=
  s.createTimerOn env rnd .steady r

end Sim

/-- What happens to a node. -/
inductive NodeEvent where
  | createTimer (r : TimerRequest)
  | createWallTimer (r : TimerRequest)
  | cancel (t : TimerRef)
  | reset (t : TimerRef)
  | release (t : TimerRef)
  | advance (d : Duration)
  deriving DecidableEq, Repr

namespace Sim

variable (env : Env) (rnd : ℚ → ℚ)

/-- The state an event leaves, if it ends; exceptions are caught. -/
def handle (s : Sim) : NodeEvent → Option Sim
  | .createTimer r => some (s.createTimer env rnd r).2
  | .createWallTimer r => some (s.createWallTimer env rnd r).2
  | .cancel t => some (s.perform env (.cancel t))
  | .reset t => some (s.perform env (.reset t))
  | .release t => some (s.perform env (.release t))
  | .advance d => (TriggeringTestClock.advance env d s).map Prod.snd

/-- A node without timers. -/
def freshNode (node : NodeId) (now : ℤ) : Sim where
  timers := ObjectStore.empty
  registry := StaticMocksRegistry.empty
  node := node
  rosTime := now
  now := now
  overrides := 0
  steadyReads := 0
  pinned := []
  released := []
  trace := []

end Sim

namespace NodeEvent

/-- What an event is to one timer. -/
def order (t : TimerRef) : NodeEvent → Option AlarmOrder
  | .cancel t' => if t' = t then some .stop else none
  | .reset t' => if t' = t then some .restart else none
  | .release t' => if t' = t then some .discard else none
  | _ => none

/-- By how much an event moves the node's clock. -/
def elapses : NodeEvent → ℤ
  | .advance d => d.nanoseconds
  | _ => 0

end NodeEvent

/-- What is done to a timer, with the reading of the clock, which is `now` at the start. -/
def story (t : TimerRef) (now : ℤ) : List NodeEvent → List (ℤ × AlarmOrder)
  | [] => []
  | ev :: evs => ((ev.order t).map (now, ·)).toList ++ story t (now + ev.elapses) evs

/-- By how much the events move the clock. -/
def elapsed : List NodeEvent → ℤ
  | [] => 0
  | ev :: evs => ev.elapses + elapsed evs

/-- A period that can be cast is not zero, and the clock is not moved back. -/
def NodeEvent.Sound : NodeEvent → Prop
  | .createTimer r | .createWallTimer r =>
    1 ≤ r.period.unit ∧ r.period.unit ≤ nanosecondsMax ∧ r.period.count ≠ 0
  | .advance d => 0 ≤ d.nanoseconds
  | _ => True

namespace Sim

variable {env : Env} {rnd : ℚ → ℚ} {s s' u v : Sim} {t : TimerRef} {timer : Timer} {τ : ℤ}

-- ════════════════════════════════════════════════════════════════════════
-- One turn of any timer
-- ════════════════════════════════════════════════════════════════════════

/-- From `u` to `v` timers were called at most, and only living ones. -/
structure OnlyCalls (u v : Sim) : Prop where
  registry : v.registry = u.registry
  node : v.node = u.node
  released : v.released = u.released
  fixed : v.timers.map Timer.fixed = u.timers.map Timer.fixed
  silent : ∀ t, u.timers.alive t = false → v.calls t = u.calls t

namespace OnlyCalls

theorem refl (u : Sim) : OnlyCalls u u := ⟨rfl, rfl, rfl, rfl, fun _ _ => rfl⟩

theorem alive (h : OnlyCalls u v) : v.timers.alive = u.timers.alive :=
  ObjectStore.alive_of_map_eq h.fixed

theorem next (h : OnlyCalls u v) : v.timers.next = u.timers.next :=
  ObjectStore.next_of_map_eq h.fixed

theorem trans {w : Sim} (h : OnlyCalls u v) (h' : OnlyCalls v w) : OnlyCalls u w where
  registry := h'.registry.trans h.registry
  node := h'.node.trans h.node
  released := h'.released.trans h.released
  fixed := h'.fixed.trans h.fixed
  silent := fun t ht => (h'.silent t (by rw [h.alive, ht])).trans (h.silent t ht)

/-- A timer keeps its clock, its period and whether it is cancelled. -/
theorem get? (h : OnlyCalls u v) (hget : v.timers.get? t = some timer) :
    ∃ timer₀, u.timers.get? t = some timer₀ ∧ timer₀.clockType = timer.clockType ∧
      timer₀.period = timer.period := by
  obtain ⟨timer₀, hget₀, hfixed⟩ := ObjectStore.get?_of_map_eq h.fixed hget
  exact ⟨timer₀, hget₀, (congrArg Timer.clockType hfixed).symm, (congrArg Timer.period hfixed).symm⟩

end OnlyCalls

theorem onlyCalls_fire (henv : Quiet env) (u : Sim) (t : TimerRef) :
    OnlyCalls u (u.fireTimerCallback env t) := by
  obtain ⟨n, hfire⟩ | ⟨timer, timer', n, hget, hfixed, hfire⟩ := fire_cases henv u t
  · rw [hfire]
    exact ⟨rfl, rfl, rfl, rfl, fun _ _ => rfl⟩
  · rw [hfire]
    refine ⟨rfl, rfl, rfl, ObjectStore.map_modify_self fun timer₀ hget₀ => ?_, fun t' ht' => ?_⟩
    · rw [hget] at hget₀
      cases hget₀
      exact hfixed
    · have hne : t ≠ t' := by
        rintro rfl
        rw [ObjectStore.alive_of_get? hget] at ht'
        cases ht'
      simp [calls, hne]

theorem onlyCalls_fireAll (henv : Quiet env) (l : List TimerRef) (u : Sim) :
    OnlyCalls u (u.fireAllTimerCallbacks env l) :=
  foldl_keeps l (fun v t _ h => h.trans (onlyCalls_fire henv v t)) (.refl u)

/-- The turn of another timer. -/
theorem OnTime.fire_other (henv : Quiet env) {slack : ℕ} {t' : TimerRef} (hne : t' ≠ t)
    (h : OnTime s u τ slack t timer) : OnTime s (u.fireTimerCallback env t') τ slack t timer := by
  obtain ⟨c, h⟩ := h
  obtain ⟨n, hfire⟩ | ⟨timer', timer'', n, -, -, hfire⟩ := fire_cases henv u t'
  · exact ⟨c, h.congr (by rw [hfire]) (by rw [hfire]; rfl)⟩
  · refine ⟨c, h.congr ?_ ?_⟩
    · rw [hfire, ObjectStore.get?_modify, if_neg hne.symm]
    · rw [hfire]
      simp [calls, hne]

/-- **One pass over the timers** brings a timer of the node's clock up to date, whatever the others
are: the induction is on the list, in which the timer is still to come or was already. -/
theorem onTime_fireAll (henv : Quiet env) (hros : timer.clockType = .ros) (hp : 1 ≤ timer.period)
    {l : List TimerRef} (hτ : u.rosTime = τ) (h : OnTime s u τ 1 t timer)
    (ht : t ∈ l ∨ OnTime s u τ 0 t timer) :
    OnTime s (u.fireAllTimerCallbacks env l) τ 0 t timer := by
  induction l generalizing u with
  | nil => exact ht.resolve_left List.not_mem_nil
  | cons t' l ih =>
    have hτ' : (u.fireTimerCallback env t').rosTime = τ :=
      (sameClock_fireTimerCallback env u t').rosTime.trans hτ
    by_cases heq : t' = t
    · subst heq
      have hdone := OnTime.fire henv hros hp hτ h
      exact ih hτ' (hdone.slack hp) (Or.inr hdone)
    · refine ih hτ' (h.fire_other henv heq) (ht.imp (fun hmem => ?_) (·.fire_other henv heq))
      exact (List.mem_cons.mp hmem).resolve_left (Ne.symm heq)

-- ════════════════════════════════════════════════════════════════════════
-- One `advance`
-- ════════════════════════════════════════════════════════════════════════

/-- What holds of a node between two events. -/
structure Tended (s : Sim) : Prop where
  rosTime : s.rosTime = s.now
  pinned : s.pinned = []
  released : s.released = []
  listed : s.registry.getTimers s.node = (List.range s.timers.next).map some
  period : ∀ t timer, s.timers.get? t = some timer → 1 ≤ timer.period
  unborn : ∀ t, s.timers.next ≤ t → s.calls t = 0

theorem tended_freshNode (node : NodeId) (now : ℤ) : Tended (freshNode node now) where
  rosTime := rfl
  pinned := rfl
  released := rfl
  listed := by
    show StaticMocksRegistry.empty.getTimers node = []
    simp [StaticMocksRegistry.getTimers, StaticMocksRegistry.empty,
      StaticMocksRegistry.findEntity_eq_getD]
    rfl
  period := by
    intro t timer h
    cases h
  unborn := fun _ _ => rfl

/-- `findTimers` returns the timers that live, in the order of their creation. -/
theorem Tended.findTimers (h : Tended s) :
    s.findTimers = (List.range s.timers.next).filter s.timers.alive := by
  rw [Sim.findTimers, StaticMocksRegistry.findTimers, h.listed, ObjectStore.filterMap_lock]

theorem Tended.mem_findTimers (h : Tended s) (hget : s.timers.get? t = some timer) :
    t ∈ s.findTimers := by
  rw [h.findTimers, List.mem_filter]
  exact ⟨List.mem_range.mpr (ObjectStore.lt_next_of_get? hget), ObjectStore.alive_of_get? hget⟩

/-- An `advance` that began in `s` has come to `u`, where the clocks read `τ`. -/
structure Underway (s u : Sim) (τ : ℤ) : Prop where
  now : u.now = τ
  rosTime : u.rosTime = τ
  onlyCalls : OnlyCalls s u
  onTime : ∀ t timer, s.timers.get? t = some timer → timer.clockType = .ros →
    (timer.canceled = false → s.now < timer.nextCall) → OnTime s u τ 0 t timer

theorem Tended.underway (h : Tended s) (pinned : List TimerRef) :
    Underway s { s with pinned := pinned, released := [] } s.now where
  now := rfl
  rosTime := h.rosTime
  onlyCalls := ⟨rfl, rfl, h.released.symm, rfl, fun _ _ => rfl⟩
  onTime := by
    intro t timer hget _ hnext
    refine ⟨0, rfl, ?_, fun _ => rfl, fun hc => ?_, fun _ k hk => ?_⟩
    · simpa using hget
    · simpa using hnext hc
    · cases hk

/-- The write at the start of a round. -/
theorem Underway.write (henv : Quiet env) (h : Underway s u τ) {step : ℤ} (hstep : 0 ≤ step) :
    ∃ v, TestClock.advanceNs env step u = (.ok (), v) ∧ v.now = τ + step ∧ v.rosTime = τ + step ∧
      v.timers = u.timers ∧ v.trace = u.trace ∧ OnlyCalls s v := by
  have hle : u.rosTime ≤ u.now + step := by
    have hnow := h.now
    have hros := h.rosTime
    omega
  have htimers := @overridden_forward env { u with now := u.now + step } henv _ hle
  have htime : u.now + step = τ + step := by rw [h.now]
  refine ⟨_, TestClock.advanceNs_ok (henv.writes _) step, htime, htime, htimers, rfl,
    h.onlyCalls.trans ⟨rfl, rfl, rfl, ?_, fun _ _ => rfl⟩⟩
  rw [htimers]

/-- **One round**, with a step no longer than any period. -/
theorem Underway.round (henv : Quiet env) (hs : Tended s) (h : Underway s u τ) {step : ℤ}
    (hstep : 0 ≤ step)
    (hle : ∀ t timer, s.timers.get? t = some timer → step ≤ timer.period) :
    ∃ u', advanceRound env s.findTimers step u = (.ok (), u') ∧ Underway s u' (τ + step) := by
  obtain ⟨v, hv, hnow, hros, htimers, htrace, hcalls⟩ := h.write henv hstep
  have hclock := sameClock_fireAll env s.findTimers v
  rw [advanceRound, hv]
  refine ⟨_, rfl, hclock.now.trans hnow, hclock.rosTime.trans hros,
    hcalls.trans (onlyCalls_fireAll henv s.findTimers v), fun t timer hget hisRos hnext => ?_⟩
  obtain ⟨c, hc⟩ := (h.onTime t timer hget hisRos hnext).move hstep (hle t timer hget)
  have hmoved : OnTime s v (τ + step) 1 t timer :=
    ⟨c, hc.congr (by rw [htimers]) (by rw [calls, calls, htrace])⟩
  exact onTime_fireAll henv hisRos (hs.period t timer hget) hros hmoved
    (Or.inl (hs.mem_findTimers hget))

/-- **One `advance`** returns; it has called each timer of the node's clock once for each due
time. -/
theorem Tended.advance (henv : Quiet env) (hs : Tended s) {d : Duration}
    (hd : 0 ≤ d.nanoseconds) :
    ∃ u, TriggeringTestClock.advance env d s = some (.ok (), u) ∧ u.pinned = [] ∧
      u.released = [] ∧ Underway s u (s.now + d.nanoseconds) := by
  simp only [TriggeringTestClock.advance, advanceWithin]
  split
  · next hempty =>
    have hstart := hs.underway s.pinned
    have hself : { s with pinned := s.pinned, released := [] } = s := by rw [← hs.released]
    rw [hself] at hstart
    obtain ⟨v, hv, hnow, hros, -, -, hcalls⟩ := hstart.write henv hd
    refine ⟨v, by rw [TestClock.advance, hv], ?_, hcalls.released.trans hs.released, hnow, hros,
      hcalls, fun t timer hget => ?_⟩
    · rw [TestClock.advanceNs_ok (henv.writes _)] at hv
      cases hv
      exact hs.pinned
    · have hmem := hs.mem_findTimers hget
      rw [List.isEmpty_iff.mp hempty] at hmem
      exact absurd hmem List.not_mem_nil
  · have hone : 1 ≤ getTimersMinPeriod s.findTimers s :=
      getTimersMinPeriod_pos _ _ fun t _ timer hget => hs.period t timer hget
    have hstart : Underway s { s with pinned := s.findTimers, released := [] } (s.now + 0) := by
      rw [Int.add_zero]
      exact hs.underway s.findTimers
    obtain ⟨u, hu, hunder⟩ := advanceLoop_rule
      (P := fun start v => Underway s v (s.now + start)) hone
      (fun start v _ hv => by
        have hstep : 0 ≤ min (getTimersMinPeriod s.findTimers s) (d.nanoseconds - start) := by
          omega
        obtain ⟨v', hv', h'⟩ := hv.round henv hs hstep fun t timer hget =>
          Int.le_trans (Int.min_le_left _ _) (getTimersMinPeriod_le (hs.mem_findTimers hget) hget)
        exact ⟨v', hv', by rwa [← Int.add_assoc]⟩)
      d.nanoseconds.toNat (by omega) hd hstart
    have hreleased : u.released = [] := hunder.onlyCalls.released.trans hs.released
    have hunpin : u.unpin = { u with pinned := [], released := [] } := by
      rw [unpin, hreleased]
      rfl
    refine ⟨u.unpin, by rw [hu]; rfl, rfl, rfl, ?_⟩
    rw [hunpin]
    have hcalls := hunder.onlyCalls
    refine ⟨hunder.now, hunder.rosTime, ⟨hcalls.registry, hcalls.node, hs.released.symm,
      hcalls.fixed, hcalls.silent⟩, fun t timer hget hisRos hnext => ?_⟩
    obtain ⟨c, hc⟩ := hunder.onTime t timer hget hisRos hnext
    exact ⟨c, hc.congr rfl rfl⟩

/-- What an `advance` keeps of a node. -/
theorem Underway.tended (hs : Tended s) (h : Underway s u τ) (hpinned : u.pinned = [])
    (hreleased : u.released = []) : Tended u where
  rosTime := h.rosTime.trans h.now.symm
  pinned := hpinned
  released := hreleased
  listed := by rw [h.onlyCalls.registry, h.onlyCalls.node, h.onlyCalls.next, hs.listed]
  period := by
    intro t timer hget
    obtain ⟨timer₀, hget₀, -, hperiod⟩ := h.onlyCalls.get? hget
    rw [← hperiod]
    exact hs.period t timer₀ hget₀
  unborn := by
    intro t ht
    rw [h.onlyCalls.next] at ht
    have hdead : s.timers.alive t = false := by
      rw [ObjectStore.alive, ObjectStore.get?_eq_none_of_next_le ht]
      rfl
    rw [h.onlyCalls.silent t hdead, hs.unborn t ht]

-- ════════════════════════════════════════════════════════════════════════
-- A timer and its alarm
-- ════════════════════════════════════════════════════════════════════════

/-- The timer shows the alarm. -/
structure Shows (s : Sim) (t : TimerRef) (a : Alarm) : Prop where
  calls : s.calls t = a.rings
  ready : a.Ready s.now
  born : t < s.timers.next
  timer : s.timers.get? t =
    if a.discarded then none else some ⟨.ros, a.period, a.next, !a.running⟩

/-- An `advance`, as the alarm hears of it. -/
theorem Shows.elapse {a : Alarm} (h : Shows s t a) (hu : Underway s u τ) :
    Shows u t (a.elapse τ) := by
  have hready : (a.elapse τ).Ready u.now := hu.now ▸ h.ready.elapse τ
  have hborn : t < u.timers.next := hu.onlyCalls.next ▸ h.born
  cases hd : a.discarded with
  | true =>
    have hself : a.elapse τ = a := by rw [Alarm.elapse, h.ready.silent hd]; rfl
    have hnone : s.timers.get? t = none := by rw [h.timer, hd, if_pos rfl]
    have hdead : s.timers.alive t = false := by rw [ObjectStore.alive, hnone]; rfl
    refine ⟨?_, hready, hborn, ?_⟩
    · rw [hself, hu.onlyCalls.silent t hdead, h.calls]
    · have hdead' : u.timers.alive t = false := by rw [hu.onlyCalls.alive, hdead]
      rw [hself, hd, if_pos rfl]
      simpa [ObjectStore.alive] using hdead'
  | false =>
    have hget : s.timers.get? t = some ⟨.ros, a.period, a.next, !a.running⟩ := by
      rw [h.timer, hd, if_neg Bool.false_ne_true]
    obtain ⟨c, hc⟩ := hu.onTime t _ hget rfl fun hrun => h.ready.next (by simpa using hrun)
    have helapse : a.elapse τ = { a with rings := a.rings + c, next := a.next + c * a.period } := by
      by_cases hrun : a.running = true
      · have hnext := hc.next (by simp [hrun])
        exact Alarm.elapse_eq hrun h.ready.period (by simpa using hnext) (hc.last (by simp [hrun]))
      · obtain rfl := hc.canceled (by simp [hrun])
        rw [Alarm.elapse, if_neg hrun]
        simp
    refine ⟨?_, hready, hborn, ?_⟩
    · rw [helapse, hc.calls, h.calls]
    · rw [helapse, hc.found, if_neg (by simp [hd])]

/-- A creation that is refused leaves the node as it was; one that is not adds a timer to it. -/
theorem createTimerOn_cases (c : ClockType) (r : TimerRequest) (s : Sim) :
    (∃ e, s.createTimerOn env rnd c r = (.error e, s)) ∨
      ∃ p, safeCastToPeriodInNs rnd r.period.unit r.period.count = .ok p ∧
        s.createTimerOn env rnd c r =
          (.ok s.timers.next, (s.addTimer env c p r.autostart).2) := by
  simp only [createTimerOn]
  split
  · exact Or.inl ⟨_, rfl⟩
  · split
    · exact Or.inl ⟨_, rfl⟩
    · cases h : safeCastToPeriodInNs rnd r.period.unit r.period.count with
      | error e => exact Or.inl ⟨_, rfl⟩
      | ok p =>
        refine Or.inr ⟨p, rfl, ?_⟩
        cases c <;> rfl

/-- Of a period that is not zero a positive one is made, and it is the one asked for. -/
theorem period_of_sound (hrnd : RelError doubleError rnd) {r : TimerRequest} {p : ℤ}
    (hsound : (NodeEvent.createTimer r).Sound)
    (hcast : safeCastToPeriodInNs rnd r.period.unit r.period.count = .ok p) :
    p = r.period.nanoseconds ∧ 1 ≤ p := by
  obtain ⟨hunit, hmax, hcount⟩ := hsound
  obtain ⟨hp, hnonneg, -⟩ := safeCastToPeriodInNs_ok hrnd (by exact_mod_cast hunit) hmax hcast
  have hne : r.period.count * (r.period.unit : ℤ) ≠ 0 := mul_ne_zero hcount (by omega)
  refine ⟨hp, ?_⟩
  omega

/-- A new timer is listed last. -/
theorem Tended.addTimer (henv : Quiet env) (hs : Tended s) (c : ClockType) {p : ℤ} (hp : 1 ≤ p)
    (autostart : Bool) : Tended (s.addTimer env c p autostart).2 := by
  obtain ⟨n, now, hadd⟩ : ∃ n now, (s.addTimer env c p autostart).2 =
      { s with
        steadyReads := n
        timers := s.timers.alloc ⟨c, p, now + p, !autostart⟩
        registry := s.registry.registerTimer s.node (some s.timers.next) } := by
    cases c <;> simp only [Sim.addTimer, readClock, henv.rules.init] <;> exact ⟨_, _, rfl⟩
  rw [hadd]
  refine ⟨hs.rosTime, hs.pinned, hs.released, ?_, fun t timer hget => ?_, fun t ht => ?_⟩
  · simp [StaticMocksRegistry.getTimers_registerTimer, hs.listed, List.range_succ]
  · rw [ObjectStore.get?_alloc] at hget
    split at hget
    · cases hget
      exact hp
    · exact hs.period t timer hget
  · refine hs.unborn t ?_
    simp at ht
    omega

/-- The creation of another timer does not show. -/
theorem Shows.addTimer {a : Alarm} (h : Shows s t a) (c : ClockType) (p : ℤ) (autostart : Bool) :
    Shows (s.addTimer env c p autostart).2 t a := by
  have hne : t ≠ s.timers.next := Nat.ne_of_lt h.born
  have hget : ∀ timer, (s.timers.alloc timer).get? t = s.timers.get? t := by
    intro timer
    rw [ObjectStore.get?_alloc, if_neg hne]
  have hborn : t < (s.addTimer env c p autostart).2.timers.next := by
    have hlt := Nat.lt_succ_of_lt h.born
    cases c <;> simpa only [Sim.addTimer, readClock, ObjectStore.next_alloc] using hlt
  cases c with
  | ros => exact ⟨h.calls, h.ready, hborn, (hget _).trans h.timer⟩
  | steady => exact ⟨h.calls, h.ready, hborn, (hget _).trans h.timer⟩

theorem tended_createTimerOn (henv : Quiet env) (hrnd : RelError doubleError rnd) (hs : Tended s)
    (c : ClockType) {r : TimerRequest} (hsound : (NodeEvent.createTimer r).Sound) :
    Tended (s.createTimerOn env rnd c r).2 ∧
      ∀ t a, Shows s t a → Shows (s.createTimerOn env rnd c r).2 t a := by
  obtain ⟨e, h⟩ | ⟨p, hcast, h⟩ := @createTimerOn_cases env rnd c r s
  · rw [h]
    exact ⟨hs, fun _ _ h => h⟩
  · rw [h]
    exact ⟨hs.addTimer henv c (period_of_sound hrnd hsound hcast).2 r.autostart,
      fun t a h => h.addTimer c p r.autostart⟩

/-- What is done to the timers of a node between two calls of `advance`. -/
theorem Tended.retime (hs : Tended s) {n : ℕ} {timers : ObjectStore Timer}
    (hnext : timers.next = s.timers.next)
    (hperiod : ∀ t timer, timers.get? t = some timer →
      ∃ timer₀, s.timers.get? t = some timer₀ ∧ timer.period = timer₀.period) :
    Tended { s with steadyReads := n, timers := timers } where
  rosTime := hs.rosTime
  pinned := hs.pinned
  released := hs.released
  listed := by rw [hs.listed, hnext]
  period := by
    intro t timer hget
    obtain ⟨timer₀, hget₀, heq⟩ := hperiod t timer hget
    rw [heq]
    exact hs.period t timer₀ hget₀
  unborn := fun t ht => hs.unborn t (hnext ▸ ht)

/-- What a modified timer was before. -/
theorem period_of_modify {t' : TimerRef} {f : Timer → Timer}
    (hf : ∀ timer, (f timer).period = timer.period)
    (hget : (s.timers.modify t' f).get? t = some timer) :
    ∃ timer₀, s.timers.get? t = some timer₀ ∧ timer.period = timer₀.period := by
  rw [ObjectStore.get?_modify] at hget
  split at hget
  · rw [Option.map_eq_some_iff] at hget
    obtain ⟨timer₀, hget₀, rfl⟩ := hget
    exact ⟨timer₀, hget₀, hf timer₀⟩
  · exact ⟨timer, hget, rfl⟩

theorem perform_cancel (henv : Quiet env) (hs : Tended s) (t' : TimerRef) :
    Tended (s.perform env (.cancel t')) ∧ ∀ t a, Shows s t a →
      Shows (s.perform env (.cancel t')) t (if t' = t then a.obey s.now .stop else a) := by
  have hf : ∀ timer, (env.rcl.timerCancel timer).period = timer.period := by
    intro timer
    rw [henv.rules.cancel]
  refine ⟨hs.retime (ObjectStore.next_modify ..) fun t timer => period_of_modify hf,
    fun t a h => ?_⟩
  by_cases heq : t' = t
  · subst heq
    rw [if_pos rfl]
    refine ⟨h.calls, h.ready.obey .stop, by simpa [perform] using h.born, ?_⟩
    simp only [perform, ObjectStore.get?_modify, if_true, h.timer, Alarm.obey]
    by_cases hd : a.discarded = true <;> simp [hd, henv.rules.cancel]
  · rw [if_neg heq]
    refine ⟨h.calls, h.ready, by simpa [perform] using h.born, ?_⟩
    rw [perform, ObjectStore.get?_modify, if_neg (Ne.symm heq), h.timer]

theorem perform_release (hs : Tended s) (t' : TimerRef) :
    Tended (s.perform env (.release t')) ∧ ∀ t a, Shows s t a →
      Shows (s.perform env (.release t')) t (if t' = t then a.obey s.now .discard else a) := by
  have hfree : s.perform env (.release t') = { s with timers := s.timers.free t' } := by
    rw [perform, hs.pinned, if_neg List.not_mem_nil]
  rw [hfree]
  refine ⟨hs.retime (ObjectStore.next_free ..) fun t timer hget =>
    ⟨timer, ObjectStore.get?_of_free hget, rfl⟩, fun t a h => ?_⟩
  by_cases heq : t' = t
  · subst heq
    rw [if_pos rfl]
    refine ⟨h.calls, h.ready.obey .discard, by simpa using h.born, ?_⟩
    simp [ObjectStore.get?_free, Alarm.obey]
  · rw [if_neg heq]
    refine ⟨h.calls, h.ready, by simpa using h.born, ?_⟩
    rw [ObjectStore.get?_free, if_neg (Ne.symm heq), h.timer]

theorem perform_reset (henv : Quiet env) (hs : Tended s) (t' : TimerRef) :
    Tended (s.perform env (.reset t')) ∧ (s.perform env (.reset t')).now = s.now ∧
      ∀ t a, Shows s t a →
        Shows (s.perform env (.reset t')) t (if t' = t then a.obey s.now .restart else a) := by
  cases hget : s.timers.get? t' with
  | none =>
    have hself : s.perform env (.reset t') = s := by rw [perform, hget]
    rw [hself]
    refine ⟨hs, rfl, fun t a h => ?_⟩
    by_cases heq : t' = t
    · subst heq
      -- the alarm is discarded, and stays so
      have hd : a.discarded = true := by
        by_contra hd
        rw [h.timer, if_neg hd] at hget
        cases hget
      rw [if_pos rfl, Alarm.obey, if_pos hd]
      exact h
    · rw [if_neg heq]
      exact h
  | some timer =>
    obtain ⟨n, now, hperform, hros⟩ : ∃ n now, s.perform env (.reset t') =
        { s with
          steadyReads := n
          timers := s.timers.modify t' fun timer =>
            { timer with nextCall := now + timer.period, canceled := false } } ∧
        (timer.clockType = .ros → now = s.now) := by
      simp only [perform, hget, henv.rules.reset]
      cases hclock : timer.clockType with
      | ros => exact ⟨_, _, rfl, fun _ => hs.rosTime⟩
      | steady => exact ⟨_, _, rfl, fun h => by cases h⟩
    rw [hperform]
    refine ⟨hs.retime (ObjectStore.next_modify ..) fun t timer => period_of_modify fun _ => rfl,
      rfl, fun t a h => ?_⟩
    by_cases heq : t' = t
    · subst heq
      have hd : ¬ a.discarded = true := by
        intro hd
        rw [h.timer, if_pos hd] at hget
        cases hget
      rw [if_pos rfl]
      refine ⟨?_, h.ready.obey .restart, by simpa using h.born, ?_⟩
      · rw [Alarm.obey, if_neg hd]
        exact h.calls
      · have htimer := h.timer
        rw [hget, if_neg hd] at htimer
        cases htimer
        simp [ObjectStore.get?_modify, hget, Alarm.obey, hd, hros rfl]
    · rw [if_neg heq]
      refine ⟨h.calls, h.ready, by simpa using h.born, ?_⟩
      rw [ObjectStore.get?_modify, if_neg (Ne.symm heq), h.timer]

theorem now_createTimerOn (env : Env) (rnd : ℚ → ℚ) (c : ClockType) (r : TimerRequest) (s : Sim) :
    (s.createTimerOn env rnd c r).2.now = s.now := by
  obtain ⟨e, h⟩ | ⟨p, -, h⟩ := @createTimerOn_cases env rnd c r s
  · rw [h]
  · rw [h]
    cases c <;> rfl

/-- No order is nothing to hear. -/
theorem Shows.unordered {u : Sim} {a : Alarm} (h : Shows s t a) (hnow : u.now = s.now)
    (hu : Shows u t a) : Shows u t (a.elapse u.now) := by
  rw [hnow, h.ready.elapse_self]
  exact hu

/-- An order is heeded at once. -/
theorem Shows.ordered {u : Sim} {t' : TimerRef} {a : Alarm} {o : AlarmOrder} (h : Shows s t a)
    (hnow : u.now = s.now) (hu : Shows u t (if t' = t then a.obey s.now o else a)) :
    Shows u t ((((if t' = t then some o else none).map (s.now, ·)).toList.foldl Alarm.heed
      a).elapse u.now) := by
  rw [hnow]
  split at hu
  · next heq =>
    rw [if_pos heq]
    have hready := h.ready.obey o
    simpa [Alarm.heed, h.ready.elapse_self, hready.elapse_self] using hu
  · next hne =>
    rw [if_neg hne]
    simpa [h.ready.elapse_self] using hu

/-- **One event**, and what every timer hears of it. -/
theorem Tended.handle (henv : Quiet env) (hrnd : RelError doubleError rnd) (hs : Tended s)
    {ev : NodeEvent} (hsound : ev.Sound) :
    ∃ s', s.handle env rnd ev = some s' ∧ Tended s' ∧ s'.now = s.now + ev.elapses ∧
      ∀ t a, Shows s t a →
        Shows s' t ((((ev.order t).map (s.now, ·)).toList.foldl Alarm.heed a).elapse s'.now) := by
  cases ev with
  | createTimer r =>
    simp only [Sim.handle, createTimer]
    split
    · refine ⟨s, rfl, hs, (Int.add_zero _).symm, fun t a h => h.unordered rfl h⟩
    · obtain ⟨hs', hshow⟩ := tended_createTimerOn henv hrnd hs .ros hsound
      have hnow := now_createTimerOn env rnd .ros r s
      exact ⟨_, rfl, hs', hnow.trans (Int.add_zero _).symm,
        fun t a h => h.unordered hnow (hshow t a h)⟩
  | createWallTimer r =>
    obtain ⟨hs', hshow⟩ := tended_createTimerOn henv hrnd hs .steady hsound
    have hnow := now_createTimerOn env rnd .steady r s
    exact ⟨_, rfl, hs', hnow.trans (Int.add_zero _).symm,
      fun t a h => h.unordered hnow (hshow t a h)⟩
  | cancel t' =>
    obtain ⟨hs', hshow⟩ := perform_cancel henv hs t'
    exact ⟨_, rfl, hs', (Int.add_zero _).symm, fun t a h => h.ordered rfl (hshow t a h)⟩
  | reset t' =>
    obtain ⟨hs', hnow, hshow⟩ := perform_reset henv hs t'
    exact ⟨_, rfl, hs', hnow.trans (Int.add_zero _).symm,
      fun t a h => h.ordered hnow (hshow t a h)⟩
  | release t' =>
    obtain ⟨hs', hshow⟩ := @perform_release env s hs t'
    have hnow := (sameClock_perform env s (.release t')).now
    exact ⟨_, rfl, hs', hnow.trans (Int.add_zero _).symm,
      fun t a h => h.ordered hnow (hshow t a h)⟩
  | advance d =>
    obtain ⟨u, hu, hpinned, hreleased, hunder⟩ := hs.advance henv hsound
    refine ⟨u, by rw [Sim.handle, hu]; rfl, hunder.tended hs hpinned hreleased, hunder.now,
      fun t a h => ?_⟩
    rw [hunder.now]
    exact h.elapse hunder

end Sim

theorem elapses_nonneg {ev : NodeEvent} (h : ev.Sound) : 0 ≤ ev.elapses := by
  cases ev with
  | advance d => exact h
  | _ => exact Int.le_refl 0

theorem elapsed_nonneg {evs : List NodeEvent} (h : ∀ ev ∈ evs, ev.Sound) : 0 ≤ elapsed evs := by
  induction evs with
  | nil => exact Int.le_refl 0
  | cons ev evs ih =>
    have hfirst := elapses_nonneg (h ev List.mem_cons_self)
    have hrest := ih fun ev' hev' => h ev' (List.mem_cons_of_mem ev hev')
    rw [elapsed]
    omega

/-- Nothing is done before the story begins. -/
theorem le_of_mem_story {t : TimerRef} {evs : List NodeEvent} (h : ∀ ev ∈ evs, ev.Sound) {now : ℤ}
    {order : ℤ × AlarmOrder} (ho : order ∈ story t now evs) : now ≤ order.1 := by
  induction evs generalizing now with
  | nil => cases ho
  | cons ev evs ih =>
    rw [story, List.mem_append] at ho
    obtain ho | ho := ho
    · rw [Option.mem_toList, Option.map_eq_some_iff] at ho
      obtain ⟨o, -, rfl⟩ := ho
      exact Int.le_refl now
    · have hfirst := elapses_nonneg (h ev List.mem_cons_self)
      have hrest := ih (fun ev' hev' => h ev' (List.mem_cons_of_mem ev hev')) ho
      omega

namespace Sim

variable {env : Env} {rnd : ℚ → ℚ} {s : Sim} {t : TimerRef}

/-- **A run**, from any state on: the induction is on the events, and what passes in one of them
may as well pass with the next order. -/
theorem Tended.run (henv : Quiet env) (hrnd : RelError doubleError rnd) (hs : Tended s)
    {evs : List NodeEvent} (hsound : ∀ ev ∈ evs, ev.Sound) :
    ∃ s', Runs.run (Sim.handle env rnd) s evs = some s' ∧ Tended s' ∧
      s'.now = s.now + elapsed evs ∧
      ∀ t a, Shows s t a → Shows s' t (((story t s.now evs).foldl Alarm.heed a).elapse s'.now) := by
  induction evs generalizing s with
  | nil =>
    refine ⟨s, rfl, hs, (Int.add_zero _).symm, fun t a h => ?_⟩
    rw [story, List.foldl_nil, h.ready.elapse_self]
    exact h
  | cons ev evs ih =>
    have hrest : ∀ ev' ∈ evs, ev'.Sound := fun ev' hev' => hsound ev' (List.mem_cons_of_mem ev hev')
    obtain ⟨u, hu, htended, hnow, hshow⟩ := hs.handle henv hrnd (hsound ev List.mem_cons_self)
    obtain ⟨s', hs', htended', hnow', hshow'⟩ := ih htended hrest
    refine ⟨s', ?_, htended', ?_, fun t a h => ?_⟩
    · rw [Runs.run_cons, hu, Option.bind_some, hs']
    · rw [hnow', hnow, elapsed]
      ring
    · have hlast := hshow' t _ (hshow t a h)
      have hp : 0 < (((ev.order t).map (s.now, ·)).toList.foldl Alarm.heed a).period := by
        have hready := (hshow t a h).ready.period
        simpa using hready
      have hle : u.now ≤ s'.now := by
        have hnonneg := elapsed_nonneg hrest
        omega
      rw [Alarm.foldl_heed_elapse hp (fun o ho => le_of_mem_story hrest ho) hle] at hlast
      rw [story, List.foldl_append, ← hnow]
      exact hlast

/-- A timer that was just created. -/
theorem shows_createTimer (henv : Quiet env) (hrnd : RelError doubleError rnd) (hs : Tended s)
    {r : TimerRequest} (hsound : (NodeEvent.createTimer r).Sound) {s' : Sim}
    (h : s.createTimer env rnd r = (.ok t, s')) :
    s'.now = s.now ∧ Shows s' t (.wind s'.now r.period.nanoseconds r.autostart) := by
  rw [createTimer] at h
  split at h
  · cases h
  · obtain ⟨e, hcases⟩ | ⟨p, hcast, hcases⟩ := @createTimerOn_cases env rnd .ros r s
    · rw [hcases] at h
      cases h
    · rw [hcases] at h
      obtain ⟨rfl, hp⟩ := period_of_sound hrnd hsound hcast
      cases h
      refine ⟨rfl, hs.unborn _ (Nat.le_refl _), ⟨hp, fun _ => ?_, fun hd => by cases hd⟩, ?_, ?_⟩
      · exact lt_add_of_pos_right _ hp
      · simp [addTimer, readClock]
      · simp [addTimer, readClock, henv.rules.init, Alarm.wind, hs.rosTime]

/-- A node with a longer timer and one of the steady clock, and a creation that is refused. -/
def before : List NodeEvent :=
  [.createTimer ⟨true, true, true, ⟨5, 1⟩, true⟩, .advance ⟨7, 1⟩,
    .createWallTimer ⟨true, true, true, ⟨2, 1⟩, true⟩,
    .createTimer ⟨false, true, true, ⟨4, 1⟩, true⟩]

/-- A timer is cancelled, reset and let go of. -/
def afterwards (t : TimerRef) : List NodeEvent :=
  [.advance ⟨4, 1⟩, .cancel (t + 1), .advance ⟨5, 1⟩, .cancel t, .advance ⟨20, 1⟩, .reset t,
    .advance ⟨3, 1⟩, .release t, .advance ⟨9, 1⟩]

theorem sound_before_afterwards (t : TimerRef) :
    ∀ ev ∈ before ++ .createTimer ⟨true, true, true, ⟨3, 1⟩, true⟩ :: afterwards t, ev.Sound := by
  simp [before, afterwards, NodeEvent.Sound, Duration.nanoseconds, nanosecondsMax]

end Sim

end Rtest
