import Rtest.Clock.CallbackCounts
import Rtest.Clock.Rounds

/-!
# The timers an advance serves

`TriggeringTestClock.advance` takes one list of strong references when it is called and fires from
that list at every step. So what is served is the node's timers of that moment: one that a callback
releases stays on the list and fires, one that a callback creates is not on it and does not.

## Main definitions

- `Sim.Current` — registered, owned by somebody else, not cancelled, and due
- `ServesCurrent` — at every step just the current timers are invoked
- `ListStaysCurrent` — the list taken at the start is as good as a current one
-/

namespace Rtest

open TriggeringTestClock

variable {env : Env} {s u v w : Sim} {t : TimerRef} {timer : Timer} {d : Duration}

namespace Sim

/-- Not cancelled, and the due time is not after the reading of the timer's own clock. -/
def DueNow (env : Env) (u : Sim) (t : TimerRef) : Prop :=
  ∃ timer, u.timers.get? t = some timer ∧ timer.canceled = false ∧
    timer.nextCall ≤ (u.readClock env timer.clockType).1

/-- Registered for the node, owned by somebody other than the list of a running advance, and due. -/
def Current (env : Env) (u : Sim) (t : TimerRef) : Prop :=
  t ∈ u.findTimers ∧ t ∉ u.released ∧ DueNow env u t

/-- The turn of the timer invokes its callback. -/
def Invoked (env : Env) (u : Sim) (t : TimerRef) : Prop :=
  (u.fireTimerCallback env t).trace = u.trace ++ [(t, u.rosTime)]

instance (env : Env) (u : Sim) (t : TimerRef) : Decidable (Invoked env u t) :=
  inferInstanceAs (Decidable (_ = _))

theorem mem_findTimers : t ∈ u.findTimers ↔
    some t ∈ u.registry.getTimers u.node ∧ u.timers.alive t = true := by
  simp only [findTimers, StaticMocksRegistry.findTimers, List.mem_filterMap,
    ObjectStore.lock_eq_some_iff]
  constructor
  · rintro ⟨p, hp, rfl, halive⟩
    exact ⟨hp, halive⟩
  · rintro ⟨hp, halive⟩
    exact ⟨some t, hp, rfl, halive⟩

theorem trace_perform (u : Sim) (a : TimerAction) : (u.perform env a).trace = u.trace := by
  cases a with
  | create c period autostart => cases c <;> rfl
  | cancel t => rfl
  | reset t =>
    simp only [perform]
    split
    · rfl
    · next timer _ => cases timer.clockType <;> rfl
  | release t =>
    simp only [perform]
    split <;> rfl

theorem trace_executeCallback (t : TimerRef) (u : Sim) :
    (u.executeCallback env t).trace = u.trace ++ [(t, u.rosTime)] :=
  foldl_keeps (P := fun v => v.trace = u.trace ++ [(t, u.rosTime)]) _
    (fun v a _ hv => (trace_perform v a).trans hv) rfl

/-- A timer is invoked at its turn just if it is due then. -/
theorem invoked_iff_dueNow (hrules : TimerRules env.rcl)
    (hcall : ∀ t now, t.canceled = false → ∃ next, env.rcl.timerCall t now = some next)
    (u : Sim) (t : TimerRef) : Invoked env u t ↔ DueNow env u t := by
  have hidle : u.trace ≠ u.trace ++ [(t, u.rosTime)] := by simp
  cases hget : u.timers.get? t with
  | none => simp [Invoked, DueNow, fireTimerCallback_dead hget, hget]
  | some timer =>
    have hdue : DueNow env u t ↔
        env.rcl.timerIsReady timer (u.readClock env timer.clockType).1 = true := by
      rw [hrules.ready]
      simp [DueNow, hget]
    rw [hdue, Invoked]
    cases hclock : timer.clockType with
    | ros =>
      rw [fireTimerCallback_ros hget hclock rfl]
      simp only [readClock]
      split
      · next hready =>
        obtain ⟨next, hnext⟩ := hcall timer u.rosTime ((hrules.ready _ _).mp hready).1
        rw [hnext]
        simp [trace_executeCallback, hready]
      · next hready => simp [hready]
    | steady =>
      rw [fireTimerCallback_steady hget hclock]
      simp only [readClock]
      split
      · next hready =>
        obtain ⟨next, hnext⟩ := hcall timer (env.steady (u.steadyReads + 1))
          ((hrules.ready _ _).mp hready).1
        rw [hnext]
        simp [trace_executeCallback, hready]
      · next hready => simp [hready]

-- ════════════════════════════════════════════════════════════════════════
-- What an advance holds stays registered and alive
-- ════════════════════════════════════════════════════════════════════════

/-- The advance holds the timers `l`: they stay registered and alive, and what is released of them
stays on the list. -/
structure Holds (l : List TimerRef) (u : Sim) : Prop where
  pinned : u.pinned = l
  released : ∀ t ∈ u.released, t ∈ l
  found : ∀ t ∈ l, t ∈ u.findTimers

variable {l : List TimerRef}

/-- Where nothing is registered anew, liveness is all that matters. -/
theorem Holds.congr (h : Holds l u) (hpinned : v.pinned = u.pinned)
    (hreleased : ∀ t ∈ v.released, t ∈ l) (hregistry : v.registry = u.registry)
    (hnode : v.node = u.node)
    (halive : ∀ t ∈ l, u.timers.alive t = true → v.timers.alive t = true) : Holds l v where
  pinned := hpinned.trans h.pinned
  released := hreleased
  found := by
    intro t ht
    obtain ⟨hreg, hlive⟩ := mem_findTimers.mp (h.found t ht)
    rw [mem_findTimers, hregistry, hnode]
    exact ⟨hreg, halive t ht hlive⟩

theorem Holds.perform (h : Holds l u) (a : TimerAction) : Holds l (u.perform env a) := by
  cases a with
  | create c period autostart =>
    refine ⟨?_, ?_, fun t ht => ?_⟩
    · cases c <;> exact h.pinned
    · cases c <;> exact h.released
    · obtain ⟨hreg, hlive⟩ := mem_findTimers.mp (h.found t ht)
      rw [mem_findTimers]
      cases c <;> simp [Sim.perform, readClock, StaticMocksRegistry.getTimers_registerTimer, hreg,
        hlive]
  | cancel t =>
    exact h.congr rfl h.released rfl rfl (fun t' _ hlive => by simpa [Sim.perform] using hlive)
  | reset t =>
    simp only [Sim.perform]
    split
    · exact h
    · next timer _ =>
      cases timer.clockType <;>
        exact h.congr rfl h.released rfl rfl (fun t' _ hlive => by simpa [readClock] using hlive)
  | release t =>
    simp only [Sim.perform]
    split
    · next hpinned =>
      refine h.congr rfl (fun t' ht' => ?_) rfl rfl (fun _ _ hlive => hlive)
      rcases List.mem_cons.mp ht' with rfl | ht'
      · rw [← h.pinned]
        exact hpinned
      · exact h.released t' ht'
    · next hother =>
      refine h.congr rfl h.released rfl rfl (fun t' ht' hlive => ?_)
      have hne : t' ≠ t := by
        rintro rfl
        rw [h.pinned] at hother
        exact hother ht'
      simp [hlive, hne]

theorem Holds.executeCallback (h : Holds l u) (t : TimerRef) :
    Holds l (u.executeCallback env t) :=
  foldl_keeps _ (fun _ a _ hv => hv.perform a)
    (h.congr rfl h.released rfl rfl (fun _ _ hlive => hlive))

theorem Holds.fire (h : Holds l u) (t : TimerRef) : Holds l (u.fireTimerCallback env t) := by
  have hmodify : ∀ reads next, Holds l
      { u with steadyReads := reads, timers := u.timers.modify t fun _ => next } :=
    fun reads next => h.congr rfl h.released rfl rfl (fun t' _ hlive => by simpa using hlive)
  have hreads : ∀ reads, Holds l { u with steadyReads := reads } :=
    fun reads => h.congr rfl h.released rfl rfl (fun _ _ hlive => hlive)
  cases hget : u.timers.get? t with
  | none =>
    rw [fireTimerCallback_dead hget]
    exact h
  | some timer =>
    cases hclock : timer.clockType with
    | ros =>
      rw [fireTimerCallback_ros hget hclock rfl]
      split
      · split
        · exact h
        · exact (hmodify _ _).executeCallback t
      · exact h
    | steady =>
      rw [fireTimerCallback_steady hget hclock]
      split
      · split
        · exact hreads _
        · exact (hmodify _ _).executeCallback t
      · exact hreads _

theorem Holds.fireAll (h : Holds l u) (timers : List TimerRef) :
    Holds l (u.fireAllTimerCallbacks env timers) :=
  foldl_keeps timers (fun _ t _ hv => hv.fire t) h

theorem Holds.written (h : Holds l u) (step : ℤ) : Holds l (written env u step) :=
  h.congr rfl h.released rfl rfl (fun t _ hlive => by
    simpa [TriggeringTestClock.written, overridden] using hlive)

theorem mem_findTimers_written (u : Sim) (step : ℤ) (t : TimerRef) :
    t ∈ (TriggeringTestClock.written env u step).findTimers ↔ t ∈ u.findTimers := by
  simp [mem_findTimers, TriggeringTestClock.written, overridden]

theorem holds_held (s : Sim) : Holds s.findTimers (held s) where
  pinned := rfl
  released := by
    intro t ht
    cases ht
  found := fun _ ht => ht

/-- At every write of an advance over timers the list it took is held. -/
theorem holds_of_writes (hne : s.findTimers ≠ []) {step : ℤ} (h : Writes env d s v step) :
    Holds s.findTimers v := by
  rw [Writes, if_neg hne] at h
  obtain ⟨start, hreach, -⟩ := h
  refine hreach.induction (P := fun _ v => Holds s.findTimers v) (holds_held s) ?_
  intro start v u _ _ hround hv
  obtain ⟨-, rfl⟩ := advanceRound_ok_iff.mp hround
  exact (hv.written _).fireAll _

end Sim

open Sim

/-- At every step of the advance a timer is invoked just if it is current: those of the list at
their turn, any other at the end of the step. -/
structure ServesCurrent (env : Env) (d : Duration) (s : Sim) : Prop where
  listed : ∀ v step, Writes env d s v step → env.overrideOk v.overrides = true →
    ∀ earlier t later, s.findTimers = earlier ++ t :: later →
      let u := (written env v step).fireAllTimerCallbacks env earlier
      Invoked env u t ↔ Current env u t
  others : ∀ v step, Writes env d s v step → env.overrideOk v.overrides = true →
    ∀ t, t ∉ s.findTimers →
      ¬ Current env ((written env v step).fireAllTimerCallbacks env s.findTimers) t

/-- A timer of the list that is due at its turn is still owned by somebody else, and no timer that
joined the node since is due at the end of a step. -/
structure ListStaysCurrent (env : Env) (d : Duration) (s : Sim) : Prop where
  owned : ∀ v step, Writes env d s v step → env.overrideOk v.overrides = true →
    ∀ earlier t later, s.findTimers = earlier ++ t :: later →
      let u := (written env v step).fireAllTimerCallbacks env earlier
      DueNow env u t → t ∉ u.released
  joined : ∀ v step, Writes env d s v step → env.overrideOk v.overrides = true →
    let u := (written env v step).fireAllTimerCallbacks env s.findTimers
    ∀ t ∈ u.findTimers, t ∉ s.findTimers → ¬ DueNow env u t

/-- **When an advance serves the node's current timers.** With callbacks that create, cancel, reset
and release timers as they like, just the current timers are invoked at every step of an advance
exactly when no timer of the list is due at a turn after its release, and none that joined the node
during the advance is due at the end of a step. -/
theorem serves_current_iff (hrules : TimerRules env.rcl)
    (hcall : ∀ t now, t.canceled = false → ∃ next, env.rcl.timerCall t now = some next) :
    ServesCurrent env d s ↔ ListStaysCurrent env d s := by
  have hdue := invoked_iff_dueNow hrules hcall
  by_cases hempty : s.findTimers = []
  · -- nothing is found, so nothing is fired and nothing is current
    have hnone : ∀ v step t, Writes env d s v step →
        t ∉ ((written env v step).fireAllTimerCallbacks env s.findTimers).findTimers := by
      intro v step t hw ht
      rw [Writes, if_pos hempty] at hw
      rw [hempty] at ht
      have ht : t ∈ (written env v step).findTimers := ht
      rw [mem_findTimers_written, hw.1, hempty] at ht
      cases ht
    refine iff_of_true ⟨fun v step _ _ earlier t later hsplit => ?_, ?_⟩
      ⟨fun v step _ _ earlier t later hsplit => ?_, ?_⟩
    · rw [hempty] at hsplit
      simp at hsplit
    · exact fun v step hw _ t _ hcurrent => hnone v step t hw hcurrent.1
    · rw [hempty] at hsplit
      simp at hsplit
    · exact fun v step hw _ t ht => absurd ht (hnone v step t hw)
  · have hholds : ∀ v step timers, Writes env d s v step →
        Holds s.findTimers ((written env v step).fireAllTimerCallbacks env timers) :=
      fun v step timers hw => ((holds_of_writes hempty hw).written step).fireAll timers
    constructor
    · intro hserves
      refine ⟨fun v step hw hok earlier t later hsplit hnow => ?_, ?_⟩
      · have hturn := hserves.listed v step hw hok earlier t later hsplit
        exact (hturn.mp ((hdue _ t).mpr hnow)).2.1
      · intro v step hw hok u t ht hother hnow
        refine hserves.others v step hw hok t hother ⟨ht, fun hreleased => ?_, hnow⟩
        exact hother ((hholds v step _ hw).released t hreleased)
    · intro hstays
      refine ⟨fun v step hw hok earlier t later hsplit => ?_, ?_⟩
      · have hmem : t ∈ s.findTimers := by
          rw [hsplit]
          simp
        have hfound := (hholds v step earlier hw).found t hmem
        refine (hdue _ t).trans ?_
        constructor
        · exact fun hnow => ⟨hfound, hstays.owned v step hw hok earlier t later hsplit hnow, hnow⟩
        · exact fun hcurrent => hcurrent.2.2
      · rintro v step hw hok t hother ⟨ht, -, hnow⟩
        exact hstays.joined v step hw hok t ht hother hnow

/-- The callback of timer 0 releases timer 1. -/
def releasing : Env := { plainEnv with
  script := fun trace =>
    if trace.getLast?.any fun call => call.1 = 0 then [.release 1] else [] }

/-- The callback of timer 0 creates a timer of period 1. -/
def creating : Env := { plainEnv with
  script := fun trace =>
    if trace.getLast?.any fun call => call.1 = 0 then [.create .ros 1 true] else [] }

theorem referenceRcl_timerCall (t : Timer) (now : ℤ) (h : t.canceled = false) :
    ∃ next, referenceRcl.timerCall t now = some next := by
  simp [referenceRcl, h]

theorem serves_current_releasing :
    ServesCurrent releasing ⟨7, 1⟩ twoTimers ↔ ListStaysCurrent releasing ⟨7, 1⟩ twoTimers :=
  serves_current_iff timerRules_referenceRcl referenceRcl_timerCall

/-- At the first step timer 1 fires though the callback of timer 0 has just released it. With a
callback that creates a timer instead, the new one is due at 14, the advance comes to 16, and the
timer is not called. -/
theorem twoTimers_outdated :
    ¬ ServesCurrent releasing ⟨3, 1⟩ twoTimers ∧
    ∃ u, TriggeringTestClock.advance creating ⟨6, 1⟩ twoTimers = some (.ok (), u) ∧
      u.rosTime = 16 ∧ 2 ∈ u.findTimers ∧ u.timers.get? 2 = some ⟨.ros, 1, 14, false⟩ ∧
      u.trace = [(0, 13), (1, 13), (0, 16)] := by
  constructor
  · intro hserves
    have hstart : AtLoop releasing ⟨3, 1⟩ twoTimers 0 (held twoTimers) := .refl
    have hturn := hserves.listed _ _ (hstart.writes (by decide) (by decide)) rfl [0] 1 []
      (by decide)
    have hfired : Invoked releasing
        ((written releasing (held twoTimers) 3).fireAllTimerCallbacks releasing [0]) 1 := by
      decide
    exact (hturn.mp hfired).2.1 (by decide)
  · exact ⟨_, rfl, by decide, by decide, by decide, by decide⟩

end Rtest
