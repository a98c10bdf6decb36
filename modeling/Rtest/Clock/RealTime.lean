import Rtest.Clock.CallbackCounts
import Rtest.Clock.SteadyClock

/-!
# Real time in a simulated-time run

With callbacks that leave the timers alone, a wall timer that is asked whether it is ready answers
as the steady clock says: low readings never have it called, high readings have it called at once.
So the invocations are independent of real time only where no such timer is asked.

## Main results

- `indifferent_iff_simulatedOnly` — when a run does not depend on the readings of the steady clock
- `wallTimer_observed` — a node with one wall timer, under two schedules of real time
-/

namespace Rtest

/-- A timer without its due time, which is all that firing callbacks changes. -/
def Timer.fixed (t : Timer) : Timer := { t with nextCall := 0 }

theorem Timer.fixed_eq_iff {a b : Timer} : a.fixed = b.fixed ↔
    a.clockType = b.clockType ∧ a.period = b.period ∧ a.canceled = b.canceled := by
  cases a
  cases b
  simp [fixed]

variable {env : Env} {s : Sim}

namespace Sim

variable {u u' : Sim} {t : TimerRef} {timer : Timer} {c : ℕ} {P : Sim → Prop}

/-- Firing a callback is a matter of reading the steady clock, or of calling the timer. -/
theorem fire_cases (henv : Quiet env) (u : Sim) (t : TimerRef) :
    (∃ n, u.fireTimerCallback env t = { u with steadyReads := n }) ∨
      ∃ timer next n, u.timers.get? t = some timer ∧ next.fixed = timer.fixed ∧
        u.fireTimerCallback env t =
          { u with
            steadyReads := n
            timers := u.timers.modify t fun _ => next
            trace := u.trace ++ [(t, u.rosTime)] } := by
  have hkeeps : ∀ {timer next : Timer} {now : ℤ}, env.rcl.timerCall timer now = some next →
      next.fixed = timer.fixed := by
    intro timer next now hcall
    exact Timer.fixed_eq_iff.mpr (henv.rules.callKeeps _ _ _ hcall)
  cases hu : u.timers.get? t with
  | none => exact Or.inl ⟨u.steadyReads, fireTimerCallback_dead hu⟩
  | some timer =>
    cases hc : timer.clockType with
    | ros =>
      rw [fireTimerCallback_ros hu hc rfl]
      split
      · cases hcall : env.rcl.timerCall timer u.rosTime with
        | none => exact Or.inl ⟨u.steadyReads, rfl⟩
        | some next =>
          refine Or.inr ⟨timer, next, u.steadyReads, rfl, hkeeps hcall, ?_⟩
          simp only [executeCallback, henv.script, List.foldl_nil]
      · exact Or.inl ⟨u.steadyReads, rfl⟩
    | steady =>
      rw [fireTimerCallback_steady hu hc]
      split
      · cases hcall : env.rcl.timerCall timer (env.steady (u.steadyReads + 1)) with
        | none => exact Or.inl ⟨_, rfl⟩
        | some next =>
          refine Or.inr ⟨timer, next, u.steadyReads + 2, rfl, hkeeps hcall, ?_⟩
          simp only [executeCallback, henv.script, List.foldl_nil]
      · exact Or.inl ⟨_, rfl⟩

/-- A property of a node's timers and invocations that writes of the clock and the firing of a
callback keep. -/
structure Stable (env : Env) (P : Sim → Prop) : Prop where
  congr : ∀ {u v : Sim}, P u → v.timers = u.timers → v.registry = u.registry → v.node = u.node →
    v.trace = u.trace → P v
  overridden : ∀ {u : Sim} (tv : ℤ), P u → P (u.overridden env tv)
  fire : ∀ {u : Sim} (t : TimerRef), P u → P (u.fireTimerCallback env t)

theorem Stable.advanceNs (hP : Stable env P) (henv : Quiet env) (ns : ℤ) (h : P u) :
    ∃ u', TestClock.advanceNs env ns u = (.ok (), u') ∧ P u' ∧ u'.released = u.released := by
  have hmoved : P { u with now := u.now + ns } := hP.congr h rfl rfl rfl rfl
  exact ⟨_, TestClock.advanceNs_ok (henv.writes _) ns, hP.overridden _ hmoved, rfl⟩

theorem Stable.fireAll (hP : Stable env P) (l : List TimerRef) (h : P u) :
    P (u.fireAllTimerCallbacks env l) :=
  foldl_keeps l (fun _ t _ hv => hP.fire t hv) h

theorem released_fireAll (henv : Quiet env) (l : List TimerRef) (u : Sim) :
    (u.fireAllTimerCallbacks env l).released = u.released := by
  refine foldl_keeps (P := fun v => v.released = u.released) l (fun v t _ hv => ?_) rfl
  obtain ⟨n, heq⟩ | ⟨timer, next, n, -, -, heq⟩ := fire_cases henv v t
  · rw [heq, ← hv]
  · rw [heq, ← hv]

theorem Stable.advanceLoop (hP : Stable env P) (henv : Quiet env) {l : List TimerRef}
    {timeStep target start : ℤ} {fuel : ℕ} {r : Outcome} (h : P u) (hreleased : u.released = [])
    (hr : TriggeringTestClock.advanceLoop env l timeStep target fuel start u = some r) :
    P r.2.unpin := by
  have hend : ∀ {v : Sim}, P v → v.released = [] → P v.unpin := by
    intro v hv hreleased
    refine hP.congr hv ?_ rfl rfl rfl
    simp only [Sim.unpin, hreleased, List.foldl_nil]
  induction fuel generalizing start u with
  | zero =>
    rw [TriggeringTestClock.advanceLoop] at hr
    split at hr
    · cases hr
    · cases hr
      exact hend h hreleased
  | succ fuel ih =>
    by_cases hlt : start < target
    · obtain ⟨v, hv, hPv, hkept⟩ := hP.advanceNs henv (min timeStep (target - start)) h
      rw [TriggeringTestClock.advanceLoop_succ fuel hlt, TriggeringTestClock.advanceRound, hv] at hr
      refine ih (hP.fireAll l hPv) ?_ hr
      rw [released_fireAll henv, hkept, hreleased]
    · rw [TriggeringTestClock.advanceLoop_of_le _ (by omega)] at hr
      cases hr
      exact hend h hreleased

theorem Stable.resetClock (hP : Stable env P) (henv : Quiet env) (tv : ℤ) (h : P u) :
    P (TestClock.resetClock env tv u).2 := by
  rw [TestClock.resetClock_ok (henv.writes _)]
  exact hP.overridden tv h

theorem Stable.construct (hP : Stable env P) (henv : Quiet env) (iface : NodeInterfaces)
    (h : P u) : P (TestClock.construct env iface u).2 := by
  simp only [TestClock.construct]
  split
  · exact h
  · split
    · exact h
    · exact hP.resetClock henv 0 (hP.congr h rfl rfl rfl rfl)

/-- What a write and a callback keep, every operation keeps. -/
theorem Stable.attempt (hP : Stable env P) (henv : Quiet env) {op : ClockOp} (h : P u)
    (hop : u.attempt env op = some u') : P u' := by
  have hadvance : ∀ ns, P (TestClock.advanceNs env ns u).2 := by
    intro ns
    obtain ⟨v, hv, hPv, -⟩ := hP.advanceNs henv ns h
    rw [hv]
    exact hPv
  rw [Sim.attempt, Option.map_eq_some_iff] at hop
  obtain ⟨r, hr, rfl⟩ := hop
  cases op with
  | construct iface =>
    cases hr
    exact hP.construct henv iface h
  | constructTriggering iface =>
    cases hr
    have hbase := hP.construct henv iface h
    simp only [TriggeringTestClock.construct]
    split
    · next heq =>
      rw [heq] at hbase
      exact hbase
    · next heq =>
      rw [heq] at hbase
      split <;> exact hbase
  | advance d =>
    cases hr
    exact hadvance _
  | advanceMs milliseconds =>
    cases hr
    exact hadvance _
  | resetClock tv =>
    cases hr
    exact hP.resetClock henv tv h
  | advanceTriggering d =>
    simp only [perform?, TriggeringTestClock.advance, TriggeringTestClock.advanceWithin] at hr
    split at hr
    · cases hr
      exact hadvance _
    · rw [Option.map_eq_some_iff] at hr
      obtain ⟨r', hr', rfl⟩ := hr
      have hpinned : P { u with pinned := u.findTimers, released := [] } :=
        hP.congr h rfl rfl rfl rfl
      exact hP.advanceLoop henv hpinned rfl hr'

/-- Of the timers, only due times have changed. -/
structure Kept (s u : Sim) : Prop where
  timers : u.timers.map Timer.fixed = s.timers.map Timer.fixed
  registry : u.registry = s.registry
  node : u.node = s.node

theorem stable_kept (henv : Quiet env) : Stable env (Kept s) where
  congr := by
    intro u v h htimers hregistry hnode _
    exact ⟨htimers ▸ h.timers, hregistry.trans h.registry, hnode.trans h.node⟩
  overridden := by
    intro u tv h
    refine { h with timers := ?_ }
    rw [overridden, ObjectStore.map_map, ← h.timers]
    congr 1
    funext timer
    show Timer.fixed (ite _ _ _) = timer.fixed
    split
    · exact Timer.fixed_eq_iff.mpr (henv.rules.jumpKeeps _ _ timer)
    · rfl
  fire := by
    intro u t h
    obtain ⟨n, heq⟩ | ⟨timer, next, n, hu, hfixed, heq⟩ := fire_cases henv u t
    · rw [heq]
      exact { h with }
    · rw [heq]
      refine { h with timers := ?_ }
      rw [← h.timers]
      refine ObjectStore.map_modify_self fun a ha => ?_
      rw [hu] at ha
      cases ha
      exact hfixed

/-- The timers of the node are those it had, with their clocks, periods and cancellation. -/
theorem Kept.findTimers (h : Kept s u) : u.findTimers = s.findTimers := by
  simp only [Sim.findTimers, StaticMocksRegistry.findTimers, h.registry, h.node,
    ObjectStore.lock_of_map_eq h.timers]

theorem Kept.get? (h : Kept s u) (hu : u.timers.get? t = some timer) :
    ∃ timer₀, s.timers.get? t = some timer₀ ∧ timer.clockType = timer₀.clockType ∧
      timer.period = timer₀.period ∧ timer.canceled = timer₀.canceled := by
  obtain ⟨timer₀, hs, hfixed⟩ := ObjectStore.get?_of_map_eq h.timers hu
  exact ⟨timer₀, hs, Timer.fixed_eq_iff.mp hfixed⟩

theorem Kept.positive (h : Kept s u) (hs : Positive s) : Positive u := by
  intro t timer hu
  obtain ⟨timer₀, hs₀, -, hperiod, -⟩ := h.get? hu
  rw [hperiod]
  exact hs t timer₀ hs₀

/-- The timer is as `timer`, and its callback has been invoked `c` times. -/
def Untouched (t : TimerRef) (timer : Timer) (c : ℕ) (u : Sim) : Prop :=
  u.timers.get? t = some timer ∧ u.calls t = c

theorem untouched_overridden (hsteady : timer.clockType = .steady) (h : Untouched t timer c u)
    (tv : ℤ) : Untouched t timer c (u.overridden env tv) := by
  refine ⟨?_, h.2⟩
  simp [overridden, ObjectStore.get?_map, h.1, hsteady]

theorem untouched_fire_of_ne (henv : Quiet env) (h : Untouched t timer c u) {t' : TimerRef}
    (hne : t ≠ t') : Untouched t timer c (u.fireTimerCallback env t') := by
  obtain ⟨n, heq⟩ | ⟨other, next, n, -, -, heq⟩ := fire_cases henv u t'
  · rw [heq]
    exact h
  · rw [heq]
    refine ⟨?_, ?_⟩
    · simp only [ObjectStore.get?_modify, if_neg hne, h.1]
    · rw [← h.2]
      simp [calls, Ne.symm hne]

/-- Invocations are only ever added. -/
theorem lt_calls_fire (henv : Quiet env) (h : c < u.calls t) (t' : TimerRef) :
    c < (u.fireTimerCallback env t').calls t := by
  obtain ⟨n, heq⟩ | ⟨other, next, n, -, -, heq⟩ := fire_cases henv u t'
  · rw [heq]
    exact h
  · rw [heq]
    simp only [calls, List.countP_append] at h ⊢
    omega

theorem stable_lt_calls (henv : Quiet env) : Stable env fun u => c < u.calls t where
  congr := by
    intro u v h _ _ _ htrace
    rw [calls, htrace]
    exact h
  overridden := fun _ h => h
  fire := fun t' h => lt_calls_fire henv h t'

/-- Low readings: the wall timer is never called. -/
theorem stable_untouched (henv : Quiet env) (hsteady : timer.clockType = .steady)
    (hlow : ∀ i, env.steady i < timer.nextCall) : Stable env (Untouched t timer c) where
  congr := by
    intro u v h htimers _ _ htrace
    exact ⟨by rw [htimers, h.1], by rw [calls, htrace, ← h.2, calls]⟩
  overridden := fun tv h => untouched_overridden hsteady h tv
  fire := by
    intro u t' h
    by_cases heq : t = t'
    · subst heq
      have hready : ¬ env.rcl.timerIsReady timer (env.steady u.steadyReads) = true := by
        rw [henv.rules.ready]
        rintro ⟨-, hle⟩
        have hlt := hlow u.steadyReads
        omega
      rw [fireTimerCallback_steady h.1 hsteady, if_neg hready]
      exact h
    · exact untouched_fire_of_ne henv h heq

/-- High readings: a wall timer that is not cancelled is called when it is asked. -/
theorem lt_calls_fire_of_high (henv : Quiet env) (hsteady : timer.clockType = .steady)
    (hon : timer.canceled = false) (hp : 1 ≤ timer.period)
    (hhigh : ∀ i, timer.nextCall ≤ env.steady i) (h : Untouched t timer c u) :
    c < (u.fireTimerCallback env t).calls t := by
  have hready := (henv.rules.ready timer (env.steady u.steadyReads)).mpr ⟨hon, hhigh _⟩
  obtain ⟨k, hcall, -⟩ := henv.rules.call timer (env.steady (u.steadyReads + 1)) hon (by omega)
  rw [fireTimerCallback_steady h.1 hsteady, if_pos hready, hcall]
  simp only [executeCallback, henv.script, List.foldl_nil, calls, List.countP_append]
  have hcalls := h.2
  simp only [calls] at hcalls
  simp [hcalls]

theorem stable_untouched_or (henv : Quiet env) (hsteady : timer.clockType = .steady)
    (hon : timer.canceled = false) (hp : 1 ≤ timer.period)
    (hhigh : ∀ i, timer.nextCall ≤ env.steady i) :
    Stable env fun u => Untouched t timer c u ∨ c < u.calls t where
  congr := by
    intro u v h htimers hregistry hnode htrace
    refine h.imp (fun h => ?_) (fun h => ?_)
    · exact ⟨by rw [htimers, h.1], by rw [calls, htrace, ← h.2, calls]⟩
    · exact (stable_lt_calls henv).congr h htimers hregistry hnode htrace
  overridden := fun tv h => h.imp (fun h => untouched_overridden hsteady h tv) id
  fire := by
    rintro u t' (h | h)
    · by_cases heq : t = t'
      · subst heq
        exact Or.inr (lt_calls_fire_of_high henv hsteady hon hp hhigh h)
      · exact Or.inl (untouched_fire_of_ne henv h heq)
    · exact Or.inr (lt_calls_fire henv h t')

/-- High readings: one pass over the timers calls a wall timer that is among them. -/
theorem lt_calls_fireAll (henv : Quiet env)
    (hfire : ∀ u, Untouched t timer c u → c < (u.fireTimerCallback env t).calls t)
    {l : List TimerRef} (ht : t ∈ l) (h : Untouched t timer c u) :
    c < (u.fireAllTimerCallbacks env l).calls t := by
  induction l generalizing u with
  | nil => cases ht
  | cons t' l ih =>
    by_cases heq : t = t'
    · subst heq
      exact (stable_lt_calls henv).fireAll l (hfire u h)
    · have ht : t ∈ l := (List.mem_cons.mp ht).resolve_left heq
      exact ih ht (untouched_fire_of_ne henv h heq)

/-- High readings: an `advance` that moves the clock calls a wall timer of the node. -/
theorem lt_calls_advance (henv : Quiet env) (hsteady : timer.clockType = .steady)
    (hfire : ∀ u, Untouched t timer c u → c < (u.fireTimerCallback env t).calls t)
    (h : Untouched t timer c u ∨ c < u.calls t) (ht : t ∈ u.findTimers) {d : Duration}
    (hd : 0 < d.nanoseconds) (hop : u.attempt env (.advanceTriggering d) = some u') :
    c < u'.calls t := by
  obtain h | h := h
  · obtain ⟨fuel, hfuel⟩ : ∃ fuel, d.nanoseconds.toNat = fuel + 1 :=
      ⟨d.nanoseconds.toNat - 1, by omega⟩
    simp only [attempt, perform?, TriggeringTestClock.advance, TriggeringTestClock.advanceWithin]
      at hop
    split at hop
    · next hempty =>
      rw [List.isEmpty_iff.mp hempty] at ht
      cases ht
    · simp only [Option.map_map, Option.map_eq_some_iff] at hop
      obtain ⟨r, hr, rfl⟩ := hop
      rw [hfuel, TriggeringTestClock.advanceLoop_succ fuel hd, TriggeringTestClock.advanceRound,
        TestClock.advanceNs_ok (henv.writes _)] at hr
      refine (stable_lt_calls henv).advanceLoop henv ?_ ?_ hr
      · exact lt_calls_fireAll henv hfire ht (untouched_overridden hsteady h _)
      · exact released_fireAll henv _ _
  · exact (stable_lt_calls henv).attempt henv h hop

theorem Stable.run (hP : Stable env P) (henv : Quiet env) {ops : List ClockOp} (h : P s)
    (hrun : Runs.run (Sim.attempt env) s ops = some u) : P u :=
  Runs.run_invariant (fun _ _ _ h hop => hP.attempt henv h hop) h hrun

/-- Timers of positive period let every operation end. -/
theorem attempt_isSome (henv : Quiet env) (hpos : Positive u) (op : ClockOp) :
    ∃ u', u.attempt env op = some u' := by
  cases op with
  | advanceTriggering d =>
    have hregular : Regular env := by
      refine ⟨henv.writes, henv.rules, fun trace c p autostart h => ?_⟩
      rw [henv.script] at h
      cases h
    obtain ⟨u', hu', -⟩ := advanceTriggering_agree hregular hpos d
    exact ⟨u', by rw [attempt, perform?, hu']; rfl⟩
  | _ => exact ⟨_, rfl⟩

theorem run_attempt_isSome (henv : Quiet env) (hpos : Positive s) (ops : List ClockOp) :
    ∃ u, Runs.run (attempt env) s ops = some u := by
  induction ops using List.reverseRecOn with
  | nil => exact ⟨s, rfl⟩
  | append_singleton ops op ih =>
    obtain ⟨u, hu⟩ := ih
    have hkept := (stable_kept henv).run henv ⟨rfl, rfl, rfl⟩ hu
    obtain ⟨u', hu'⟩ := attempt_isSome henv (hkept.positive hpos) op
    exact ⟨u', Runs.run_concat_of hu hu'⟩

theorem quiet_withSteady (henv : Quiet env) (readings : ℕ → ℤ) : Quiet (env.withSteady readings) :=
  ⟨henv.writes, henv.rules, henv.script⟩

/-- High readings: a run with an `advance` that moves the clock calls a wall timer of the node. -/
theorem lt_calls_run (henv : Quiet env) (hsteady : timer.clockType = .steady)
    (hon : timer.canceled = false) (hp : 1 ≤ timer.period)
    (hhigh : ∀ i, timer.nextCall ≤ env.steady i) (hstart : Untouched t timer c s)
    (ht : t ∈ s.findTimers) {d : Duration} (hd : 0 < d.nanoseconds) {pre post : List ClockOp}
    (hrun : Runs.run (attempt env) s (pre ++ [.advanceTriggering d] ++ post) = some u) :
    c < u.calls t := by
  rw [List.append_assoc, Runs.run_append, Option.bind_eq_some_iff] at hrun
  obtain ⟨v, hv, hrest⟩ := hrun
  rw [List.singleton_append, Runs.run_cons, Option.bind_eq_some_iff] at hrest
  obtain ⟨v', hv', hpost⟩ := hrest
  have hbefore := (stable_untouched_or henv hsteady hon hp hhigh).run henv (Or.inl hstart) hv
  have hkept := (stable_kept henv).run henv ⟨rfl, rfl, rfl⟩ hv
  have hcalled := lt_calls_advance henv hsteady
    (fun u hu => lt_calls_fire_of_high henv hsteady hon hp hhigh hu) hbefore
    (by rwa [hkept.findTimers]) hd hv'
  exact (stable_lt_calls henv).run henv hcalled hpost

/-- If low and high readings give the same invocations, then no wall timer that could be ready is
asked. -/
theorem simulatedOnly_of_indifferent (henv : Quiet env) (hpos : Positive s) {ops : List ClockOp}
    (h : Indifferent env s ops) : Runs.EachStep (attempt env) (SimulatedOnly env) s ops := by
  intro pre op w hpre hw
  cases op with
  | advanceTriggering d =>
    intro hd t ht last hlast hsteady
    refine ⟨?_, fun trace => by rw [henv.script]; exact List.not_mem_nil⟩
    by_contra hon
    obtain ⟨post, rfl⟩ := hpre
    have hkept := (stable_kept henv).run henv ⟨rfl, rfl, rfl⟩ hw
    obtain ⟨timer, htimer, hclock, -, hcanceled⟩ := hkept.get? hlast
    rw [hclock] at hsteady
    rw [hcanceled, Bool.not_eq_true] at hon
    rw [hkept.findTimers] at ht
    have hstart : Untouched t timer (s.calls t) s := ⟨htimer, rfl⟩
    obtain ⟨own, hown⟩ := run_attempt_isSome henv hpos (pre ++ [.advanceTriggering d] ++ post)
    -- the run in which the timer is never due
    have hlowEnv := quiet_withSteady henv fun _ => timer.nextCall - 1
    obtain ⟨low, hlow⟩ := run_attempt_isSome hlowEnv hpos (pre ++ [.advanceTriggering d] ++ post)
    have hnever : Untouched t timer (s.calls t) low :=
      (stable_untouched hlowEnv hsteady fun _ => by show _ - 1 < _; omega).run hlowEnv hstart hlow
    -- the run in which it always is
    have hhighEnv := quiet_withSteady henv fun _ => timer.nextCall
    obtain ⟨high, hhigh⟩ := run_attempt_isSome hhighEnv hpos (pre ++ [.advanceTriggering d] ++ post)
    have honce : s.calls t < high.calls t :=
      lt_calls_run hhighEnv hsteady hon (hpos t timer htimer) (fun _ => Int.le_refl _) hstart ht hd
        hhigh
    have hlowTrace := h fun _ => timer.nextCall - 1
    have hhighTrace := h fun _ => timer.nextCall
    rw [hown, hlow] at hlowTrace
    rw [hown, hhigh] at hhighTrace
    cases hlowTrace with
    | some hlowTrace =>
      cases hhighTrace with
      | some hhighTrace =>
        have hsame : high.calls t = low.calls t := by
          rw [calls, calls, ← hlowTrace, hhighTrace]
        rw [hsame, hnever.2] at honce
        exact Nat.lt_irrefl _ honce
  | _ => trivial

end Sim

open Sim

/-- **When a run does not depend on real time.** If no `advance` that moves the clock asks a wall
timer that could be ready, then any other readings of the steady clock give the same invocations in
the same order at the same simulated times. With timers of positive period and callbacks that leave
the timers alone, this is so in no other case. -/
theorem indifferent_iff_simulatedOnly (hrules : TimerRules env.rcl) (ops : List ClockOp) :
    (Runs.EachStep (attempt env) (SimulatedOnly env) s ops → Indifferent env s ops) ∧
      (Quiet env → Positive s →
        (Indifferent env s ops ↔ Runs.EachStep (attempt env) (SimulatedOnly env) s ops)) := by
  refine ⟨indifferent_of_simulatedOnly hrules, fun henv hpos => ⟨?_, ?_⟩⟩
  · exact simulatedOnly_of_indifferent henv hpos
  · exact indifferent_of_simulatedOnly hrules

/-- A node whose clock was just taken over, with a timer of period 3 and a cancelled wall timer. -/
def canceledWallTimer : Sim :=
  ((newClock.perform plainEnv (.create .ros 3 true)).perform plainEnv
    (.create .steady 4 true)).perform plainEnv (.cancel 1)

theorem get?_canceledWallTimer {t : TimerRef} {timer : Timer}
    (h : canceledWallTimer.timers.get? t = some timer) :
    timer = ⟨.ros, 3, 3, false⟩ ∨ timer = ⟨.steady, 4, 4, true⟩ := by
  have ht := ObjectStore.lt_next_of_get? h
  obtain rfl | rfl : t = 0 ∨ t = 1 := Nat.le_one_iff_eq_zero_or_eq_one.mp (Nat.le_of_lt_succ ht)
  · exact Or.inl (Option.some.inj h).symm
  · exact Or.inr (Option.some.inj h).symm

theorem indifferent_canceledWallTimer :
    Indifferent plainEnv canceledWallTimer [.advanceTriggering ⟨7, 1⟩] ∧
      (Indifferent plainEnv canceledWallTimer [.advanceTriggering ⟨7, 1⟩] ↔
        Runs.EachStep (attempt plainEnv) (SimulatedOnly plainEnv) canceledWallTimer
          [.advanceTriggering ⟨7, 1⟩]) := by
  constructor
  · refine (indifferent_iff_simulatedOnly timerRules_referenceRcl _).1 ?_
    refine (Runs.eachStep_concat (Runs.run_nil canceledWallTimer)).mpr ⟨Runs.eachStep_nil, ?_⟩
    rintro - t - timer htimer hsteady
    obtain rfl | rfl := get?_canceledWallTimer htimer
    · cases hsteady
    · exact ⟨rfl, fun _ => List.not_mem_nil⟩
  · refine (indifferent_iff_simulatedOnly timerRules_referenceRcl _).2
      ⟨fun _ => rfl, timerRules_referenceRcl, fun _ => rfl⟩ ?_
    intro t timer htimer
    obtain rfl | rfl := get?_canceledWallTimer htimer <;> decide

/-- A node whose clock was just taken over, with a wall timer of 500 milliseconds. -/
def wallTimer : Sim := newClock.perform plainEnv (.create .steady 500000000 true)

/-- Advanced by its period, the timer is called if 500 milliseconds have gone by on the steady
clock, and is not if no time has. -/
theorem wallTimer_observed :
    (Runs.run (attempt plainEnv) wallTimer [.advanceTriggering ⟨500, 1000000⟩]).map Sim.trace =
        some [] ∧
      (Runs.run (attempt (plainEnv.withSteady fun _ => 500000000)) wallTimer
        [.advanceTriggering ⟨500, 1000000⟩]).map Sim.trace = some [(0, 500000000)] ∧
      ¬ Indifferent plainEnv wallTimer [.advanceTriggering ⟨500, 1000000⟩] := by
  have hstill : (Runs.run (attempt plainEnv) wallTimer [.advanceTriggering ⟨500, 1000000⟩]).map
      Sim.trace = some [] := by
    decide +kernel
  have hcalled : (Runs.run (attempt (plainEnv.withSteady fun _ => 500000000)) wallTimer
      [.advanceTriggering ⟨500, 1000000⟩]).map Sim.trace = some [(0, 500000000)] := by
    decide +kernel
  refine ⟨hstill, hcalled, fun h => ?_⟩
  obtain ⟨u, hu, hutrace⟩ := Option.map_eq_some_iff.mp hstill
  obtain ⟨v, hv, hvtrace⟩ := Option.map_eq_some_iff.mp hcalled
  have hsame := h fun _ => 500000000
  rw [hu, hv] at hsame
  cases hsame with
  | some hsame =>
    rw [hutrace, hvtrace] at hsame
    cases hsame

end Rtest
