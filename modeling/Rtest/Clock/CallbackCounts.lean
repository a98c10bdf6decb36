import Rtest.Foundations.Periodic
import Rtest.Clock.TestClock

/-!
# How often callbacks are called

An `advance` of the triggering clock steps by the shortest period among the node's timers, from
wherever the clock stands. No step is longer than any period, so a timer that was not overdue
before a step comes due at most once in it, and is not overdue after the callbacks are fired. The
calls of a timer are therefore its due times that have passed, one call for each.

## Main definitions

- `Sim.calls` — the invocations of a timer's callback
- `Sim.OnTime` — a timer was called once for each due time passed
-/

namespace Rtest

open TriggeringTestClock

variable {env : Env} {s u : Sim} {τ : ℤ} {t : TimerRef} {timer : Timer}

/-- The writes all succeed, rcl follows its rules, and callbacks leave the timers alone. -/
structure Quiet (env : Env) : Prop where
  writes : ∀ i, env.overrideOk i = true
  rules : TimerRules env.rcl
  script : ∀ trace, env.script trace = []

/-- What `is_ready()` says of the timer. -/
def Timer.isDue (timer : Timer) (now : ℤ) : Bool :=
  !timer.canceled && decide (timer.nextCall ≤ now)

/-- The timer after its turn, if it is not overdue by more than a period. -/
def Timer.fired (timer : Timer) (now : ℤ) : Timer :=
  if timer.isDue now then { timer with nextCall := timer.nextCall + timer.period } else timer

theorem Timer.isDue_iff {now : ℤ} :
    timer.isDue now = true ↔ timer.canceled = false ∧ timer.nextCall ≤ now := by
  simp [Timer.isDue]

namespace Sim

/-- How often the callback of a timer has been invoked. -/
def calls (s : Sim) (t : TimerRef) : ℕ := s.trace.countP fun call => call.1 = t

/-- From `s` to `u` the timer, which was as `timer` in `s`, was called `c` times. Its due time moved
on by as many periods, and with `slack` more is past `τ`; no call came before it was due. -/
structure Called (s u : Sim) (τ : ℤ) (slack : ℕ) (t : TimerRef) (timer : Timer) (c : ℕ) :
    Prop where
  calls : u.calls t = s.calls t + c
  found : u.timers.get? t =
    some { timer with nextCall := timer.nextCall + c * timer.period }
  canceled : timer.canceled = true → c = 0
  next : timer.canceled = false → τ < timer.nextCall + (c + slack) * timer.period
  last : timer.canceled = false → ∀ k : ℕ, c = k + 1 → timer.nextCall + k * timer.period ≤ τ

/-- The timer was called once for each due time up to `τ`, a due time of the last `slack` periods
apart. -/
def OnTime (s u : Sim) (τ : ℤ) (slack : ℕ) (t : TimerRef) (timer : Timer) : Prop :=
  ∃ c, Called s u τ slack t timer c

theorem OnTime.slack (h : OnTime s u τ 0 t timer) (hp : 1 ≤ timer.period) :
    OnTime s u τ 1 t timer := by
  obtain ⟨c, h⟩ := h
  refine ⟨c, h.calls, h.found, h.canceled, fun hc => ?_, h.last⟩
  have hnext := h.next hc
  push_cast at hnext ⊢
  linarith

/-- Only the timer itself and its calls matter. -/
theorem Called.congr {u' : Sim} {slack c : ℕ} (h : Called s u τ slack t timer c)
    (hget : u'.timers.get? t = u.timers.get? t) (hcalls : u'.calls t = u.calls t) :
    Called s u' τ slack t timer c where
  calls := by rw [hcalls, h.calls]
  found := by rw [hget, h.found]
  canceled := h.canceled
  next := h.next
  last := h.last

/-- A clock that moves on by no more than a period makes a timer at most one call late. -/
theorem OnTime.move (h : OnTime s u τ 0 t timer) {step : ℤ} (hstep : 0 ≤ step)
    (hle : step ≤ timer.period) : OnTime s u (τ + step) 1 t timer := by
  obtain ⟨c, h⟩ := h
  refine ⟨c, h.calls, h.found, h.canceled, fun hc => ?_, fun hc k hk => ?_⟩
  · have hnext := h.next hc
    push_cast at hnext ⊢
    linarith
  · have hlast := h.last hc k hk
    linarith

/-- Due: not cancelled, and the due time is not in the future. -/
def Due (timer : Timer) (now : ℤ) : Prop := timer.canceled = false ∧ timer.nextCall ≤ now

theorem fire_of_not_due (henv : Quiet env) (hget : u.timers.get? t = some timer)
    (hros : timer.clockType = .ros) (hdue : ¬ Due timer u.rosTime) :
    u.fireTimerCallback env t = u := by
  have hready : env.rcl.timerIsReady timer u.rosTime = false := by
    rw [Bool.eq_false_iff]
    exact fun h => hdue ((henv.rules.ready _ _).mp h)
  rw [fireTimerCallback_ros hget hros rfl, hready, if_neg Bool.false_ne_true]

/-- A timer that is due is called, and its due time moves to the next one not in the past. -/
theorem fire_of_due (henv : Quiet env) (hget : u.timers.get? t = some timer)
    (hros : timer.clockType = .ros) (hp : 1 ≤ timer.period) (hdue : Due timer u.rosTime) :
    ∃ k : ℕ, u.fireTimerCallback env t =
        { u with
          timers := u.timers.modify t fun _ =>
            { timer with nextCall := timer.nextCall + (k + 1) * timer.period }
          trace := u.trace ++ [(t, u.rosTime)] } ∧
      u.rosTime ≤ timer.nextCall + (k + 1) * timer.period ∧
      (k ≠ 0 → timer.nextCall + k * timer.period < u.rosTime) := by
  have hready := (henv.rules.ready timer u.rosTime).mpr hdue
  obtain ⟨k, hcall, hpast, hfirst⟩ := henv.rules.call timer u.rosTime hdue.1 (by omega)
  refine ⟨k, ?_, hpast, hfirst⟩
  rw [fireTimerCallback_ros hget hros rfl, if_pos hready, hcall]
  simp only [executeCallback, henv.script, List.foldl_nil]

/-- A live timer of the ROS clock with a positive period, not overdue by more than a period. -/
def Prompt (u : Sim) (t : TimerRef) : Prop :=
  ∃ timer, u.timers.get? t = some timer ∧ timer.clockType = .ros ∧ 1 ≤ timer.period ∧
    (timer.canceled = false → u.rosTime ≤ timer.nextCall + timer.period)

/-- The turn of a prompt timer: it is called if it is due, and its due time moves by one period. -/
theorem fire_prompt (henv : Quiet env) (h : Prompt u t)
    (hget : u.timers.get? t = some timer) :
    (u.fireTimerCallback env t).timers.get? t = some (timer.fired u.rosTime) ∧
      (u.fireTimerCallback env t).trace =
        u.trace ++ if timer.isDue u.rosTime then [(t, u.rosTime)] else [] := by
  obtain ⟨timer', hget', hros, hp, hlate⟩ := h
  obtain rfl : timer = timer' := Option.some.inj (hget.symm.trans hget')
  by_cases hdue : Due timer u.rosTime
  · obtain ⟨k, hfire, -, hskip⟩ := fire_of_due henv hget hros hp hdue
    -- no period is skipped
    obtain rfl : k = 0 := by
      by_contra hk
      have hlt := hskip hk
      have hmul : timer.period ≤ k * timer.period :=
        le_mul_of_one_le_left (by omega) (by omega)
      have hreading := hlate hdue.1
      omega
    have hisDue : timer.isDue u.rosTime = true := Timer.isDue_iff.mpr hdue
    rw [hfire, Timer.fired, if_pos hisDue, if_pos hisDue]
    refine ⟨?_, rfl⟩
    simp [ObjectStore.get?_modify, hget]
  · have hisDue : ¬ timer.isDue u.rosTime = true := fun h => hdue (Timer.isDue_iff.mp h)
    rw [fire_of_not_due henv hget hros hdue, Timer.fired, if_neg hisDue, if_neg hisDue]
    exact ⟨hget, (List.append_nil _).symm⟩

/-- Firing one callback brings its timer up to date. -/
theorem OnTime.fire (henv : Quiet env) (hros : timer.clockType = .ros) (hp : 1 ≤ timer.period)
    (hτ : u.rosTime = τ) (h : OnTime s u τ 1 t timer) :
    OnTime s (u.fireTimerCallback env t) τ 0 t timer := by
  obtain ⟨c, h⟩ := h
  have hprompt : Prompt u t := by
    refine ⟨_, h.found, hros, hp, fun hc => ?_⟩
    have hnext := h.next hc
    push_cast at hnext
    simp only
    linarith
  obtain ⟨hget, htrace⟩ := fire_prompt henv hprompt h.found
  rw [hτ] at hget htrace
  cases hdue : Timer.isDue { timer with nextCall := timer.nextCall + c * timer.period } τ with
  | true =>
    obtain ⟨hc, hle⟩ := Timer.isDue_iff.mp hdue
    rw [Timer.fired, if_pos hdue] at hget
    rw [if_pos hdue] at htrace
    refine ⟨c + 1, ?_, ?_, fun h => ?_, fun hc => ?_, fun _ k hk => ?_⟩
    · have hcalls := h.calls
      simp only [calls] at hcalls
      rw [calls, htrace, List.countP_append, hcalls]
      simp [calls, Nat.add_assoc]
    · rw [hget]
      congr 2
      push_cast
      ring
    · rw [h] at hc
      cases hc
    · have hnext := h.next hc
      push_cast at hnext ⊢
      linarith
    · obtain rfl : c = k := by omega
      exact hle
  | false =>
    rw [Timer.fired, hdue, if_neg Bool.false_ne_true] at hget
    rw [hdue, if_neg Bool.false_ne_true, List.append_nil] at htrace
    refine ⟨c, ?_, hget, h.canceled, fun hc => ?_, h.last⟩
    · rw [calls, htrace]
      exact h.calls
    · have hlt : ¬ timer.nextCall + c * timer.period ≤ τ := by
        intro hle
        have hready : Timer.isDue { timer with nextCall := timer.nextCall + c * timer.period } τ =
            true := Timer.isDue_iff.mpr ⟨hc, hle⟩
        exact Bool.false_ne_true (hdue.symm.trans hready)
      push_cast
      linarith

/-- Firing a callback concerns its own timer only, and the bookkeeping of the node stays. -/
structure Bookkeeping (u u' : Sim) : Prop where
  registry : u'.registry = u.registry
  node : u'.node = u.node
  alive : ∀ t, u'.timers.alive t = u.timers.alive t
  released : u'.released = u.released
  rosTime : u'.rosTime = u.rosTime
  now : u'.now = u.now

theorem Bookkeeping.refl (u : Sim) : Bookkeeping u u :=
  ⟨rfl, rfl, fun _ => rfl, rfl, rfl, rfl⟩

theorem Bookkeeping.trans {u' u'' : Sim} (h : Bookkeeping u u') (h' : Bookkeeping u' u'') :
    Bookkeeping u u'' :=
  ⟨h'.registry.trans h.registry, h'.node.trans h.node, fun t => (h'.alive t).trans (h.alive t),
    h'.released.trans h.released, h'.rosTime.trans h.rosTime, h'.now.trans h.now⟩

theorem fire_other (henv : Quiet env) (hget : u.timers.get? t = some timer)
    (hros : timer.clockType = .ros) (hp : 1 ≤ timer.period) :
    Bookkeeping u (u.fireTimerCallback env t) ∧ ∀ t', t' ≠ t →
      (u.fireTimerCallback env t).timers.get? t' = u.timers.get? t' ∧
        (u.fireTimerCallback env t).calls t' = u.calls t' := by
  by_cases hdue : Due timer u.rosTime
  · obtain ⟨k, hfire, -, -⟩ := fire_of_due henv hget hros hp hdue
    rw [hfire]
    refine ⟨⟨rfl, rfl, fun t' => ObjectStore.alive_modify .., rfl, rfl, rfl⟩, fun t' hne => ?_⟩
    refine ⟨by rw [ObjectStore.get?_modify, if_neg hne], ?_⟩
    simp [calls, Ne.symm hne]
  · rw [fire_of_not_due henv hget hros hdue]
    exact ⟨.refl u, fun _ _ => ⟨rfl, rfl⟩⟩

/-- What is asked of the timers of the state a run starts in. -/
structure Simulated (s : Sim) : Prop where
  clock : ∀ t ∈ s.findTimers, ∀ timer, s.timers.get? t = some timer → timer.clockType = .ros
  period : ∀ t ∈ s.findTimers, ∀ timer, s.timers.get? t = some timer → 1 ≤ timer.period

/-- Every timer the node had in `s` is on time in `u`. -/
def AllOnTime (s u : Sim) (τ : ℤ) (slack : ℕ) (l : List TimerRef) : Prop :=
  ∀ t ∈ l, ∀ timer, s.timers.get? t = some timer → OnTime s u τ slack t timer

/-- **One pass over the timers** brings every one of them up to date: the induction is on the part
of the list still to be fired, and a timer once up to date stays so. -/
theorem allOnTime_fireAll (henv : Quiet env) (hs : Simulated s) (l : List TimerRef)
    (hl : ∀ t ∈ l, t ∈ s.findTimers) (hτ : u.rosTime = τ)
    (h : AllOnTime s u τ 1 s.findTimers) :
    Bookkeeping u (u.fireAllTimerCallbacks env l) ∧
      AllOnTime s (u.fireAllTimerCallbacks env l) τ 1 s.findTimers ∧
      ∀ t ∈ s.findTimers, ∀ timer, s.timers.get? t = some timer →
        t ∈ l ∨ OnTime s u τ 0 t timer →
          OnTime s (u.fireAllTimerCallbacks env l) τ 0 t timer := by
  induction l generalizing u with
  | nil =>
    exact ⟨.refl u, h, fun t _ timer _ hdone => hdone.resolve_left List.not_mem_nil⟩
  | cons t₀ l ih =>
    have ht₀ := hl t₀ List.mem_cons_self
    obtain ⟨timer₀, htimer₀⟩ := alive_of_mem_findTimers ht₀
    have hros := hs.clock t₀ ht₀ timer₀ htimer₀
    have hp := hs.period t₀ ht₀ timer₀ htimer₀
    obtain ⟨c, hc⟩ := h t₀ ht₀ timer₀ htimer₀
    have hfired := OnTime.fire henv hros hp hτ (h t₀ ht₀ timer₀ htimer₀)
    obtain ⟨hbook, hother⟩ := fire_other henv hc.found hros hp
    have hkeep : ∀ slack t, t ≠ t₀ → ∀ timer, OnTime s u τ slack t timer →
        OnTime s (u.fireTimerCallback env t₀) τ slack t timer := by
      rintro slack t hne timer ⟨c, hc⟩
      obtain ⟨hget, hcalls⟩ := hother t hne
      exact ⟨c, hc.congr hget hcalls⟩
    have hnext : AllOnTime s (u.fireTimerCallback env t₀) τ 1 s.findTimers := by
      intro t ht timer htimer
      by_cases heq : t = t₀
      · subst heq
        rw [htimer₀] at htimer
        cases htimer
        exact hfired.slack hp
      · exact hkeep 1 t heq timer (h t ht timer htimer)
    obtain ⟨hbook', hall, hdone⟩ := ih (fun t ht => hl t (List.mem_cons_of_mem t₀ ht))
      (hbook.rosTime.trans hτ) hnext
    refine ⟨hbook.trans hbook', hall, fun t ht timer htimer hcase => ?_⟩
    by_cases heq : t = t₀
    · subst heq
      rw [htimer₀] at htimer
      cases htimer
      exact hdone t ht timer₀ htimer₀ (Or.inr hfired)
    · refine hdone t ht timer htimer (hcase.imp (fun hmem => ?_) (hkeep 0 t heq timer))
      exact (List.mem_cons.mp hmem).resolve_left heq

/-- The clocks read `τ`, the node's timers are those of `s`, and they are on time. -/
structure UpToDate (s u : Sim) (τ : ℤ) : Prop where
  now : u.now = τ
  rosTime : u.rosTime = τ
  timers : u.findTimers = s.findTimers
  onTime : AllOnTime s u τ 0 s.findTimers

theorem Bookkeeping.findTimers {u' : Sim} (h : Bookkeeping u u') :
    u'.findTimers = u.findTimers := by
  have hlock : u'.timers.lock = u.timers.lock := by
    funext p
    cases p with
    | none => rfl
    | some t => simp only [ObjectStore.lock, Option.filter, h.alive]
  simp only [Sim.findTimers, StaticMocksRegistry.findTimers, h.registry, h.node, hlock]

/-- A write of a later time changes nothing but the clocks. -/
theorem overridden_forward (henv : Quiet env) {tv : ℤ} (h : u.rosTime ≤ tv) :
    (u.overridden env tv).timers = u.timers := by
  apply ObjectStore.ext_get?
  · simp [overridden]
  · intro i
    rw [overridden, ObjectStore.get?_map]
    cases u.timers.get? i with
    | none => rfl
    | some timer => simp [henv.rules.jumpForward _ _ timer h]

/-- Moving the clocks forward leaves the timers and the invocations as they are. -/
theorem advanceNs_forward (henv : Quiet env) (h : UpToDate s u τ) {step : ℤ} (hstep : 0 ≤ step) :
    ∃ v, TestClock.advanceNs env step u = (.ok (), v) ∧ v.now = τ + step ∧ v.rosTime = τ + step ∧
      v.findTimers = s.findTimers ∧ v.timers = u.timers ∧ v.trace = u.trace ∧
      v.released = u.released := by
  have hle : u.rosTime ≤ u.now + step := by
    have hnow := h.now
    have hros := h.rosTime
    omega
  have htimers := @overridden_forward env { u with now := u.now + step } henv _ hle
  have htime : u.now + step = τ + step := by rw [h.now]
  refine ⟨_, TestClock.advanceNs_ok (henv.writes _) step, htime, htime, ?_, htimers, rfl, rfl⟩
  rw [← h.timers]
  simp only [Sim.findTimers, htimers]
  rfl

/-- **One round.** A step no longer than any period brings the timers up to date again. -/
theorem upToDate_round (henv : Quiet env) (hs : Simulated s) (h : UpToDate s u τ) {step : ℤ}
    (hstep : 0 ≤ step)
    (hle : ∀ t ∈ s.findTimers, ∀ timer, s.timers.get? t = some timer → step ≤ timer.period) :
    ∃ u', advanceRound env s.findTimers step u = (.ok (), u') ∧ UpToDate s u' (τ + step) ∧
      u'.released = u.released := by
  obtain ⟨v, hv, hnow, hros, hfound, htimers, htrace, hreleased⟩ := advanceNs_forward henv h hstep
  have hmoved : AllOnTime s v (τ + step) 1 s.findTimers := by
    intro t ht timer htimer
    obtain ⟨c, hc⟩ := (h.onTime t ht timer htimer).move hstep (hle t ht timer htimer)
    exact ⟨c, hc.congr (by rw [htimers]) (by rw [calls, calls, htrace])⟩
  obtain ⟨hbook, -, hdone⟩ := allOnTime_fireAll henv hs s.findTimers (fun _ ht => ht) hros hmoved
  rw [advanceRound, hv]
  refine ⟨_, rfl, ?_, hbook.released.trans hreleased⟩
  exact
    { now := hbook.now.trans hnow
      rosTime := hbook.rosTime.trans hros
      timers := hbook.findTimers.trans hfound
      onTime := fun t ht timer htimer => hdone t ht timer htimer (Or.inl ht) }

/-- What a running `advance` holds does not matter. -/
theorem UpToDate.repin (h : UpToDate s u τ) (pinned released : List TimerRef) :
    UpToDate s { u with pinned := pinned, released := released } τ where
  now := h.now
  rosTime := h.rosTime
  timers := h.timers
  onTime := by
    intro t ht timer htimer
    obtain ⟨c, hc⟩ := h.onTime t ht timer htimer
    exact ⟨c, hc.congr rfl rfl⟩

/-- The step of an `advance` is positive and no longer than any period. -/
theorem UpToDate.minPeriod (hs : Simulated s) (h : UpToDate s u τ) :
    1 ≤ getTimersMinPeriod s.findTimers u ∧
      ∀ t ∈ s.findTimers, ∀ timer, s.timers.get? t = some timer →
        getTimersMinPeriod s.findTimers u ≤ timer.period := by
  constructor
  · apply getTimersMinPeriod_pos
    intro t ht timer htimer
    obtain ⟨timer₀, htimer₀⟩ := alive_of_mem_findTimers ht
    obtain ⟨c, hc⟩ := h.onTime t ht timer₀ htimer₀
    rw [hc.found] at htimer
    cases htimer
    exact hs.period t ht timer₀ htimer₀
  · intro t ht timer htimer
    obtain ⟨c, hc⟩ := h.onTime t ht timer htimer
    have hmin := getTimersMinPeriod_le ht hc.found
    exact hmin

/-- **One `advance`** returns and brings the timers up to date at the time it was asked to reach. -/
theorem upToDate_advance (henv : Quiet env) (hs : Simulated s) (h : UpToDate s u τ) {d : Duration}
    (hd : 0 ≤ d.nanoseconds) :
    ∃ u', TriggeringTestClock.advance env d u = some (.ok (), u') ∧
      UpToDate s u' (τ + d.nanoseconds) := by
  simp only [TriggeringTestClock.advance, advanceWithin, h.timers]
  split
  · next hempty =>
    obtain ⟨v, hv, hnow, hros, hfound, -⟩ := advanceNs_forward henv h hd
    refine ⟨v, by rw [TestClock.advance, hv], hnow, hros, hfound, ?_⟩
    rw [List.isEmpty_iff.mp hempty]
    intro t ht
    cases ht
  · obtain ⟨hone, hle⟩ := h.minPeriod hs
    have hstart := h.repin s.findTimers []
    rw [← Int.add_zero τ] at hstart
    obtain ⟨u', hu', h', hreleased⟩ := advanceLoop_rule
      (P := fun start v => UpToDate s v (τ + start) ∧ v.released = []) hone
      (fun start v _ hv => by
        have hstep : 0 ≤ min (getTimersMinPeriod s.findTimers u) (d.nanoseconds - start) := by
          omega
        obtain ⟨v', hv', h', hreleased⟩ := upToDate_round henv hs hv.1 hstep
          (fun t ht timer htimer => Int.le_trans (Int.min_le_left _ _) (hle t ht timer htimer))
        exact ⟨v', hv', by rwa [← Int.add_assoc], hreleased.trans hv.2⟩)
      d.nanoseconds.toNat (by omega) hd ⟨hstart, rfl⟩
    refine ⟨u'.unpin, by rw [hu']; rfl, ?_⟩
    have hunpin : u'.unpin = { u' with pinned := [], released := [] } := by
      rw [unpin, hreleased]
      rfl
    rw [hunpin]
    exact h'.repin [] []

/-- The nanoseconds a sequence of durations adds up to. -/
def total (ds : List Duration) : ℤ := (ds.map Duration.nanoseconds).sum

/-- **A sequence of `advance` calls**: by induction over it, each call keeps the timers up to
date. -/
theorem upToDate_run (henv : Quiet env) (hs : Simulated s) (h : UpToDate s u τ)
    {ds : List Duration} (hds : ∀ d ∈ ds, 0 ≤ d.nanoseconds) :
    ∃ u', Runs.run (Sim.step env) u (ds.map .advanceTriggering) = some u' ∧
      UpToDate s u' (τ + total ds) := by
  induction ds generalizing u τ with
  | nil => exact ⟨u, rfl, by simpa [total] using h⟩
  | cons d ds ih =>
    obtain ⟨u₁, hu₁, h₁⟩ := upToDate_advance henv hs h (hds d List.mem_cons_self)
    obtain ⟨u', hu', h'⟩ := ih h₁ (fun d' hd' => hds d' (List.mem_cons_of_mem d hd'))
    refine ⟨u', ?_, ?_⟩
    · rw [List.map_cons, Runs.run_cons]
      simp only [step, perform?, hu₁, Option.bind_some]
      exact hu'
    · have htotal : total (d :: ds) = d.nanoseconds + total ds := by simp [total]
      rw [htotal, ← Int.add_assoc]
      exact h'

end Sim

open Sim

/-- **Callback counts are exact.** Let the live timers of a node be ROS timers with positive
periods, none of them overdue, and the clocks agree. Any sequence of `advance` calls with
non-negative durations returns, leaves both clocks at the sum, and has called a timer once for each
of its due times up to there (a cancelled timer not at all). -/
theorem callbacks_exact (henv : Quiet env) (hs : Simulated s) {T : ℤ} (hnow : s.now = T)
    (hros : s.rosTime = T)
    (hdue : ∀ t ∈ s.findTimers, ∀ timer, s.timers.get? t = some timer →
      timer.canceled = false → T < timer.nextCall)
    {ds : List Duration} (hds : ∀ d ∈ ds, 0 ≤ d.nanoseconds) :
    ∃ s', Runs.run (Sim.step env) s (ds.map .advanceTriggering) = some s' ∧
      s'.now = T + total ds ∧ s'.rosTime = T + total ds ∧
      ∀ t ∈ s.findTimers, ∀ timer, s.timers.get? t = some timer →
        s'.calls t = s.calls t +
          if timer.canceled then 0
          else Set.ncard {k : ℕ | timer.nextCall + k * timer.period ≤ T + total ds} := by
  have hstart : UpToDate s s T := by
    refine ⟨hnow, hros, rfl, fun t ht timer htimer => ⟨0, by simp, ?_, fun _ => rfl,
      fun hc => ?_, fun _ k hk => ?_⟩⟩
    · simpa using htimer
    · simpa using hdue t ht timer htimer hc
    · cases hk
  obtain ⟨s', hrun, h'⟩ := upToDate_run henv hs hstart hds
  refine ⟨s', hrun, h'.now, h'.rosTime, fun t ht timer htimer => ?_⟩
  obtain ⟨c, hc⟩ := h'.onTime t ht timer htimer
  rw [hc.calls]
  cases hcanceled : timer.canceled with
  | true => rw [hc.canceled hcanceled, if_pos rfl]
  | false =>
    have hp : 0 < timer.period := hs.period t ht timer htimer
    have hnext := hc.next hcanceled
    rw [if_neg Bool.false_ne_true, Periodic.ncard_events hp,
      Periodic.eventsUpTo_eq hp (by simpa using hnext) (hc.last hcanceled)]

/-- A node at time 10 with timers of period 3, due at 12, and of period 4, due at 13. -/
def twoTimers : Sim where
  timers := ⟨[some ⟨.ros, 3, 12, false⟩, some ⟨.ros, 4, 13, false⟩]⟩
  registry := (StaticMocksRegistry.empty.registerTimer 1 (some 0)).registerTimer 1 (some 1)
  node := 1
  rosTime := 10
  now := 10
  overrides := 0
  steadyReads := 0
  pinned := []
  released := []
  trace := []

theorem mem_twoTimers (h : t ∈ twoTimers.findTimers)
    (htimer : twoTimers.timers.get? t = some timer) :
    timer = ⟨.ros, 3, 12, false⟩ ∨ timer = ⟨.ros, 4, 13, false⟩ := by
  have hfind : twoTimers.findTimers = [0, 1] := by decide
  rw [hfind, List.mem_pair] at h
  rcases h with rfl | rfl
  · exact Or.inl (Option.some.inj htimer).symm
  · exact Or.inr (Option.some.inj htimer).symm

theorem simulated_twoTimers : Simulated twoTimers where
  clock := by
    intro t ht timer htimer
    rcases mem_twoTimers ht htimer with rfl | rfl <;> rfl
  period := by
    intro t ht timer htimer
    rcases mem_twoTimers ht htimer with rfl | rfl <;> decide

/-- Stepping by 3 from 10, the clock meets no due time of the timer of period 4. -/
theorem callbacks_exact_twoTimers :
    ∃ s', Runs.run (Sim.step plainEnv) twoTimers
        ([⟨7, 1⟩, ⟨0, 1000000⟩, ⟨4, 1⟩].map .advanceTriggering) = some s' ∧
      s'.now = 10 + total [⟨7, 1⟩, ⟨0, 1000000⟩, ⟨4, 1⟩] ∧
      s'.rosTime = 10 + total [⟨7, 1⟩, ⟨0, 1000000⟩, ⟨4, 1⟩] ∧
      ∀ t ∈ twoTimers.findTimers, ∀ timer, twoTimers.timers.get? t = some timer →
        s'.calls t = twoTimers.calls t +
          if timer.canceled then 0
          else Set.ncard {k : ℕ | timer.nextCall + k * timer.period ≤
            10 + total [⟨7, 1⟩, ⟨0, 1000000⟩, ⟨4, 1⟩]} :=
  callbacks_exact ⟨fun _ => rfl, timerRules_referenceRcl, fun _ => rfl⟩ simulated_twoTimers rfl rfl
    (by
      intro t ht timer htimer _
      rcases mem_twoTimers ht htimer with rfl | rfl <;> decide)
    (by decide)

end Rtest
