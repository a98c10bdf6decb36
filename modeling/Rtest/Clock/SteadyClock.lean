import Rtest.Clock.Consistency

/-!
# Runs under other readings of the steady clock

A wall timer reads the steady clock, whose readings a test does not control. Two runs that differ
in these readings only are compared on their views: all of the state but the due times of wall
timers. What a run does depends on more than its view only where a wall timer that is not cancelled
is asked whether it is ready.

## Main definitions

- `Sim.SameView` — the states differ in the due times of wall timers at most
- `Sim.SimulatedOnly` — an operation that asks no wall timer that could be ready
- `Sim.Indifferent` — the invocations do not depend on the steady clock

## Main results

- `Sim.indifferent_of_simulatedOnly` — a run of such operations does not depend on the steady clock
-/

namespace Rtest

variable {env : Env} {readings : ℕ → ℤ} {s s' u v : Sim}

/-- The environment with other readings of the steady clock. -/
def Env.withSteady (env : Env) (readings : ℕ → ℤ) : Env := { env with steady := readings }

@[simp] theorem Env.withSteady_rcl (env : Env) (readings : ℕ → ℤ) :
    (env.withSteady readings).rcl = env.rcl := rfl

/-- A timer without what depends on real time. -/
def Timer.simulated (t : Timer) : Timer :=
  { t with nextCall := if t.clockType = .ros then t.nextCall else 0 }

theorem Timer.simulated_eq_iff {a b : Timer} : a.simulated = b.simulated ↔
    a.clockType = b.clockType ∧ a.period = b.period ∧ a.canceled = b.canceled ∧
      (a.clockType = .ros → a.nextCall = b.nextCall) := by
  cases a with
  | mk c p n x =>
    cases b with
    | mk c' p' n' x' => cases c <;> cases c' <;> simp [simulated]; tauto

/-- Of a timer of the ROS clock everything is seen. -/
theorem Timer.eq_of_simulated_eq {a b : Timer} (h : a.simulated = b.simulated)
    (hros : a.clockType = .ros) : a = b := by
  obtain ⟨hclock, hperiod, hcanceled, hnext⟩ := simulated_eq_iff.mp h
  cases a
  cases b
  obtain rfl := hnext hros
  subst hclock hperiod hcanceled
  rfl

theorem optionRel_mono {α β : Type*} {R R' : α → β → Prop} (h : ∀ a b, R a b → R' a b)
    {o : Option α} {o' : Option β} (ho : Option.Rel R o o') : Option.Rel R' o o' := by
  cases ho with
  | none => exact .none
  | some hab => exact .some (h _ _ hab)

theorem optionRel_map {α β γ δ : Type*} {R : α → β → Prop} {R' : γ → δ → Prop} {f : α → γ}
    {g : β → δ} {o : Option α} {o' : Option β} (ho : Option.Rel R o o')
    (h : ∀ a b, R a b → R' (f a) (g b)) : Option.Rel R' (o.map f) (o'.map g) := by
  cases ho with
  | none => exact .none
  | some hab => exact .some (h _ _ hab)

namespace Sim

/-- The states are the same but for the due times of wall timers. -/
structure SameView (u v : Sim) : Prop where
  timers : u.timers.map Timer.simulated = v.timers.map Timer.simulated
  registry : u.registry = v.registry
  node : u.node = v.node
  rosTime : u.rosTime = v.rosTime
  now : u.now = v.now
  overrides : u.overrides = v.overrides
  pinned : u.pinned = v.pinned
  released : u.released = v.released
  trace : u.trace = v.trace

theorem SameView.refl (u : Sim) : SameView u u := ⟨rfl, rfl, rfl, rfl, rfl, rfl, rfl, rfl, rfl⟩

/-- A timer in one view is there in the other. -/
theorem SameView.get? (h : SameView u v) {t : TimerRef} {timer : Timer}
    (ht : u.timers.get? t = some timer) :
    ∃ timer', v.timers.get? t = some timer' ∧ timer.simulated = timer'.simulated :=
  ObjectStore.get?_of_map_eq h.timers ht

theorem SameView.get?_none (h : SameView u v) {t : TimerRef} (ht : u.timers.get? t = none) :
    v.timers.get? t = none := by
  cases hv : v.timers.get? t with
  | none => rfl
  | some timer =>
    obtain ⟨timer', ht', -⟩ := ObjectStore.get?_of_map_eq h.timers.symm hv
    rw [ht] at ht'
    cases ht'

/-- What a callback does to the timers is seen alike in both runs. -/
theorem sameView_perform (hrules : TimerRules env.rcl) (h : SameView u v) (a : TimerAction) :
    SameView (u.perform env a) (v.perform (env.withSteady readings) a) := by
  cases a with
  | create c period autostart =>
    have hnext := ObjectStore.next_of_map_eq h.timers
    cases c with
    | ros =>
      refine { h with timers := ?_, registry := ?_ }
      · simp only [perform, readClock, Env.withSteady, ObjectStore.map_alloc, h.timers, h.rosTime]
      · simp only [perform, readClock, h.registry, h.node, hnext]
    | steady =>
      refine { h with timers := ?_, registry := ?_ }
      · simp only [perform, readClock, Env.withSteady, ObjectStore.map_alloc, h.timers, hrules.init]
        rfl
      · simp only [perform, readClock, h.registry, h.node, hnext]
  | cancel t =>
    refine { h with timers := ObjectStore.map_modify_eq h.timers fun a b _ _ hab => ?_ }
    simp only [Timer.simulated_eq_iff] at hab
    simp only [Env.withSteady, hrules.cancel, Timer.simulated_eq_iff]
    exact ⟨hab.1, hab.2.1, trivial, hab.2.2.2⟩
  | reset t =>
    cases hu : u.timers.get? t with
    | none =>
      simp only [perform, hu, h.get?_none hu]
      exact h
    | some timer =>
      obtain ⟨timer', hv, hsame⟩ := h.get? hu
      obtain ⟨hclock, -⟩ := Timer.simulated_eq_iff.mp hsame
      have hkeep : ∀ now now' : ℤ, (timer.clockType = .ros → now = now') →
          (u.timers.modify t fun timer => env.rcl.timerReset timer now).map Timer.simulated =
            (v.timers.modify t fun timer => env.rcl.timerReset timer now').map
              Timer.simulated := by
        intro now now' hnow
        refine ObjectStore.map_modify_eq h.timers fun a b ha _ hab => ?_
        rw [hu] at ha
        cases ha
        simp only [Timer.simulated_eq_iff] at hab
        simp only [hrules.reset, Timer.simulated_eq_iff]
        refine ⟨hab.1, hab.2.1, trivial, fun hros => ?_⟩
        rw [hnow hros, hab.2.1]
      simp only [perform, hu, hv, ← hclock]
      cases hc : timer.clockType with
      | ros => exact { h with timers := hkeep _ _ fun _ => h.rosTime }
      | steady => exact { h with timers := hkeep _ _ fun hros => by rw [hc] at hros; cases hros }
  | release t =>
    by_cases ht : t ∈ u.pinned
    · have ht' : t ∈ v.pinned := h.pinned ▸ ht
      simp only [perform, if_pos ht, if_pos ht']
      exact { h with released := by rw [h.released] }
    · have ht' : t ∉ v.pinned := h.pinned ▸ ht
      simp only [perform, if_neg ht, if_neg ht']
      exact { h with timers := by rw [ObjectStore.map_free, ObjectStore.map_free, h.timers] }

/-- No wall timer of the list can become ready: it is cancelled, and no callback resets it. -/
def Disarmed (env : Env) (l : List TimerRef) (u : Sim) : Prop :=
  ∀ t ∈ l, t < u.timers.next ∧ ∀ timer, u.timers.get? t = some timer →
    timer.clockType = .steady → timer.canceled = true ∧ ∀ trace, .reset t ∉ env.script trace

variable {l : List TimerRef}

/-- A change of one timer that keeps its clock, and a wall timer of the list cancelled. -/
theorem Disarmed.of_modify (h : Disarmed env l u) {t : TimerRef} {f : Timer → Timer}
    (hs' : s'.timers = u.timers.modify t f)
    (hf : ∀ timer, u.timers.get? t = some timer → (f timer).clockType = timer.clockType ∧
      (t ∈ l → timer.clockType = .steady → timer.canceled = true → (f timer).canceled = true)) :
    Disarmed env l s' := by
  intro t' ht'
  obtain ⟨hlt, hcanceled⟩ := h t' ht'
  refine ⟨by simpa [hs'] using hlt, fun timer' htimer' hsteady => ?_⟩
  rw [hs'] at htimer'
  obtain ⟨timer, htimer, rfl | ⟨rfl, rfl⟩⟩ := ObjectStore.get?_of_modify htimer'
  · exact hcanceled timer' htimer hsteady
  · obtain ⟨hclock, hkeep⟩ := hf timer htimer
    rw [hclock] at hsteady
    obtain ⟨hc, hreset⟩ := hcanceled timer htimer hsteady
    exact ⟨hkeep ht' hsteady hc, hreset⟩

theorem disarmed_perform (hrules : TimerRules env.rcl) (h : Disarmed env l u) {a : TimerAction}
    {trace : List (TimerRef × ℤ)} (ha : a ∈ env.script trace) :
    Disarmed env l (u.perform env a) := by
  cases a with
  | create c period autostart =>
    intro t ht
    obtain ⟨hlt, hcanceled⟩ := h t ht
    simp only [perform, timers_readClock, ObjectStore.next_alloc, ObjectStore.get?_alloc]
    refine ⟨Nat.lt_succ_of_lt hlt, fun timer htimer => ?_⟩
    rw [if_neg (Nat.ne_of_lt hlt)] at htimer
    exact hcanceled timer htimer
  | cancel t =>
    refine h.of_modify rfl fun timer _ => ?_
    rw [hrules.cancel]
    exact ⟨rfl, fun _ _ _ => rfl⟩
  | reset t =>
    simp only [perform]
    split
    · exact h
    · next timer htimer =>
      have htimers := @timers_readClock env timer.clockType u
      refine h.of_modify (by rw [htimers]) fun timer htimer => ?_
      rw [hrules.reset]
      -- a wall timer of the list is not one that is reset
      refine ⟨rfl, fun ht hsteady _ => ?_⟩
      exact absurd ha (((h t ht).2 timer htimer hsteady).2 trace)
  | release t =>
    simp only [perform]
    split
    · exact h
    · intro t' ht'
      obtain ⟨hlt, hcanceled⟩ := h t' ht'
      refine ⟨by simpa using hlt, fun timer htimer => ?_⟩
      exact hcanceled timer (ObjectStore.get?_of_free htimer)

/-- Two runs of a list of steps end related, if each step keeps them so. -/
theorem foldl_rel {α : Type} {R : Sim → Sim → Prop} {f g : Sim → α → Sim} (l : List α)
    (hf : ∀ u v a, a ∈ l → R u v → R (f u a) (g v a)) (h : R u v) :
    R (l.foldl f u) (l.foldl g v) := by
  induction l generalizing u v with
  | nil => exact h
  | cons a l ih =>
    refine ih (fun u v b hb => hf u v b (List.mem_cons_of_mem a hb)) ?_
    exact hf u v a List.mem_cons_self h

/-- The two runs look alike, and no wall timer of the list can become ready. -/
def InStep (env : Env) (l : List TimerRef) (u v : Sim) : Prop :=
  SameView u v ∧ Disarmed env l u

theorem inStep_executeCallback (hrules : TimerRules env.rcl) (h : InStep env l u v)
    (t : TimerRef) :
    InStep env l (u.executeCallback env t) (v.executeCallback (env.withSteady readings) t) := by
  obtain ⟨hview, hdisarmed⟩ := h
  have htrace : u.trace ++ [(t, u.rosTime)] = v.trace ++ [(t, v.rosTime)] := by
    rw [hview.trace, hview.rosTime]
  simp only [executeCallback, Env.withSteady, ← htrace]
  refine foldl_rel (R := InStep env l) _ (fun u v a ha h => ?_)
    ⟨{ hview with trace := rfl }, hdisarmed⟩
  exact ⟨sameView_perform hrules h.1 a, disarmed_perform hrules h.2 ha⟩

theorem not_ready_of_canceled (hrules : TimerRules env.rcl) {timer : Timer}
    (h : timer.canceled = true) (now : ℤ) : env.rcl.timerIsReady timer now = false := by
  rw [Bool.eq_false_iff]
  intro hready
  have hon := ((hrules.ready timer now).mp hready).1
  rw [h] at hon
  cases hon

theorem inStep_fireTimerCallback (hrules : TimerRules env.rcl) (h : InStep env l u v)
    {t : TimerRef} (ht : t ∈ l) :
    InStep env l (u.fireTimerCallback env t)
      (v.fireTimerCallback (env.withSteady readings) t) := by
  obtain ⟨hview, hdisarmed⟩ := h
  cases hu : u.timers.get? t with
  | none =>
    rw [fireTimerCallback_dead hu, fireTimerCallback_dead (hview.get?_none hu)]
    exact ⟨hview, hdisarmed⟩
  | some timer =>
    obtain ⟨timer', hv, hsame⟩ := hview.get? hu
    obtain ⟨hclock, -, hcanceled, -⟩ := Timer.simulated_eq_iff.mp hsame
    cases hc : timer.clockType with
    | steady =>
      have hoff := ((hdisarmed t ht).2 timer hu hc).1
      have hready := not_ready_of_canceled hrules hoff (env.steady u.steadyReads)
      have hready' := not_ready_of_canceled hrules (hcanceled ▸ hoff)
        ((env.withSteady readings).steady v.steadyReads)
      rw [fireTimerCallback_steady hu hc, fireTimerCallback_steady hv (hclock ▸ hc),
        Env.withSteady_rcl, if_neg (Bool.eq_false_iff.mp hready),
        if_neg (Bool.eq_false_iff.mp hready')]
      exact ⟨{ hview with }, hdisarmed⟩
    | ros =>
      obtain rfl := Timer.eq_of_simulated_eq hsame hc
      rw [fireTimerCallback_ros hu hc hview.rosTime, fireTimerCallback_ros hv hc rfl,
        Env.withSteady_rcl]
      by_cases hready : env.rcl.timerIsReady timer v.rosTime = true
      · rw [if_pos hready, if_pos hready]
        cases hcall : env.rcl.timerCall timer v.rosTime with
        | none => exact ⟨hview, hdisarmed⟩
        | some next =>
          obtain ⟨hkind, -⟩ := hrules.callKeeps _ _ _ hcall
          have hcalled : InStep env l { u with timers := u.timers.modify t fun _ => next }
              { v with timers := v.timers.modify t fun _ => next } := by
            refine ⟨{ hview with timers := ?_ }, hdisarmed.of_modify rfl fun timer' htimer' => ?_⟩
            · exact ObjectStore.map_modify_eq hview.timers fun _ _ _ _ _ => rfl
            · rw [hu] at htimer'
              cases htimer'
              refine ⟨hkind, fun _ hsteady => ?_⟩
              rw [hc] at hsteady
              cases hsteady
          exact inStep_executeCallback hrules hcalled t
      · rw [if_neg hready, if_neg hready]
        exact ⟨hview, hdisarmed⟩

theorem inStep_fireAll (hrules : TimerRules env.rcl) (h : InStep env l u v) :
    InStep env l (u.fireAllTimerCallbacks env l)
      (v.fireAllTimerCallbacks (env.withSteady readings) l) :=
  foldl_rel l (fun _ _ _ ht h => inStep_fireTimerCallback hrules h ht) h

/-- A write of the node's clock is seen alike in both runs. -/
theorem sameView_overridden (h : SameView u v) (tv : ℤ) :
    SameView (u.overridden env tv) (v.overridden (env.withSteady readings) tv) := by
  refine { h with timers := ?_, rosTime := rfl, overrides := ?_ }
  · refine ObjectStore.map_map_eq h.timers fun a b hab => ?_
    by_cases hros : a.clockType = .ros
    · obtain rfl := Timer.eq_of_simulated_eq hab hros
      simp only [hros, if_true, h.rosTime, Env.withSteady_rcl]
    · have hros' : b.clockType ≠ .ros := (Timer.simulated_eq_iff.mp hab).1 ▸ hros
      simp only [hros, hros', if_false, hab]
  · show u.overrides + 1 = v.overrides + 1
    rw [h.overrides]

theorem disarmed_overridden (hrules : TimerRules env.rcl) (h : Disarmed env l u) (tv : ℤ) :
    Disarmed env l (u.overridden env tv) := by
  intro t ht
  obtain ⟨hlt, hoff⟩ := h t ht
  refine ⟨by simpa [overridden] using hlt, fun timer htimer hsteady => ?_⟩
  simp only [overridden, ObjectStore.get?_map, Option.map_eq_some_iff] at htimer
  obtain ⟨old, hold, rfl⟩ := htimer
  split at hsteady
  · next hros =>
    rw [(hrules.jumpKeeps _ _ old).1, hros] at hsteady
    cases hsteady
  · next hros =>
    rw [if_neg hros]
    exact hoff old hold hsteady

/-- Two outcomes: the same end, in related states. -/
def SameOutcome (R : Sim → Sim → Prop) (r r' : Outcome) : Prop := r.1 = r'.1 ∧ R r.2 r'.2

theorem sameView_resetClock (h : SameView u v) (tv : ℤ) :
    SameOutcome SameView (TestClock.resetClock env tv u)
      (TestClock.resetClock (env.withSteady readings) tv v) := by
  have hwrite : (env.withSteady readings).overrideOk v.overrides = env.overrideOk u.overrides := by
    rw [h.overrides]
    rfl
  cases hok : env.overrideOk u.overrides with
  | true =>
    rw [TestClock.resetClock_ok hok, TestClock.resetClock_ok (hwrite.trans hok)]
    exact ⟨rfl, sameView_overridden h tv⟩
  | false =>
    rw [TestClock.resetClock_error hok, TestClock.resetClock_error (hwrite.trans hok)]
    exact ⟨rfl, { h with overrides := congrArg (· + 1) h.overrides }⟩

theorem inStep_advanceNs (hrules : TimerRules env.rcl) (readings : ℕ → ℤ) (h : InStep env l u v)
    (ns : ℤ) :
    SameOutcome (InStep env l) (TestClock.advanceNs env ns u)
      (TestClock.advanceNs (env.withSteady readings) ns v) := by
  obtain ⟨hview, hdisarmed⟩ := h
  have hwrite : (env.withSteady readings).overrideOk v.overrides = env.overrideOk u.overrides := by
    rw [hview.overrides]
    rfl
  have hnow : u.now + ns = v.now + ns := by rw [hview.now]
  cases hok : env.overrideOk u.overrides with
  | true =>
    have hmoved : SameView { u with now := u.now + ns } { v with now := v.now + ns } :=
      { hview with now := hnow }
    rw [TestClock.advanceNs_ok hok, TestClock.advanceNs_ok (hwrite.trans hok), ← hnow]
    rw [← hnow] at hmoved
    exact ⟨rfl, sameView_overridden hmoved _, disarmed_overridden hrules hdisarmed _⟩
  | false =>
    rw [TestClock.advanceNs_error hok, TestClock.advanceNs_error (hwrite.trans hok)]
    exact ⟨rfl, { hview with now := hnow, overrides := congrArg (· + 1) hview.overrides },
      hdisarmed⟩

theorem sameView_advanceNs (hrules : TimerRules env.rcl) (readings : ℕ → ℤ) (h : SameView u v)
    (ns : ℤ) :
    SameOutcome SameView (TestClock.advanceNs env ns u)
      (TestClock.advanceNs (env.withSteady readings) ns v) := by
  obtain ⟨hend, hview, -⟩ := inStep_advanceNs (l := []) hrules readings
    ⟨h, fun _ ht => absurd ht List.not_mem_nil⟩ ns
  exact ⟨hend, hview⟩

theorem inStep_advanceRound (hrules : TimerRules env.rcl) (readings : ℕ → ℤ)
    (h : InStep env l u v) (step : ℤ) :
    SameOutcome (InStep env l) (TriggeringTestClock.advanceRound env l step u)
      (TriggeringTestClock.advanceRound (env.withSteady readings) l step v) := by
  have hmoved := inStep_advanceNs hrules readings h step
  simp only [TriggeringTestClock.advanceRound]
  cases hu : TestClock.advanceNs env step u with
  | mk e u' =>
    cases hv : TestClock.advanceNs (env.withSteady readings) step v with
    | mk e' v' =>
      rw [hu, hv] at hmoved
      obtain ⟨rfl, h'⟩ := hmoved
      cases e with
      | error e => exact ⟨rfl, h'⟩
      | ok => exact ⟨rfl, inStep_fireAll hrules h'⟩

/-- The loop, by induction on the fuel: both runs step alike and end alike. -/
theorem inStep_advanceLoop (hrules : TimerRules env.rcl) {timeStep target start : ℤ} (fuel : ℕ)
    (h : InStep env l u v) :
    Option.Rel (SameOutcome (InStep env l))
      (TriggeringTestClock.advanceLoop env l timeStep target fuel start u)
      (TriggeringTestClock.advanceLoop (env.withSteady readings) l timeStep target fuel start
        v) := by
  induction fuel generalizing start u v with
  | zero =>
    simp only [TriggeringTestClock.advanceLoop]
    split
    · exact .none
    · exact .some ⟨rfl, h⟩
  | succ fuel ih =>
    by_cases hlt : start < target
    · have hround := inStep_advanceRound hrules readings h
        (min timeStep (target - start))
      rw [TriggeringTestClock.advanceLoop_succ fuel hlt,
        TriggeringTestClock.advanceLoop_succ fuel hlt]
      cases hu : TriggeringTestClock.advanceRound env l (min timeStep (target - start)) u with
      | mk e u' =>
        cases hv : TriggeringTestClock.advanceRound (env.withSteady readings) l
            (min timeStep (target - start)) v with
        | mk e' v' =>
          rw [hu, hv] at hround
          obtain ⟨rfl, h'⟩ := hround
          cases e with
          | error e => exact .some ⟨rfl, h'⟩
          | ok => exact ih h'
    · rw [TriggeringTestClock.advanceLoop_of_le _ (by omega),
        TriggeringTestClock.advanceLoop_of_le _ (by omega)]
      exact .some ⟨rfl, h⟩

theorem SameView.findTimers (h : SameView u v) : v.findTimers = u.findTimers := by
  simp only [Sim.findTimers, StaticMocksRegistry.findTimers, h.registry, h.node,
    ObjectStore.lock_of_map_eq h.timers]

theorem SameView.getTimersMinPeriod (h : SameView u v) (timers : List TimerRef) :
    TriggeringTestClock.getTimersMinPeriod timers v =
      TriggeringTestClock.getTimersMinPeriod timers u := by
  have hbody : TriggeringTestClock.minTimerPeriod v = TriggeringTestClock.minTimerPeriod u := by
    funext m t
    simp only [TriggeringTestClock.minTimerPeriod]
    cases hu : u.timers.get? t with
    | none => rw [h.get?_none hu]
    | some timer =>
      obtain ⟨timer', hv, hsame⟩ := h.get? hu
      obtain ⟨-, hperiod, -⟩ := Timer.simulated_eq_iff.mp hsame
      simp only [hv, hperiod]
  rw [TriggeringTestClock.getTimersMinPeriod, hbody]
  rfl

theorem SameView.unpin (h : SameView u v) : SameView u.unpin v.unpin := by
  refine { h with timers := ?_, pinned := rfl, released := rfl }
  have hfree : ∀ (l : List TimerRef) (a b : ObjectStore Timer),
      a.map Timer.simulated = b.map Timer.simulated →
        (l.foldl (·.free ·) a).map Timer.simulated =
          (l.foldl (·.free ·) b).map Timer.simulated := by
    intro l
    induction l with
    | nil => exact fun _ _ hab => hab
    | cons t l ih =>
      intro a b hab
      apply ih
      rw [ObjectStore.map_free, ObjectStore.map_free, hab]
  simp only [Sim.unpin, h.released]
  exact hfree _ _ _ h.timers

/-- An `advance` that moves the clock asks no wall timer that could be ready: those the node has
are cancelled, and no callback resets one. -/
def SimulatedOnly (env : Env) (s : Sim) : ClockOp → Prop
  | .advanceTriggering d => 0 < d.nanoseconds → ∀ t ∈ s.findTimers, ∀ timer,
      s.timers.get? t = some timer → timer.clockType = .steady →
        timer.canceled = true ∧ ∀ trace, .reset t ∉ env.script trace
  | _ => True

theorem sameView_advanceTriggering (hrules : TimerRules env.rcl) (h : SameView u v) {d : Duration}
    (honly : SimulatedOnly env u (.advanceTriggering d)) :
    Option.Rel (SameOutcome SameView) (TriggeringTestClock.advance env d u)
      (TriggeringTestClock.advance (env.withSteady readings) d v) := by
  simp only [TriggeringTestClock.advance, TriggeringTestClock.advanceWithin, h.findTimers,
    h.getTimersMinPeriod]
  split
  · exact .some (sameView_advanceNs hrules readings h d.nanoseconds)
  · have hpinned : SameView { u with pinned := u.findTimers, released := [] }
        { v with pinned := u.findTimers, released := [] } :=
      { h with pinned := rfl, released := rfl }
    have hloop : Option.Rel (SameOutcome SameView)
        (TriggeringTestClock.advanceLoop env u.findTimers
          (TriggeringTestClock.getTimersMinPeriod u.findTimers u) d.nanoseconds
          d.nanoseconds.toNat 0 { u with pinned := u.findTimers, released := [] })
        (TriggeringTestClock.advanceLoop (env.withSteady readings) u.findTimers
          (TriggeringTestClock.getTimersMinPeriod u.findTimers u) d.nanoseconds
          d.nanoseconds.toNat 0 { v with pinned := u.findTimers, released := [] }) := by
      by_cases hd : 0 < d.nanoseconds
      · have hdisarmed : Disarmed env u.findTimers
            { u with pinned := u.findTimers, released := [] } := by
          intro t ht
          obtain ⟨timer, htimer⟩ := alive_of_mem_findTimers ht
          exact ⟨ObjectStore.lt_next_of_get? htimer, honly hd t ht⟩
        exact optionRel_mono (fun _ _ h => ⟨h.1, h.2.1⟩)
          (inStep_advanceLoop hrules _ ⟨hpinned, hdisarmed⟩)
      · rw [TriggeringTestClock.advanceLoop_of_le _ (by omega),
          TriggeringTestClock.advanceLoop_of_le _ (by omega)]
        exact .some ⟨rfl, hpinned⟩
    exact optionRel_map hloop fun _ _ h => ⟨h.1, h.2.unpin⟩

/-- Two runs that look alike still do after an operation that asks no wall timer that could be
ready. -/
theorem sameView_attempt (hrules : TimerRules env.rcl) (h : SameView u v) {op : ClockOp}
    (honly : SimulatedOnly env u op) :
    Option.Rel SameView (u.attempt env op) (v.attempt (env.withSteady readings) op) := by
  suffices hop : Option.Rel (SameOutcome SameView) (u.perform? env op)
      (v.perform? (env.withSteady readings) op) from optionRel_map hop fun _ _ h => h.2
  have hconstruct : ∀ iface, SameOutcome SameView (TestClock.construct env iface u)
      (TestClock.construct (env.withSteady readings) iface v) := by
    intro iface
    simp only [TestClock.construct]
    split
    · exact ⟨rfl, h⟩
    · split
      · exact ⟨rfl, h⟩
      · have hzero : SameView { u with now := 0 } { v with now := 0 } := { h with now := rfl }
        exact sameView_resetClock hzero 0
  cases op with
  | construct iface => exact .some (hconstruct iface)
  | constructTriggering iface =>
    have hbase := hconstruct iface
    refine .some ?_
    simp only [TriggeringTestClock.construct]
    cases hu : TestClock.construct env iface u with
    | mk e u' =>
      cases hv : TestClock.construct (env.withSteady readings) iface v with
      | mk e' v' =>
        rw [hu, hv] at hbase
        obtain ⟨rfl, h'⟩ := hbase
        cases e with
        | error e => exact ⟨rfl, h'⟩
        | ok =>
          simp only
          split <;> exact ⟨rfl, h'⟩
  | advance d => exact .some (sameView_advanceNs hrules readings h _)
  | advanceMs milliseconds => exact .some (sameView_advanceNs hrules readings h _)
  | resetClock tv => exact .some (sameView_resetClock h tv)
  | advanceTriggering d => exact sameView_advanceTriggering hrules h honly

/-- The invocations do not depend on the readings of the steady clock. -/
def Indifferent (env : Env) (s : Sim) (ops : List ClockOp) : Prop :=
  ∀ readings, Option.Rel (fun u v => u.trace = v.trace) (Runs.run (attempt env) s ops)
    (Runs.run (attempt (env.withSteady readings)) s ops)

theorem indifferent_of_simulatedOnly (hrules : TimerRules env.rcl) {ops : List ClockOp}
    (h : Runs.EachStep (attempt env) (SimulatedOnly env) s ops) : Indifferent env s ops := by
  intro readings
  refine optionRel_mono (fun _ _ h => SameView.trace h) (Runs.run_rel ?_ h (.refl s))
  exact fun _ _ _ hview honly => sameView_attempt hrules hview honly

end Sim

end Rtest
