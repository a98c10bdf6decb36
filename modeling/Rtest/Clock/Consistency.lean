import Rtest.Clock.TestClock

/-!
# Two copies of the time

The test clock keeps a reading of its own beside the value it writes to the node's clock. Every
`advance` writes both; `resetClock` writes one of them. So the two agree as long as a clock is
only ever reset to what it reads already.

## Main definitions

- `Sim.Agree` — `now()` is the value last written to the node's clock
- `Sim.Positive` — every timer has a positive period, which is when `advance` returns

## Main results

- `clocks_agree_iff` — they agree as long as a clock is reset to what it reads only
- `advance_moves_both` — and then `advance` moves both
-/

namespace Rtest

variable {env : Env} {s s' : Sim}

namespace Sim

/-- `now()` is the value last written to the node's clock. -/
def Agree (s : Sim) : Prop := s.now = s.rosTime

/-- Every timer has a positive period. -/
def Positive (s : Sim) : Prop := ∀ t timer, s.timers.get? t = some timer → 1 ≤ timer.period

/-- A reset writes what the clock reads. -/
def ResetsToNow (s : Sim) : ClockOp → Prop
  | .resetClock tv => tv = s.now
  | _ => True

theorem positive_modify {f : Timer → Timer} (h : Positive s) (t : TimerRef)
    (hf : ∀ timer, s.timers.get? t = some timer → (f timer).period = timer.period)
    {s' : Sim} (hs' : s'.timers = s.timers.modify t f) : Positive s' := by
  intro t' timer' htimer'
  rw [hs'] at htimer'
  obtain ⟨timer, htimer, rfl | ⟨rfl, rfl⟩⟩ := ObjectStore.get?_of_modify htimer'
  · exact h t' timer' htimer
  · rw [hf timer htimer]
    exact h t' timer htimer

theorem timers_readClock (c : ClockType) (s : Sim) : (s.readClock env c).2.timers = s.timers := by
  cases c <;> rfl

theorem timers_isReady (t : TimerRef) (s : Sim) : (s.isReady env t).2.timers = s.timers := by
  simp only [isReady]
  split
  · rfl
  · exact timers_readClock _ s

theorem positive_perform (hrules : TimerRules env.rcl) (h : Positive s) (a : TimerAction)
    (ha : ∀ c p autostart, a = .create c p autostart → 1 ≤ p) : Positive (s.perform env a) := by
  cases a with
  | create c p autostart =>
    intro t timer htimer
    simp only [perform, timers_readClock, ObjectStore.get?_alloc] at htimer
    split at htimer
    · cases htimer
      have hp := ha c p autostart rfl
      simp only [hrules.init]
      omega
    · exact h t timer htimer
  | cancel t =>
    exact positive_modify h t (fun timer _ => by rw [hrules.cancel]) rfl
  | reset t =>
    simp only [perform]
    split
    · exact h
    · next timer _ =>
      have htimers := @timers_readClock env timer.clockType s
      refine positive_modify h t (fun timer' _ => ?_) (by rw [htimers])
      rw [hrules.reset]
  | release t =>
    simp only [perform]
    split
    · exact h
    · intro t' timer htimer
      exact h t' timer (ObjectStore.get?_of_free htimer)

/-- Callbacks that create timers of positive period only keep all periods positive. -/
theorem positive_fireAll (hrules : TimerRules env.rcl)
    (hscript : ∀ trace c p autostart, .create c p autostart ∈ env.script trace → 1 ≤ p)
    (timers : List TimerRef) (h : Positive s) : Positive (s.fireAllTimerCallbacks env timers) := by
  refine foldl_keeps timers (fun s t _ h => ?_) h
  have hready : Positive (s.isReady env t).2 := by
    intro t' timer htimer
    rw [timers_isReady] at htimer
    exact h t' timer htimer
  have hcall : Positive ((s.isReady env t).2.call env t).2 := by
    simp only [call]
    split
    · exact hready
    · next timer htimer =>
      have htimers := @timers_readClock env timer.clockType (s.isReady env t).2
      split
      · intro t' timer' htimer'
        rw [htimers] at htimer'
        exact hready t' timer' htimer'
      · next timer' hcalled =>
        refine positive_modify hready t (fun old hold => ?_) (by rw [htimers])
        rw [htimer] at hold
        cases hold
        exact (hrules.callKeeps _ _ _ hcalled).2.1
  simp only [fireTimerCallback]
  split
  · split
    · refine foldl_keeps _ (fun s a ha hs => ?_) hcall
      refine positive_perform hrules hs a ?_
      rintro c p autostart rfl
      exact hscript _ c p autostart ha
    · exact hcall
  · exact hready

theorem positive_overridden (hrules : TimerRules env.rcl) (h : Positive s) (tv : ℤ) :
    Positive (s.overridden env tv) := by
  intro t timer htimer
  simp only [overridden, ObjectStore.get?_map] at htimer
  obtain ⟨old, hold, rfl⟩ := Option.map_eq_some_iff.mp htimer
  split
  · rw [(hrules.jumpKeeps _ _ old).2.1]
    exact h t old hold
  · exact h t old hold

theorem positive_unpin (h : Positive s) : Positive s.unpin := by
  have hfree : ∀ (l : List TimerRef) (timers : ObjectStore Timer) t timer,
      (l.foldl (·.free ·) timers).get? t = some timer → timers.get? t = some timer := by
    intro l
    induction l with
    | nil => exact fun _ _ _ htimer => htimer
    | cons t' l ih =>
      intro timers t timer htimer
      exact ObjectStore.get?_of_free (ih _ _ _ htimer)
  intro t timer htimer
  exact h t timer (hfree s.released s.timers t timer htimer)

end Sim

open Sim

/-- The writes all succeed, rcl follows its rules, and callbacks create timers of positive period
only. -/
structure Regular (env : Env) : Prop where
  writes : ∀ i, env.overrideOk i = true
  rules : TimerRules env.rcl
  periods : ∀ trace c p autostart, .create c p autostart ∈ env.script trace → 1 ≤ p

/-- An `advance` with the triggering clock returns, and writes both copies of the time. -/
theorem advanceTriggering_agree (henv : Regular env) (hpos : Positive s) (d : Duration) :
    ∃ s', TriggeringTestClock.advance env d s = some (.ok (), s') ∧ Positive s' ∧
      (Agree s → Agree s') ∧ (0 ≤ d.nanoseconds → s'.now = s.now + d.nanoseconds) := by
  simp only [TriggeringTestClock.advance, TriggeringTestClock.advanceWithin]
  split
  · rw [TestClock.advance, TestClock.advanceNs_ok (henv.writes _)]
    exact ⟨_, rfl, positive_overridden henv.rules hpos _, fun _ => rfl, fun _ => rfl⟩
  · have hstep := TriggeringTestClock.getTimersMinPeriod_pos s.findTimers s
      (fun t _ timer htimer => hpos t timer htimer)
    have hround : ∀ (timers : List TimerRef) (step : ℤ) (u : Sim), Positive u →
        ∃ u', TriggeringTestClock.advanceRound env timers step u = (.ok (), u') ∧ Positive u' ∧
          Agree u' ∧ u'.now = u.now + step := by
      intro timers step u hu
      have hmoved := positive_overridden henv.rules (s := { u with now := u.now + step }) hu
        (u.now + step)
      have hsame := sameClock_fireAll env timers
        ({ u with now := u.now + step }.overridden env (u.now + step))
      rw [TriggeringTestClock.advanceRound, TestClock.advanceNs_ok (henv.writes _)]
      refine ⟨_, rfl, positive_fireAll henv.rules henv.periods timers hmoved, ?_, hsame.now⟩
      rw [Agree, hsame.now, hsame.rosTime]
      rfl
    by_cases hd : 0 ≤ d.nanoseconds
    · obtain ⟨s', hs', hpos', hagree'⟩ := TriggeringTestClock.advanceLoop_rule
        (P := fun start u => Positive u ∧ (Agree s → Agree u) ∧ u.now = s.now + start) hstep
        (fun start u _ hu => by
          obtain ⟨u', hu', hp, ha, hnow⟩ := hround s.findTimers _ u hu.1
          exact ⟨u', hu', hp, fun _ => ha, by rw [hnow, hu.2.2, add_assoc]⟩)
        d.nanoseconds.toNat (by omega) hd (s := { s with pinned := s.findTimers, released := [] })
        ⟨hpos, id, (Int.add_zero _).symm⟩
      exact ⟨s'.unpin, by rw [hs']; rfl, positive_unpin hpos', hagree'.1, fun _ => hagree'.2⟩
    · rw [TriggeringTestClock.advanceLoop_of_le _ (by omega)]
      exact ⟨_, rfl, positive_unpin hpos, id, fun h => absurd h hd⟩

/-- Whether an operation is given what it requires: the constructors check their interfaces. -/
def ClockOp.accepted : ClockOp → Bool
  | .construct iface => iface.parameters && iface.clock && iface.useSimTime
  | .constructTriggering iface =>
    (iface.parameters && iface.clock && iface.useSimTime) && iface.base
  | _ => true

/-- An operation given what it requires returns; whether it leaves the two copies of the time in
agreement depends on what a reset writes. -/
theorem step_agree (henv : Regular env) (hpos : Positive s) {op : ClockOp}
    (hop : op.accepted = true) :
    ∃ s', s.step env op = some s' ∧ Positive s' ∧
      (Agree s → (Agree s' ↔ s.ResetsToNow op)) := by
  have hok := henv.writes
  cases op with
  | construct iface =>
    refine ⟨_, ?_, positive_overridden henv.rules (s := { s with now := 0 }) hpos 0,
      fun _ => iff_of_true rfl trivial⟩
    rw [step, perform?, TestClock.construct_ok (hok _) hop]
  | constructTriggering iface =>
    simp only [ClockOp.accepted, Bool.and_eq_true] at hop
    refine ⟨_, ?_, positive_overridden henv.rules (s := { s with now := 0 }) hpos 0,
      fun _ => iff_of_true rfl trivial⟩
    rw [step, perform?, TriggeringTestClock.construct_ok (hok _) (by simpa using hop.1) hop.2]
  | advance d =>
    refine ⟨_, ?_, positive_overridden henv.rules (s := { s with now := s.now + d.nanoseconds })
      hpos _, fun _ => iff_of_true rfl trivial⟩
    rw [step, perform?, TestClock.advance, TestClock.advanceNs_ok (hok _)]
  | advanceMs milliseconds =>
    refine ⟨_, ?_, positive_overridden henv.rules
      (s := { s with now := s.now + (Duration.mk milliseconds 1000000).nanoseconds }) hpos _,
      fun _ => iff_of_true rfl trivial⟩
    rw [step, perform?, TestClock.advanceMs, TestClock.advance, TestClock.advanceNs_ok (hok _)]
  | resetClock tv =>
    refine ⟨_, ?_, positive_overridden henv.rules hpos tv, fun _ => ?_⟩
    · rw [step, perform?, TestClock.resetClock_ok (hok _)]
    · exact eq_comm
  | advanceTriggering d =>
    obtain ⟨s', hs', hpos', hagree, -⟩ := advanceTriggering_agree henv hpos d
    refine ⟨s', ?_, hpos', fun h => iff_of_true (hagree h) trivial⟩
    rw [step, perform?, hs']

/-- An operation that returns was given what it requires. -/
theorem accepted_of_step {op : ClockOp} (h : s.step env op = some s') : op.accepted = true := by
  have hconstruct : ∀ iface s', TestClock.construct env iface s = (.ok (), s') →
      (iface.parameters && iface.clock && iface.useSimTime) = true := by
    intro iface s' h
    simp only [TestClock.construct] at h
    split at h
    · cases h
    · next hiface =>
      split at h
      · cases h
      · next hsim => simp_all
  cases op with
  | construct iface =>
    simp only [step, perform?] at h
    split at h
    · next s₁ heq => exact hconstruct iface s₁ (Option.some.inj heq)
    · cases h
  | constructTriggering iface =>
    simp only [step, perform?, TriggeringTestClock.construct] at h
    split at h
    · next s₁ heq =>
      split at heq
      · cases heq
      · next s₂ heq₂ =>
        split at heq
        · cases heq
        · next hbase =>
          simp only [ClockOp.accepted, hconstruct iface s₂ heq₂, Bool.true_and]
          simpa using hbase
    · cases h
  | _ => rfl

/-- A run of operations that are given what they require returns. -/
theorem run_isSome (henv : Regular env) (hpos : Positive s) {ops : List ClockOp}
    (hops : ∀ op ∈ ops, op.accepted = true) :
    (Runs.run (Sim.step env) s ops).isSome = true := by
  induction ops generalizing s with
  | nil => rfl
  | cons op ops ih =>
    obtain ⟨s', hs', hpos', -⟩ := step_agree henv hpos (hops op List.mem_cons_self)
    rw [Runs.run_cons, hs', Option.bind_some]
    exact ih hpos' (fun op' hop' => hops op' (List.mem_cons_of_mem op hop'))

/-- The state a constructor leaves. -/
def Constructed (env : Env) (s : Sim) : Prop :=
  ∃ s₀ iface, TestClock.construct env iface s₀ = (.ok (), s) ∨
    TriggeringTestClock.construct env iface s₀ = (.ok (), s)

theorem TestClock.agree_of_construct {s₀ : Sim} {iface : NodeInterfaces}
    (h : TestClock.construct env iface s₀ = (.ok (), s)) : Agree s := by
  simp only [TestClock.construct, TestClock.resetClock, setRosTimeOverride] at h
  split at h
  · cases h
  · split at h
    · cases h
    · split at h
      · next heq =>
        split at heq
        · cases h
          cases heq
          rfl
        · cases heq
      · cases h

theorem Constructed.agree (h : Constructed env s) : Agree s := by
  obtain ⟨s₀, iface, h | h⟩ := h
  · exact TestClock.agree_of_construct h
  · rw [TriggeringTestClock.construct] at h
    split at h
    · cases h
    · next s₁ heq =>
      split at h
      · cases h
      · cases h
        exact TestClock.agree_of_construct heq

theorem agree_step {op : ClockOp} (henv : Regular env) (hpos : Positive s)
    (hs : s.step env op = some s') : Positive s' ∧ (Agree s → (Agree s' ↔ s.ResetsToNow op)) := by
  obtain ⟨u, hu, hspec⟩ := step_agree henv hpos (accepted_of_step hs)
  rw [hs] at hu
  cases hu
  exact hspec

theorem always_agree_iff (henv : Regular env) (hpos : Positive s) (hagree : Agree s)
    {ops : List ClockOp} {last : Sim} (hrun : Runs.run (Sim.step env) s ops = some last) :
    Runs.Always (Sim.step env) Agree s ops ↔ Runs.EachStep (Sim.step env) ResetsToNow s ops :=
  Runs.always_iff_eachStep (fun _ _ _ hu hs => (agree_step henv hu hs).1) (fun _ _ h => h)
    (fun _ _ _ hu h hc hs => ((agree_step henv hu hs).2 h).mpr hc)
    (fun _ _ _ hu h hs h' => ((agree_step henv hu hs).2 h).mp h') hpos hagree hrun

/-- **When the two copies of the time agree.** Operations on a clock return, whatever timers of
positive period there are; and after each of them `now()` is the value last written to the node's
clock exactly when every `resetClock` writes what the clock reads already. -/
theorem clocks_agree_iff (henv : Regular env) (hnew : Constructed env s) (hpos : Positive s)
    {ops : List ClockOp} (hops : ∀ op ∈ ops, op.accepted = true) :
    (Runs.run (Sim.step env) s ops).isSome = true ∧
      (Runs.Always (Sim.step env) Agree s ops ↔
        Runs.EachStep (Sim.step env) ResetsToNow s ops) := by
  have hreturns := run_isSome henv hpos hops
  obtain ⟨last, hlast⟩ := Option.isSome_iff_exists.mp hreturns
  exact ⟨hreturns, always_agree_iff henv hpos hnew.agree hlast⟩

/-- In a run in which every `resetClock` writes what the clock reads, an `advance` that does not go
back in time moves both copies by its duration, with either clock. -/
theorem advance_moves_both (henv : Regular env) (hnew : Constructed env s) (hpos : Positive s)
    {ops : List ClockOp} {u : Sim} (hrun : Runs.run (Sim.step env) s ops = some u)
    (hresets : Runs.EachStep (Sim.step env) ResetsToNow s ops) {d : Duration}
    (hd : 0 ≤ d.nanoseconds) {op : ClockOp} (hop : op = .advance d ∨ op = .advanceTriggering d) :
    ∃ u', u.step env op = some u' ∧ u'.now = u.now + d.nanoseconds ∧
      u'.rosTime = u.rosTime + d.nanoseconds := by
  have hagree := ((always_agree_iff henv hpos hnew.agree hrun).mpr hresets).last hrun
  have hposu : Positive u := Runs.run_invariant (fun _ _ _ h hs => (agree_step henv h hs).1) hpos hrun
  rcases hop with rfl | rfl
  · refine ⟨{ u with now := u.now + d.nanoseconds }.overridden env (u.now + d.nanoseconds), ?_, rfl,
      ?_⟩
    · rw [Sim.step, perform?, TestClock.advance, TestClock.advanceNs_ok (henv.writes _)]
    · rw [← hagree]
      rfl
  · obtain ⟨u', hu', -, hsame, hnow⟩ := advanceTriggering_agree henv hposu d
    refine ⟨u', by rw [Sim.step, perform?, hu'], hnow hd, ?_⟩
    rw [← hsame hagree, hnow hd, hagree]

theorem regular_plainEnv : Regular plainEnv where
  writes := fun _ => rfl
  rules := timerRules_referenceRcl
  periods := by intro trace c p autostart h; cases h

/-- A node without timers, its clock just taken over. -/
def newClock : Sim :=
  (TestClock.construct plainEnv ⟨true, true, true, true⟩
    ⟨.empty, .empty, 1, 0, 0, 0, 0, [], [], []⟩).2

theorem clocks_agree_advanceThenReset :
    (Runs.run (Sim.step plainEnv) newClock
        [.advance ⟨3, 1000000⟩, .resetClock 5, .advanceTriggering ⟨2, 1⟩]).isSome = true ∧
      (Runs.Always (Sim.step plainEnv) Agree newClock
          [.advance ⟨3, 1000000⟩, .resetClock 5, .advanceTriggering ⟨2, 1⟩] ↔
        Runs.EachStep (Sim.step plainEnv) ResetsToNow newClock
          [.advance ⟨3, 1000000⟩, .resetClock 5, .advanceTriggering ⟨2, 1⟩]) :=
  clocks_agree_iff regular_plainEnv ⟨_, ⟨true, true, true, true⟩, Or.inl rfl⟩
    (by intro t timer h; cases h) (by decide)

/-- After `resetClock(5)` the node's clock reads 5 and the test clock 0. -/
theorem resetClock_diverges :
    Constructed plainEnv newClock ∧
      ¬ Runs.Always (Sim.step plainEnv) Agree newClock [.resetClock 5] := by
  refine ⟨⟨_, ⟨true, true, true, true⟩, Or.inl rfl⟩, fun h => ?_⟩
  have hagree : (0 : ℤ) = 5 := h.last rfl
  cases hagree

end Rtest
