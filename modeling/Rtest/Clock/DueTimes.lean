import Rtest.Clock.PlainClock
import Rtest.Clock.Stops

/-!
# Callbacks at their due times

An advance stops at every multiple of the shortest period from where it starts, and at its end. It
calls a timer at the first stop that is not before the due time, so a callback is on time just if
its due time is a stop. Where all of them are, the invocations are the agenda of the due times, and
how the time was split makes no difference.

## Main definitions

- `OnDue` — a callback is invoked only while the node's clock reads its due time
- `Aligned` — an advance stops at every due time
- `OnSchedule` — a sequence of advances invokes the callbacks as their due times say
-/

namespace Rtest

open TriggeringTestClock Periodic Sim

variable {env : Env} {s u v w : Sim} {t : TimerRef} {timer : Timer} {d : Duration} {start step : ℤ}

/-- At every turn of the advance, the callback is invoked only if the node's clock reads the due
time of the timer. -/
def OnDue (env : Env) (d : Duration) (s : Sim) : Prop :=
  ∀ v step, Writes env d s v step → env.overrideOk v.overrides = true →
    ∀ earlier t later, s.findTimers = earlier ++ t :: later →
      let u := (written env v step).fireAllTimerCallbacks env earlier
      Invoked env u t → ∀ timer, u.timers.get? t = some timer → timer.nextCall = u.rosTime

/-- The advance stops at every due time on its way: a whole number of shortest periods after its
start, or at its end. -/
def Aligned (d : Duration) (s : Sim) : Prop :=
  0 < d.nanoseconds → ∀ t ∈ s.findTimers, ∀ x, s.dueAt t x = true →
    x ≤ s.rosTime + d.nanoseconds → s.rosTime < x ∧
      ((x - s.rosTime) % getTimersMinPeriod s.findTimers s = 0 ∨ x = s.rosTime + d.nanoseconds)

/-- Only the writes matter: what is due then is due just then. -/
theorem onDue_iff (henv : Quiet env) (hu : Calm u) (hne : u.findTimers ≠ []) :
    OnDue env d u ↔ ∀ v step, Writes env d u v step → ∀ t ∈ u.findTimers, ∀ timer,
      v.timers.get? t = some timer → timer.isDue (v.rosTime + step) = true →
        timer.nextCall = v.rosTime + step := by
  have hturn : ∀ v step, Writes env d u v step → v.findTimers = u.findTimers ∧
      ∀ earlier later : List TimerRef, ∀ t timer, u.findTimers = earlier ++ t :: later →
        v.timers.get? t = some timer →
        let w := (written env v step).fireAllTimerCallbacks env earlier
        w.timers.get? t = some timer ∧ w.rosTime = v.rosTime + step ∧
          (Invoked env w t ↔ timer.isDue (v.rosTime + step) = true) := by
    intro v step hw
    obtain ⟨start, hpoint, hgoing, hstep⟩ := hu.atWrite henv hne hw
    have hmin := hu.minPeriod
    refine ⟨hpoint.later.found, fun earlier later t timer hsplit hget => ?_⟩
    exact (hpoint.later.calm hu).turn henv (by omega) (hpoint.later.step_le (by omega))
      (hpoint.later.found.trans hsplit) hget
  constructor
  · intro hdue v step hw t ht timer hget hisDue
    obtain ⟨earlier, later, hsplit⟩ := List.append_of_mem ht
    obtain ⟨hsame, hclock, hinvoked⟩ := (hturn v step hw).2 earlier later t timer hsplit hget
    rw [← hclock]
    exact hdue v step hw (henv.writes _) earlier t later hsplit (hinvoked.mpr hisDue) timer hsame
  · intro hdue v step hw _ earlier t later hsplit w hinvoked timer hget
    have ht : t ∈ u.findTimers := by
      rw [hsplit]
      simp
    obtain ⟨hfound, hturn⟩ := hturn v step hw
    obtain ⟨timer₀, hget₀⟩ := alive_of_mem_findTimers (hfound ▸ ht)
    obtain ⟨hsame, hclock, hiff⟩ := hturn earlier later t timer₀ hsplit hget₀
    obtain rfl : timer = timer₀ := Option.some.inj (hget.symm.trans hsame)
    exact (hdue v step hw t ht timer hget₀ (hiff.mp hinvoked)).trans hclock.symm

/-- Callbacks on their due times or an advance that stops at them leave no timer due at the
start. -/
theorem OnDue.ahead (henv : Quiet env) (hu : Calm u) (hd : 0 < d.nanoseconds)
    (h : OnDue env d u) : Ahead u := by
  intro t ht timer hget hc
  have hne : u.findTimers ≠ [] := List.ne_nil_of_mem ht
  have hmin := hu.minPeriod
  have hdue := hu.notOverdue t ht timer hget hc
  by_contra hnow
  have hstart : AtLoop env d u 0 (held u) := .refl
  have hexact : timer.nextCall =
      u.rosTime + min (getTimersMinPeriod u.findTimers u) (d.nanoseconds - 0) :=
    (onDue_iff henv hu hne).mp h _ _ (hstart.writes hne hd) t ht timer hget
      (Timer.isDue_iff.mpr ⟨hc, show timer.nextCall ≤ u.rosTime + _ by omega⟩)
  omega

theorem Aligned.ahead (hd : 0 < d.nanoseconds) (h : Aligned d u) : Ahead u := by
  intro t ht timer hget hc
  by_contra hnow
  have hdue : u.dueAt t timer.nextCall = true := by
    rw [dueAt_of_get? hget, hc, fallsAt_self]
    rfl
  exact hnow (h hd t ht _ hdue (by omega)).1

/-- A write of an advance whose callbacks are on their due times comes to the next due time. -/
theorem OnDue.meets (henv : Quiet env) (hu : Calm u) (h : OnDue env d u)
    (hreach : AtLoop env d u start v) (hgoing : start < d.nanoseconds) (ht : t ∈ u.findTimers)
    {x : ℤ} (hafter : v.rosTime < x)
    (hle : x ≤ v.rosTime + min (getTimersMinPeriod u.findTimers u) (d.nanoseconds - start))
    (hx : u.dueAt t x = true) :
    x = v.rosTime + min (getTimersMinPeriod u.findTimers u) (d.nanoseconds - start) := by
  have hne : u.findTimers ≠ [] := List.ne_nil_of_mem ht
  have hw := hreach.writes hne hgoing
  rw [← (hu.atPoint henv hreach).later.dueAt ht hafter] at hx
  obtain ⟨timer, hget, hc, hdue, -⟩ := exists_of_dueAt hx
  have hexact := (onDue_iff henv hu hne).mp h _ _ hw t ht timer hget
    (Timer.isDue_iff.mpr ⟨hc, by omega⟩)
  omega

/-- An advance on the due times stops at them: by induction over the rounds, every due time passed
is one of the stops. -/
theorem OnDue.aligned (henv : Quiet env) (hu : Calm u) (h : OnDue env d u) : Aligned d u := by
  intro hpos t ht x hx hend
  have hmin := hu.minPeriod
  have hne : u.findTimers ≠ [] := List.ne_nil_of_mem ht
  have hpassed : ∀ start v, AtLoop env d u start v → x ≤ u.rosTime + start →
      u.rosTime < x ∧ ((x - u.rosTime) % getTimersMinPeriod u.findTimers u = 0 ∨
        x = u.rosTime + d.nanoseconds) := by
    intro start v hreach
    refine hreach.induction (P := fun start _ => x ≤ u.rosTime + start → _) ?_ ?_
    · intro hle
      obtain ⟨timer, hget, hc, hdue, -⟩ := exists_of_dueAt hx
      have hahead := h.ahead henv hu hpos t ht timer hget hc
      omega
    · intro start v _ hreach hgoing _ hbefore hle
      have hpoint := hu.atPoint henv hreach
      have hros := hpoint.rosTime
      have hnonneg := hpoint.nonneg
      by_cases hlt : x ≤ u.rosTime + start
      · exact hbefore hlt
      · have hstop := h.meets henv hu hreach hgoing ht (by omega) (by omega) hx
        refine ⟨by omega, ?_⟩
        rcases Int.le_total (getTimersMinPeriod u.findTimers u) (d.nanoseconds - start)
          with hshort | hlast
        · rw [Int.min_eq_left hshort] at hstop
          have hdist : x - u.rosTime = start + getTimersMinPeriod u.findTimers u := by omega
          rw [hdist, Int.add_emod_right]
          exact hpoint.grid.imp_right fun h => by omega
        · exact Or.inr (by omega)
  obtain ⟨r, hr⟩ := @advance_isSome env u d hmin
  obtain ⟨start, v, hreach, ⟨hdone, -⟩ | ⟨-, hfail⟩⟩ := Ends.rounds hne ⟨_, hr⟩
  · exact hpassed start v hreach (by omega)
  · rw [henv.writes] at hfail
    cases hfail

/-- An advance that stops at the due times is on them: what is due at a stop was not due at the one
before, and no due time lies between. -/
theorem Aligned.onDue (henv : Quiet env) (hu : Calm u) (hd : 0 ≤ d.nanoseconds)
    (h : Aligned d u) : OnDue env d u := by
  by_cases hne : u.findTimers = []
  · intro v step _ _ earlier t later hsplit
    rw [hne] at hsplit
    simp at hsplit
  · rw [onDue_iff henv hu hne]
    intro v step hw t ht timer hget hisDue
    have hmin := hu.minPeriod
    obtain ⟨start, hpoint, hgoing, rfl⟩ := hu.atWrite henv hne hw
    obtain ⟨hc, hdue⟩ := Timer.isDue_iff.mp hisDue
    have hros := hpoint.rosTime
    have hnonneg := hpoint.nonneg
    have hahead := hpoint.ahead (Aligned.ahead (by omega) h) t
      (by rw [hpoint.later.found]; exact ht) timer hget hc
    have hfalls : u.dueAt t timer.nextCall = true := by
      rw [← hpoint.later.dueAt ht hahead, dueAt_of_get? hget, hc, fallsAt_self]
      rfl
    obtain ⟨-, hstop | hlast⟩ := h (by omega) t ht _ hfalls (by omega)
    · have hgrid := hpoint.grid.resolve_right (by omega)
      have hnext := eq_add_of_emod hgrid hstop (by omega) (by omega)
      omega
    · omega

/-- **One advance.** It is on the due times exactly when it stops at all of them. -/
theorem onDue_iff_aligned (henv : Quiet env) (hu : Calm u) (hd : 0 ≤ d.nanoseconds) :
    OnDue env d u ↔ Aligned d u :=
  ⟨fun h => h.aligned henv hu, fun h => h.onDue henv hu hd⟩

/-- At a stop of an advance on the due times, the timers that are due are those whose callback is
due just then. -/
theorem OnDue.isDue_eq (henv : Quiet env) (hu : Calm u) (h : OnDue env d u)
    (hw : Writes env d u v step) (ht : t ∈ u.findTimers) :
    v.isDue t (v.rosTime + step) = u.dueAt t (v.rosTime + step) := by
  have hne : u.findTimers ≠ [] := List.ne_nil_of_mem ht
  have hmin := hu.minPeriod
  obtain ⟨start, hpoint, hgoing, hstep⟩ := hu.atWrite henv hne hw
  rw [← hpoint.later.dueAt ht (by omega), Bool.eq_iff_iff]
  constructor
  · intro hisDue
    obtain ⟨timer, hget⟩ := alive_of_mem_findTimers (hpoint.later.found ▸ ht)
    rw [isDue_of_get? hget] at hisDue
    have hexact := (onDue_iff henv hu hne).mp h _ _ hw t ht timer hget hisDue
    rw [dueAt_of_get? hget, (Timer.isDue_iff.mp hisDue).1, ← hexact, fallsAt_self]
    rfl
  · intro hfalls
    obtain ⟨timer, hget, hc, hle, -⟩ := exists_of_dueAt hfalls
    rw [isDue_of_get? hget]
    exact Timer.isDue_iff.mpr ⟨hc, hle⟩

/-- The invocations of an advance on the due times, as far as its loop has come. -/
theorem OnDue.traced (henv : Quiet env) (hu : Calm u) (h : OnDue env d u)
    (hreach : AtLoop env d u start v) :
    v.trace = u.trace ++ agenda u.dueAt u.findTimers u.rosTime (u.rosTime + start) := by
  refine hreach.induction (P := fun start v =>
    v.trace = u.trace ++ agenda u.dueAt u.findTimers u.rosTime (u.rosTime + start)) ?_ ?_
  · rw [Int.add_zero, agenda_self, List.append_nil]
    rfl
  · intro start v w hreach hgoing hround htrace
    have hpoint := hu.atPoint henv hreach
    have hmin := hu.minPeriod
    have hros := hpoint.rosTime
    have hnonneg := hpoint.nonneg
    obtain ⟨step, hstep⟩ : ∃ step,
      step = min (getTimersMinPeriod u.findTimers u) (d.nanoseconds - start) := ⟨_, rfl⟩
    rw [← hstep] at hround ⊢
    rw [← hpoint.later.found] at hround
    obtain ⟨-, -, -, -, hpass⟩ := (hpoint.later.calm hu).round henv (by omega)
      (hpoint.later.step_le (by omega)) hround
    have hdue : ∀ t ∈ u.findTimers,
        v.isDue t (v.rosTime + step) = u.dueAt t (v.rosTime + step) := by
      intro t ht
      have hw := hreach.writes (List.ne_nil_of_mem ht) hgoing
      rw [← hstep] at hw
      exact h.isDue_eq henv hu hw ht
    -- no callback is due before the stop
    have hnone : ∀ t ∈ u.findTimers, ∀ x, v.rosTime < x → x < v.rosTime + step →
        u.dueAt t x = false := by
      intro t ht x hafter hbefore
      rw [Bool.eq_false_iff]
      intro hx
      have hstop := h.meets henv hu hreach hgoing ht hafter (by omega) hx
      omega
    calc w.trace = v.trace ++ eventsAt v.isDue v.findTimers (v.rosTime + step) := hpass
      _ = v.trace ++ agenda u.dueAt u.findTimers v.rosTime (v.rosTime + step) := by
          rw [agenda_of_last (by omega) hnone, hpoint.later.found, eventsAt, eventsAt,
            List.filter_congr hdue]
      _ = u.trace ++ agenda u.dueAt u.findTimers u.rosTime (u.rosTime + (start + step)) := by
          rw [htrace, List.append_assoc, ← hros, ← agenda_append (by omega) (by omega), hros,
            Int.add_assoc]

/-- **One advance** from a calm state returns, in a calm state again. -/
theorem advance_calm (henv : Quiet env) (hu : Calm u) (hd : 0 ≤ d.nanoseconds) :
    ∃ v, TriggeringTestClock.advance env d u = some (.ok (), v) ∧ Later u v ∧
      v.rosTime = u.rosTime + d.nanoseconds ∧
      (OnDue env d u → v.trace = u.trace ++
        agenda u.dueAt u.findTimers u.rosTime (u.rosTime + d.nanoseconds)) := by
  by_cases hne : u.findTimers = []
  · have hadvance : TriggeringTestClock.advance env d u =
        some (.ok (), written env u d.nanoseconds) := by
      rw [TriggeringTestClock.advance, advanceWithin_of_empty hne, TestClock.advance,
        TestClock.advanceNs_ok (henv.writes _)]
      rfl
    obtain ⟨htimers, hros⟩ := hu.write henv hd
    refine ⟨_, hadvance, ⟨rfl, ?_, fun t ht => ?_⟩, hros, fun _ => ?_⟩
    · rw [findTimers, htimers]
      rfl
    · rw [hne] at ht
      cases ht
    · rw [hne, agenda_eq_nil fun t ht => absurd ht List.not_mem_nil, List.append_nil]
      rfl
  · obtain ⟨r, hr⟩ := @advance_isSome env u d hu.minPeriod
    obtain ⟨start, v, hreach, ⟨hdone, rfl⟩ | ⟨-, hfail⟩⟩ := Ends.rounds hne ⟨_, hr⟩
    · have hle := hreach.le hd
      obtain rfl : start = d.nanoseconds := by omega
      have hpoint := hu.atPoint henv hreach
      have hunpin : v.unpin = { v with pinned := [], released := [] } := by
        rw [unpin, hpoint.released]
        rfl
      refine ⟨v.unpin, hr, ?_, hpoint.rosTime, fun h => ?_⟩
      · rw [hunpin]
        exact hpoint.later.repin [] []
      · show v.trace = _
        exact h.traced henv hu hreach
    · rw [henv.writes] at hfail
      cases hfail

-- ════════════════════════════════════════════════════════════════════════
-- Sequences of advances
-- ════════════════════════════════════════════════════════════════════════

/-- An `advance` that returns, as a step of a run. -/
def Sim.advanced (env : Env) (u : Sim) (d : Duration) : Option Sim :=
  u.step env (.advanceTriggering d)

/-- The callbacks of a sequence of advances are invoked at their due times: each while the node's
clock reads the due time, and all of them as on the agenda of the due times, in order. -/
structure OnSchedule (env : Env) (s : Sim) (ds : List Duration) : Prop where
  exact : Runs.EachStep (advanced env) (fun u d => OnDue env d u) s ds
  invoked : ∃ u calls, Runs.run (advanced env) s ds = some u ∧ u.trace = s.trace ++ calls ∧
    calls = agenda s.dueAt s.findTimers s.rosTime (s.rosTime + total ds) ∧
    calls.Pairwise fun c c' => c.2 ≤ c'.2

theorem total_nonneg {ds : List Duration} (h : ∀ d ∈ ds, 0 ≤ d.nanoseconds) : 0 ≤ total ds := by
  induction ds with
  | nil => exact Int.le_refl 0
  | cons d ds ih =>
    have hd := h d List.mem_cons_self
    have hds := ih fun d' hd' => h d' (List.mem_cons_of_mem d hd')
    have htotal : total (d :: ds) = d.nanoseconds + total ds := by simp [total]
    omega

/-- **A sequence of advances** returns in a calm state; if each was on the due times, it has
invoked what the due times say. -/
theorem run_calm (henv : Quiet env) {ds : List Duration} (hu : Calm u)
    (hds : ∀ d ∈ ds, 0 ≤ d.nanoseconds) :
    ∃ v, Runs.run (advanced env) u ds = some v ∧ Later u v ∧ v.rosTime = u.rosTime + total ds ∧
      (Runs.EachStep (advanced env) (fun w d => OnDue env d w) u ds →
        v.trace = u.trace ++
          agenda u.dueAt u.findTimers u.rosTime (u.rosTime + total ds)) := by
  induction ds generalizing u with
  | nil =>
    refine ⟨u, rfl, hu.later, by simp [total], fun _ => ?_⟩
    simp [total, agenda_self]
  | cons d ds ih =>
    have hd := hds d List.mem_cons_self
    have hrest : ∀ d' ∈ ds, 0 ≤ d'.nanoseconds := fun d' hd' => hds d' (List.mem_cons_of_mem d hd')
    obtain ⟨u₁, hadvance, hlater, hros, htrace⟩ := advance_calm henv hu hd
    obtain ⟨v, hrun, hlater', hros', htrace'⟩ := ih (hlater.calm hu) hrest
    have hfirst : advanced env u d = some u₁ := by
      simp only [advanced, step, perform?, hadvance]
    have htotal : total (d :: ds) = d.nanoseconds + total ds := by simp [total]
    have hnonneg := total_nonneg hrest
    refine ⟨v, ?_, hlater.trans hlater' (by omega), by omega, fun hexact => ?_⟩
    · rw [Runs.run_cons, hfirst, Option.bind_some, hrun]
    · have hhead : OnDue env d u := hexact [] d u (List.prefix_append [d] ds) rfl
      have hsame : agenda u₁.dueAt u.findTimers u₁.rosTime (u₁.rosTime + total ds) =
          agenda u.dueAt u.findTimers u₁.rosTime (u₁.rosTime + total ds) :=
        agenda_congr fun t ht x hx => hlater.dueAt ht hx
      rw [htrace' (hexact.tail hfirst), htrace hhead, List.append_assoc, hlater.found, hsame, hros,
        ← agenda_append (by omega) (by omega), htotal, Int.add_assoc]

/-- **When callbacks run at their due times.** Let callbacks leave the clock and the timers alone.
From a calm state, a sequence of advances with non-negative durations is on schedule exactly when
every one of them stops at all due times on its way; and two sequences on schedule that add up to
the same make the same invocations. -/
theorem on_schedule_iff (henv : Quiet env) (hs : Calm s) {ds : List Duration}
    (hds : ∀ d ∈ ds, 0 ≤ d.nanoseconds) :
    (OnSchedule env s ds ↔ Runs.EachStep (advanced env) (fun u d => Aligned d u) s ds) ∧
    ∀ ds', total ds' = total ds → OnSchedule env s ds → OnSchedule env s ds' →
      (Runs.run (advanced env) s ds).map Sim.trace =
        (Runs.run (advanced env) s ds').map Sim.trace := by
  -- each step is taken in a calm state, where the two conditions agree
  have hstep : ∀ pre d u, pre ++ [d] <+: ds → Runs.run (advanced env) s pre = some u →
      (OnDue env d u ↔ Aligned d u) := by
    intro pre d u hpre hrun
    have hmem : ∀ d' ∈ pre ++ [d], 0 ≤ d'.nanoseconds := fun d' hd' => hds d' (hpre.subset hd')
    obtain ⟨v, hv, hlater, -⟩ := run_calm henv hs fun d' hd' => hmem d' (List.mem_append_left _ hd')
    obtain rfl : u = v := Option.some.inj (hrun.symm.trans hv)
    exact onDue_iff_aligned henv (hlater.calm hs) (hmem d (by simp))
  refine ⟨⟨fun h pre d u hpre hrun => ?_, fun h => ?_⟩, ?_⟩
  · exact (hstep pre d u hpre hrun).mp (h.exact pre d u hpre hrun)
  · have hexact : Runs.EachStep (advanced env) (fun u d => OnDue env d u) s ds :=
      fun pre d u hpre hrun => (hstep pre d u hpre hrun).mpr (h pre d u hpre hrun)
    obtain ⟨v, hrun, -, -, htrace⟩ := run_calm henv hs hds
    exact ⟨hexact, v, _, hrun, htrace hexact, rfl, agenda_pairwise _ _⟩
  · rintro ds' htotal ⟨-, u, calls, hrun, htrace, rfl, -⟩ ⟨-, u', calls', hrun', htrace', rfl, -⟩
    rw [hrun, hrun', Option.map_some, Option.map_some, htrace, htrace', htotal]

theorem calm_twoTimers : Calm twoTimers where
  clock := simulated_twoTimers.clock
  period := simulated_twoTimers.period
  nodup := by decide
  agree := rfl
  notOverdue := by
    intro t ht timer htimer _
    rcases mem_twoTimers ht htimer with rfl | rfl <;> decide

/-- The due times 12 and 13 are met by stopping at 12. -/
theorem on_schedule_twoTimers :
    (OnSchedule plainEnv twoTimers [⟨2, 1⟩, ⟨1, 1⟩] ↔
      Runs.EachStep (advanced plainEnv) (fun u d => Aligned d u) twoTimers [⟨2, 1⟩, ⟨1, 1⟩]) ∧
    ∀ ds', total ds' = total [⟨2, 1⟩, ⟨1, 1⟩] → OnSchedule plainEnv twoTimers [⟨2, 1⟩, ⟨1, 1⟩] →
      OnSchedule plainEnv twoTimers ds' →
        (Runs.run (advanced plainEnv) twoTimers [⟨2, 1⟩, ⟨1, 1⟩]).map Sim.trace =
          (Runs.run (advanced plainEnv) twoTimers ds').map Sim.trace :=
  on_schedule_iff ⟨fun _ => rfl, timerRules_referenceRcl, fun _ => rfl⟩ calm_twoTimers (by decide)

/-- Stepping by 3 from 10, the callback due at 12 is invoked at 13 and the one due at 15 at 16;
with a stop at 12 on the way the first is invoked at 12. -/
theorem twoTimers_offSchedule :
    ¬ OnSchedule plainEnv twoTimers [⟨7, 1⟩] ∧
    (Runs.run (advanced plainEnv) twoTimers [⟨7, 1⟩]).map Sim.trace =
      some [(0, 13), (1, 13), (0, 16), (1, 17)] ∧
    (Runs.run (advanced plainEnv) twoTimers [⟨2, 1⟩, ⟨1, 1⟩, ⟨4, 1⟩]).map Sim.trace =
      some [(0, 12), (1, 13), (0, 16), (1, 17)] := by
  refine ⟨fun h => ?_, by decide, by decide⟩
  have honDue : OnDue plainEnv ⟨7, 1⟩ twoTimers := h.exact [] ⟨7, 1⟩ twoTimers (by simp) rfl
  have hstart : AtLoop plainEnv ⟨7, 1⟩ twoTimers 0 (held twoTimers) := .refl
  have hturn := honDue _ _ (hstart.writes (by decide) (by decide)) rfl [] 0 [1] (by decide)
    (by decide) ⟨.ros, 3, 12, false⟩ (by decide)
  exact absurd hturn (by decide)

end Rtest
