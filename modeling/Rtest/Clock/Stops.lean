import Rtest.Foundations.Agenda
import Rtest.Clock.CallbackCounts
import Rtest.Clock.CurrentTimers

/-!
# The stops of an advance

What one round of an advance does to the timers of a node when none of them is overdue: a timer
that is due is called, in its turn, and its due time moves on by one period. From round to round the
due times still to come are the same ones.

## Main definitions

- `Sim.Passed` — a state after one pass over the timers
- `Sim.RegisteredOnce` — no timer is on the node's list twice
- `Sim.Calm` — no timer is overdue
- `Sim.Later` — a state that time and the timers' turns lead to
- `Sim.AtPoint` — how an advance stands where its loop has come to
-/

namespace Rtest

open TriggeringTestClock Periodic

variable {env : Env} {u v w : Sim} {t : TimerRef} {timer : Timer} {d : Duration} {start step : ℤ}

theorem Timer.fired_canceled {now : ℤ} (hc : ¬ timer.canceled = false) :
    timer.fired now = timer := by
  rw [Timer.fired, if_neg fun h => hc (Timer.isDue_iff.mp h).1]

/-- A turn leaves the timer not overdue, and the due times to come as they were. -/
theorem Timer.fired_spec {now : ℤ} (hp : 1 ≤ timer.period) (hc : timer.canceled = false)
    (hlate : now ≤ timer.nextCall + timer.period) :
    ∃ next, timer.fired now = { timer with nextCall := next } ∧ now ≤ next ∧
      (now < timer.nextCall + timer.period → now < next) ∧
      ∀ x, now < x → fallsAt next timer.period x = fallsAt timer.nextCall timer.period x := by
  cases hdue : timer.isDue now with
  | true =>
    obtain ⟨-, hle⟩ := Timer.isDue_iff.mp hdue
    refine ⟨timer.nextCall + timer.period, by rw [Timer.fired, if_pos hdue], hlate, id, ?_⟩
    intro x hx
    exact fallsAt_next (by omega) (by omega)
  | false =>
    have hlt : now < timer.nextCall := by
      by_contra hle
      rw [Timer.isDue_iff.mpr ⟨hc, by omega⟩] at hdue
      cases hdue
    refine ⟨timer.nextCall, by rw [Timer.fired, hdue]; rfl, by omega, fun _ => hlt, fun _ _ => rfl⟩

namespace Sim

/-- The timer is due when its clock reads `now`. -/
def isDue (u : Sim) (t : TimerRef) (now : ℤ) : Bool :=
  (u.timers.get? t).any fun timer => timer.isDue now

/-- By the state of the timer in `u`, a callback of it is due at `x`. -/
def dueAt (u : Sim) (t : TimerRef) (x : ℤ) : Bool :=
  (u.timers.get? t).any fun timer => !timer.canceled && fallsAt timer.nextCall timer.period x

theorem dueAt_of_get? (h : u.timers.get? t = some timer) (x : ℤ) :
    u.dueAt t x = (!timer.canceled && fallsAt timer.nextCall timer.period x) := by
  simp [dueAt, h]

/-- A callback due at `x` is that of a timer due by then. -/
theorem exists_of_dueAt {x : ℤ} (h : u.dueAt t x = true) : ∃ timer,
    u.timers.get? t = some timer ∧ timer.canceled = false ∧ timer.nextCall ≤ x ∧
      fallsAt timer.nextCall timer.period x = true := by
  cases hget : u.timers.get? t with
  | none => simp [dueAt, hget] at h
  | some timer =>
    rw [dueAt_of_get? hget, Bool.and_eq_true, Bool.not_eq_true'] at h
    exact ⟨timer, rfl, h.1, le_of_fallsAt h.2, h.2⟩

theorem isDue_of_get? (h : u.timers.get? t = some timer) (now : ℤ) :
    u.isDue t now = timer.isDue now := by
  simp [isDue, h]

-- ════════════════════════════════════════════════════════════════════════
-- One pass over the timers
-- ════════════════════════════════════════════════════════════════════════

theorem invoked_iff_isDue (henv : Quiet env) (h : Prompt u t)
    (hget : u.timers.get? t = some timer) :
    Invoked env u t ↔ timer.isDue u.rosTime = true := by
  rw [Invoked, (fire_prompt henv h hget).2]
  split <;> simp_all

/-- `u'` is `u` after a pass over the timers `l`. -/
structure Passed (u : Sim) (l : List TimerRef) (u' : Sim) : Prop where
  book : Bookkeeping u u'
  served : ∀ t ∈ l, ∀ timer, u.timers.get? t = some timer →
    u'.timers.get? t = some (timer.fired u.rosTime)
  others : ∀ t, t ∉ l → u'.timers.get? t = u.timers.get? t
  trace : u'.trace = u.trace ++ eventsAt u.isDue l u.rosTime

/-- **One pass.** Every timer has one turn, in the order of the list. -/
theorem passed_fireAll (henv : Quiet env) {l : List TimerRef} (hnodup : l.Nodup)
    (hl : ∀ t ∈ l, Prompt u t) : Passed u l (u.fireAllTimerCallbacks env l) := by
  induction l generalizing u with
  | nil =>
    exact ⟨.refl u, fun t ht => absurd ht List.not_mem_nil, fun _ _ => rfl,
      (List.append_nil _).symm⟩
  | cons t₀ l ih =>
    obtain ⟨hnot, hnodup⟩ := List.nodup_cons.mp hnodup
    have hreg := hl t₀ List.mem_cons_self
    obtain ⟨timer₀, hget₀, hros, hp, -⟩ := hreg
    obtain ⟨hbook, hother⟩ := fire_other henv hget₀ hros hp
    obtain ⟨hserved, htrace⟩ := fire_prompt henv (hl t₀ List.mem_cons_self) hget₀
    have hkeep : ∀ t ∈ l, (u.fireTimerCallback env t₀).timers.get? t = u.timers.get? t := by
      intro t ht
      refine (hother t ?_).1
      rintro rfl
      exact hnot ht
    have hnext : ∀ t ∈ l, Prompt (u.fireTimerCallback env t₀) t := by
      intro t ht
      obtain ⟨timer, hget, hrest⟩ := hl t (List.mem_cons_of_mem t₀ ht)
      refine ⟨timer, (hkeep t ht).trans hget, ?_⟩
      rw [hbook.rosTime]
      exact hrest
    have hpass := ih hnodup hnext
    refine ⟨hbook.trans hpass.book, fun t ht timer hget => ?_, fun t ht => ?_, ?_⟩
    · rcases List.mem_cons.mp ht with rfl | ht
      · obtain rfl : timer₀ = timer := Option.some.inj (hget₀.symm.trans hget)
        exact (hpass.others t hnot).trans hserved
      · have hturn := hpass.served t ht timer ((hkeep t ht).trans hget)
        rwa [hbook.rosTime] at hturn
    · obtain ⟨hne, ht⟩ := not_or.mp fun h => ht (List.mem_cons.mpr h)
      exact (hpass.others t ht).trans (hother t hne).1
    · have hsame : ∀ t ∈ l, (u.fireTimerCallback env t₀).isDue t u.rosTime =
          u.isDue t u.rosTime := by
        intro t ht
        rw [isDue, isDue, hkeep t ht]
      show ((u.fireTimerCallback env t₀).fireAllTimerCallbacks env l).trace = _
      rw [hpass.trace, htrace, hbook.rosTime, eventsAt, eventsAt, List.filter_congr hsame,
        List.filter_cons, isDue_of_get? hget₀, List.append_assoc]
      split <;> rfl

-- ════════════════════════════════════════════════════════════════════════
-- What the passes of an advance leave
-- ════════════════════════════════════════════════════════════════════════

/-- Each timer of the node has been registered once, and after it was born. -/
structure RegisteredOnce (u : Sim) : Prop where
  nodup : (u.registry.getTimers u.node).Nodup
  born : ∀ t, some t ∈ u.registry.getTimers u.node → t < u.timers.next

/-- Then none is found twice. -/
theorem RegisteredOnce.findTimers_nodup (h : RegisteredOnce u) : u.findTimers.Nodup := by
  refine h.nodup.filterMap ?_
  intro p q t hp hq
  rw [Option.mem_def, ObjectStore.lock_eq_some_iff] at hp hq
  exact hp.1.trans hq.1.symm

/-- Whatever a callback does to the timers of the node keeps it so: `create_timer` registers the
timer it has just made. -/
theorem RegisteredOnce.perform (h : RegisteredOnce u) (a : TimerAction) :
    RegisteredOnce (u.perform env a) := by
  cases a with
  | create c period autostart =>
    have hlist : (u.perform env (.create c period autostart)).registry.getTimers
        (u.perform env (.create c period autostart)).node =
          u.registry.getTimers u.node ++ [some u.timers.next] := by
      cases c <;> simp [Sim.perform, readClock, StaticMocksRegistry.getTimers_registerTimer]
    have hnext : (u.perform env (.create c period autostart)).timers.next =
        u.timers.next + 1 := by
      cases c <;> exact ObjectStore.next_alloc ..
    constructor
    · rw [hlist, List.nodup_append]
      refine ⟨h.nodup, List.nodup_singleton _, fun p hp q hq => ?_⟩
      rw [List.mem_singleton.mp hq]
      rintro rfl
      exact Nat.lt_irrefl _ (h.born _ hp)
    · intro t ht
      rw [hlist, List.mem_append, List.mem_singleton] at ht
      rw [hnext]
      rcases ht with ht | ht
      · exact Nat.lt_succ_of_lt (h.born t ht)
      · rw [Option.some.inj ht]
        exact Nat.lt_succ_self _
  | cancel t =>
    exact ⟨h.nodup, fun t' ht' => by simpa [Sim.perform] using h.born t' ht'⟩
  | reset t =>
    simp only [Sim.perform]
    split
    · exact h
    · next timer _ =>
      cases timer.clockType <;>
        exact ⟨h.nodup, fun t' ht' => by simpa [readClock] using h.born t' ht'⟩
  | release t =>
    simp only [Sim.perform]
    split
    · exact ⟨h.nodup, h.born⟩
    · exact ⟨h.nodup, fun t' ht' => by simpa using h.born t' ht'⟩

/-- The clocks agree, the node's timers are ROS timers of positive periods, and none of them is
overdue. -/
structure Calm (u : Sim) : Prop extends Simulated u where
  nodup : u.findTimers.Nodup
  agree : u.now = u.rosTime
  notOverdue : ∀ t ∈ u.findTimers, ∀ timer, u.timers.get? t = some timer →
    timer.canceled = false → u.rosTime ≤ timer.nextCall

/-- No timer is due now or overdue. -/
def Ahead (u : Sim) : Prop :=
  ∀ t ∈ u.findTimers, ∀ timer, u.timers.get? t = some timer → timer.canceled = false →
    u.rosTime < timer.nextCall

/-- From `u` to `v` time went on and the timers were served: those of the node are the same, and
so are the due times still to come. -/
structure Later (u v : Sim) : Prop where
  agree : v.now = v.rosTime
  found : v.findTimers = u.findTimers
  timers : ∀ t ∈ u.findTimers, ∀ timer, u.timers.get? t = some timer →
    ∃ next, v.timers.get? t = some { timer with nextCall := next } ∧
      (timer.canceled = false → v.rosTime ≤ next ∧ ∀ x, v.rosTime < x →
        fallsAt next timer.period x = fallsAt timer.nextCall timer.period x)

theorem Calm.later (h : Calm u) : Later u u where
  agree := h.agree
  found := rfl
  timers := fun t ht timer hget =>
    ⟨timer.nextCall, hget, fun hc => ⟨h.notOverdue t ht timer hget hc, fun _ _ => rfl⟩⟩

theorem Later.trans (h : Later u v) (h' : Later v w) (hle : v.rosTime ≤ w.rosTime) :
    Later u w where
  agree := h'.agree
  found := h'.found.trans h.found
  timers := by
    intro t ht timer hget
    obtain ⟨next, hnext, hrest⟩ := h.timers t ht timer hget
    rw [← h.found] at ht
    obtain ⟨next', hnext', hrest'⟩ := h'.timers t ht _ hnext
    refine ⟨next', hnext', fun hc => ⟨(hrest' hc).1, fun x hx => ?_⟩⟩
    rw [(hrest' hc).2 x hx]
    exact (hrest hc).2 x (by omega)

/-- A timer found later was there before. -/
theorem Later.origin (h : Later u v) (ht : t ∈ u.findTimers)
    (hget : v.timers.get? t = some timer) : ∃ timer₀ next, u.timers.get? t = some timer₀ ∧
      timer = { timer₀ with nextCall := next } ∧ (timer₀.canceled = false → v.rosTime ≤ next) := by
  obtain ⟨timer₀, hget₀⟩ := alive_of_mem_findTimers ht
  obtain ⟨next, hnext, hrest⟩ := h.timers t ht timer₀ hget₀
  exact ⟨timer₀, next, hget₀, Option.some.inj (hget.symm.trans hnext), fun hc => (hrest hc).1⟩

theorem Later.calm (hu : Calm u) (h : Later u v) : Calm v where
  clock := by
    intro t ht timer hget
    rw [h.found] at ht
    obtain ⟨timer₀, next, hget₀, rfl, -⟩ := h.origin ht hget
    exact hu.clock t ht timer₀ hget₀
  period := by
    intro t ht timer hget
    rw [h.found] at ht
    obtain ⟨timer₀, next, hget₀, rfl, -⟩ := h.origin ht hget
    exact hu.period t ht timer₀ hget₀
  nodup := by
    rw [h.found]
    exact hu.nodup
  agree := h.agree
  notOverdue := by
    intro t ht timer hget
    rw [h.found] at ht
    obtain ⟨timer₀, next, hget₀, rfl, hnext⟩ := h.origin ht hget
    exact hnext

/-- The due times still to come are the same. -/
theorem Later.dueAt (h : Later u v) (ht : t ∈ u.findTimers) {x : ℤ} (hx : v.rosTime < x) :
    v.dueAt t x = u.dueAt t x := by
  obtain ⟨timer, hget⟩ := alive_of_mem_findTimers ht
  obtain ⟨next, hnext, hrest⟩ := h.timers t ht timer hget
  rw [dueAt_of_get? hnext, dueAt_of_get? hget]
  cases hc : timer.canceled with
  | true => rfl
  | false =>
    simp only [Bool.not_false, Bool.true_and]
    exact (hrest hc).2 x hx

/-- What a running `advance` holds does not matter. -/
theorem Later.repin (h : Later u v) (pinned released : List TimerRef) :
    Later u { v with pinned := pinned, released := released } :=
  ⟨h.agree, h.found, h.timers⟩

/-- The write of a round that does not go back leaves the timers as they are. -/
theorem Calm.write (henv : Quiet env) (hv : Calm v) (hstep : 0 ≤ step) :
    (written env v step).timers = v.timers ∧
      (TriggeringTestClock.written env v step).rosTime = v.rosTime + step := by
  have hagree := hv.agree
  refine ⟨@overridden_forward env { v with now := v.now + step } henv _ ?_, ?_⟩
  · show v.rosTime ≤ v.now + step
    omega
  · show v.now + step = v.rosTime + step
    omega

/-- After the write of a round no longer than any period, the timers are prompt. -/
theorem Calm.prompt (henv : Quiet env) (hv : Calm v) (hstep : 0 ≤ step)
    (hle : ∀ t ∈ v.findTimers, ∀ timer, v.timers.get? t = some timer → step ≤ timer.period)
    (ht : t ∈ v.findTimers) : Prompt (TriggeringTestClock.written env v step) t := by
  obtain ⟨timer, hget⟩ := alive_of_mem_findTimers ht
  obtain ⟨htimers, hros⟩ := hv.write henv hstep
  refine ⟨timer, by rw [htimers, hget], hv.clock t ht timer hget, hv.period t ht timer hget, ?_⟩
  intro hc
  have hdue := hv.notOverdue t ht timer hget hc
  have hshort := hle t ht timer hget
  rw [hros]
  omega

/-- **One round**, no longer than any period. -/
theorem Calm.round (henv : Quiet env) (hv : Calm v) (hstep : 0 ≤ step)
    (hle : ∀ t ∈ v.findTimers, ∀ timer, v.timers.get? t = some timer → step ≤ timer.period)
    (hround : advanceRound env v.findTimers step v = (.ok (), u)) :
    Later v u ∧ u.rosTime = v.rosTime + step ∧ u.released = v.released ∧ (Ahead v → Ahead u) ∧
      u.trace = v.trace ++ eventsAt v.isDue v.findTimers (v.rosTime + step) := by
  obtain ⟨-, rfl⟩ := advanceRound_ok_iff.mp hround
  obtain ⟨htimers, hros⟩ := hv.write henv hstep
  have hpass := passed_fireAll henv hv.nodup fun t ht => hv.prompt henv hstep hle ht
  have hfound : (written env v step).findTimers = v.findTimers := by
    rw [findTimers, htimers]
    rfl
  have hserved := hpass.served
  rw [htimers, hros] at hserved
  have hclock : ((written env v step).fireAllTimerCallbacks env v.findTimers).rosTime =
      v.rosTime + step := hpass.book.rosTime.trans hros
  have hspec : ∀ t ∈ v.findTimers, ∀ timer, v.timers.get? t = some timer →
      timer.canceled = false → v.rosTime + step ≤ timer.nextCall + timer.period := by
    intro t ht timer hget hc
    have hdue := hv.notOverdue t ht timer hget hc
    have hshort := hle t ht timer hget
    omega
  refine ⟨⟨?_, hpass.book.findTimers.trans hfound, ?_⟩, hclock, hpass.book.released, ?_, ?_⟩
  · rw [hpass.book.now, hpass.book.rosTime]
    rfl
  · intro t ht timer hget
    have hafter := hserved t ht timer hget
    have hp := hv.period t ht timer hget
    rw [hclock]
    by_cases hc : timer.canceled = false
    · obtain ⟨next, hfired, hnext, -, hlater⟩ :=
        Timer.fired_spec hp hc (hspec t ht timer hget hc)
      exact ⟨next, hafter.trans (congrArg some hfired), fun _ => ⟨hnext, hlater⟩⟩
    · exact ⟨timer.nextCall, hafter.trans (congrArg some (Timer.fired_canceled hc)),
        fun h => absurd h hc⟩
  · intro hahead t ht timer hget hc
    rw [hpass.book.findTimers.trans hfound] at ht
    obtain ⟨timer₀, hget₀⟩ := alive_of_mem_findTimers ht
    obtain rfl := Option.some.inj (hget.symm.trans (hserved t ht timer₀ hget₀))
    have hp := hv.period t ht timer₀ hget₀
    have hc₀ : timer₀.canceled = false := by
      rw [← hc, Timer.fired]
      split <;> rfl
    have hdue := hahead t ht timer₀ hget₀ hc₀
    have hshort := hle t ht timer₀ hget₀
    obtain ⟨next, hfired, -, hnext, -⟩ := Timer.fired_spec hp hc₀ (hspec t ht timer₀ hget₀ hc₀)
    rw [hclock, hfired]
    exact hnext (by omega)
  · rw [hpass.trace, hros]
    simp only [eventsAt, isDue, htimers]
    rfl

-- ════════════════════════════════════════════════════════════════════════
-- The points an advance stops at
-- ════════════════════════════════════════════════════════════════════════

/-- How an advance of `d` from `u` stands when its loop has come to `start` in the state `v`. -/
structure AtPoint (u : Sim) (d : Duration) (start : ℤ) (v : Sim) : Prop where
  later : Later u v
  rosTime : v.rosTime = u.rosTime + start
  released : v.released = []
  nonneg : 0 ≤ start
  ahead : Ahead u → Ahead v
  grid : start % getTimersMinPeriod u.findTimers u = 0 ∨ start = d.nanoseconds

theorem Calm.minPeriod (hu : Calm u) : 1 ≤ getTimersMinPeriod u.findTimers u :=
  getTimersMinPeriod_pos _ _ hu.period

theorem Later.step_le (h : Later u v) (hstep : step ≤ getTimersMinPeriod u.findTimers u) :
    ∀ t ∈ v.findTimers, ∀ timer, v.timers.get? t = some timer → step ≤ timer.period := by
  intro t ht timer hget
  rw [h.found] at ht
  obtain ⟨timer₀, next, hget₀, rfl, -⟩ := h.origin ht hget
  have hmin := getTimersMinPeriod_le ht hget₀
  exact Int.le_trans hstep hmin

/-- Every point an advance comes to. -/
theorem Calm.atPoint (henv : Quiet env) (hu : Calm u) (h : AtLoop env d u start v) :
    AtPoint u d start v := by
  have hheld : AtPoint u d 0 (held u) :=
    { later := hu.later.repin u.findTimers []
      rosTime := (Int.add_zero _).symm
      released := rfl
      nonneg := Int.le_refl 0
      ahead := id
      grid := Or.inl (Int.zero_emod _) }
  refine h.induction (P := fun start v => AtPoint u d start v) hheld ?_
  intro start v w _ hgoing hround hv
  have hmin := hu.minPeriod
  have hnonneg := hv.nonneg
  have hround : advanceRound env v.findTimers
      (min (getTimersMinPeriod u.findTimers u) (d.nanoseconds - start)) v = (.ok (), w) := by
    rw [hv.later.found]
    exact hround
  obtain ⟨hlater, hros, hreleased, hahead, -⟩ := (hv.later.calm hu).round henv (by omega)
    (hv.later.step_le (Int.min_le_left _ _)) hround
  refine ⟨hv.later.trans hlater (by omega), ?_, hreleased.trans hv.released, by omega,
    fun h => hahead (hv.ahead h), ?_⟩
  · rw [hros, hv.rosTime]
    exact Int.add_assoc _ _ _
  · rcases Int.le_total (getTimersMinPeriod u.findTimers u) (d.nanoseconds - start) with hle | hle
    · rw [Int.min_eq_left hle, Int.add_emod_right]
      exact hv.grid.imp_right fun h => by omega
    · rw [Int.min_eq_right hle]
      exact Or.inr (by omega)

/-- The turn of a timer in the pass of a round: the timer is as it was before, and its callback is
invoked just if it is due. -/
theorem Calm.turn (henv : Quiet env) (hv : Calm v) (hstep : 0 ≤ step)
    (hle : ∀ t ∈ v.findTimers, ∀ timer, v.timers.get? t = some timer → step ≤ timer.period)
    {earlier later : List TimerRef} (hsplit : v.findTimers = earlier ++ t :: later)
    (hget : v.timers.get? t = some timer) :
    let w := (written env v step).fireAllTimerCallbacks env earlier
    w.timers.get? t = some timer ∧ w.rosTime = v.rosTime + step ∧
      (Invoked env w t ↔ timer.isDue (v.rosTime + step) = true) := by
  intro w
  obtain ⟨htimers, hros⟩ := hv.write henv hstep
  have hnodup := hv.nodup
  have hprompt : ∀ t' ∈ v.findTimers, Prompt (written env v step) t' :=
    fun t' ht' => hv.prompt henv hstep hle ht'
  rw [hsplit] at hnodup hprompt
  obtain ⟨hearlier, -, hdisjoint⟩ := List.nodup_append'.mp hnodup
  have hpass : Passed (written env v step) earlier w :=
    passed_fireAll henv hearlier fun t' ht' => hprompt t' (List.mem_append_left _ ht')
  have hnot : t ∉ earlier := fun ht => hdisjoint ht List.mem_cons_self
  have hsame : w.timers.get? t = some timer := by
    rw [hpass.others t hnot, htimers, hget]
  have hclock : w.rosTime = v.rosTime + step := hpass.book.rosTime.trans hros
  have hreg : Prompt w t := by
    obtain ⟨timer', hget', hrest⟩ := hprompt t (by simp)
    refine ⟨timer', (hpass.others t hnot).trans hget', ?_⟩
    rw [hpass.book.rosTime]
    exact hrest
  refine ⟨hsame, hclock, ?_⟩
  rw [invoked_iff_isDue henv hreg hsame, hclock]

/-- The writes of an advance over timers. -/
theorem Calm.atWrite (henv : Quiet env) (hu : Calm u) (hne : u.findTimers ≠ [])
    (h : Writes env d u v step) : ∃ start, AtPoint u d start v ∧ start < d.nanoseconds ∧
      step = min (getTimersMinPeriod u.findTimers u) (d.nanoseconds - start) := by
  rw [Writes, if_neg hne] at h
  obtain ⟨start, hreach, hgoing, hstep⟩ := h
  exact ⟨start, hu.atPoint henv hreach, hgoing, hstep⟩

end Sim

end Rtest
