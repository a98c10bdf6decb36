import Mathlib.Tactic.Ring
import Rtest.Foundations.Periodic

/-!
# Alarms

An alarm rings at its due time and from there once in each period. It can be stopped, restarted,
which puts its due time one period ahead, and discarded, after which it stays silent.

## Main definitions

- `Alarm.elapse` — time passes
- `Alarm.heed` — an order is given at some time

## Main results

- `Alarm.elapse_elapse` — it does not matter in how many parts time passes
- `Alarm.rings_elapse` — what a new alarm rings that is left alone
-/

structure Alarm where
  period : ℤ
  next : ℤ
  running : Bool
  discarded : Bool
  rings : ℕ
  deriving DecidableEq, Repr

inductive AlarmOrder where
  | stop
  | restart
  | discard
  deriving DecidableEq, Repr

namespace Alarm

open Periodic

/-- Time passes up to `t`. -/
def elapse (t : ℤ) (a : Alarm) : Alarm :=
  if a.running then
    { a with
      rings := a.rings + eventsUpTo a.next a.period t
      next := a.next + eventsUpTo a.next a.period t * a.period }
  else a

/-- What an order given at time `t` does. -/
def obey (t : ℤ) (a : Alarm) : AlarmOrder → Alarm
  | .stop => { a with running := false }
  | .restart => if a.discarded then a else { a with running := true, next := t + a.period }
  | .discard => { a with running := false, discarded := true }

/-- An order given at some time. -/
def heed (a : Alarm) (order : ℤ × AlarmOrder) : Alarm := (a.elapse order.1).obey order.1 order.2

/-- A new alarm. -/
def wind (t period : ℤ) (running : Bool) : Alarm := ⟨period, t + period, running, false, 0⟩

/-- Nothing is overdue at time `t`, and what is discarded is silent. -/
structure Ready (t : ℤ) (a : Alarm) : Prop where
  period : 0 < a.period
  next : a.running = true → t < a.next
  silent : a.discarded = true → a.running = false

variable {a : Alarm} {t u : ℤ}

@[simp] theorem period_elapse : (a.elapse t).period = a.period := by
  rw [elapse]
  split <;> rfl

@[simp] theorem running_elapse : (a.elapse t).running = a.running := by
  rw [elapse]
  split <;> rfl

@[simp] theorem discarded_elapse : (a.elapse t).discarded = a.discarded := by
  rw [elapse]
  split <;> rfl

/-- A count of what rang, by its neighbours. -/
theorem elapse_eq (h : a.running = true) (hp : 0 < a.period) {c : ℕ}
    (hnext : t < a.next + c * a.period)
    (hlast : ∀ k : ℕ, c = k + 1 → a.next + k * a.period ≤ t) :
    a.elapse t = { a with rings := a.rings + c, next := a.next + c * a.period } := by
  rw [elapse, if_pos h, eventsUpTo_eq hp hnext hlast]

theorem Ready.elapse (h : a.Ready t) (u : ℤ) : (a.elapse u).Ready u where
  period := by simpa using h.period
  next := by
    intro hrun
    rw [running_elapse] at hrun
    rw [Alarm.elapse, if_pos hrun]
    exact lt_after_eventsUpTo h.period a.next u
  silent := by simpa using h.silent

/-- What is not overdue has nothing to make up for. -/
theorem Ready.elapse_self (h : a.Ready t) : a.elapse t = a := by
  cases hrun : a.running with
  | false => rw [Alarm.elapse, hrun, if_neg Bool.false_ne_true]
  | true =>
    have hnext := h.next hrun
    rw [elapse_eq hrun h.period (c := 0) (by simpa using hnext) (fun _ hk => by cases hk)]
    simp

/-- **It does not matter in how many parts time passes.** -/
theorem elapse_elapse (hp : 0 < a.period) {v : ℤ} (hv : u ≤ v) :
    (a.elapse u).elapse v = a.elapse v := by
  cases hrun : a.running with
  | false => simp [Alarm.elapse, hrun]
  | true =>
    simp only [Alarm.elapse, hrun, if_true, eventsUpTo_split hp a.next hv]
    congr 1
    · push_cast
      ring
    · ring

theorem Ready.obey (h : a.Ready t) (order : AlarmOrder) : (a.obey t order).Ready t := by
  cases order with
  | stop => exact ⟨h.period, fun hrun => absurd hrun Bool.false_ne_true, fun _ => rfl⟩
  | restart =>
    rw [Alarm.obey]
    split
    · exact h
    · next hd =>
      exact ⟨h.period, fun _ => lt_add_of_pos_right t h.period, fun hd' => absurd hd' hd⟩
  | discard => exact ⟨h.period, fun hrun => absurd hrun Bool.false_ne_true, fun _ => rfl⟩

/-- Time that passes before the orders makes no difference to what follows them. -/
theorem foldl_heed_elapse (hp : 0 < a.period) {orders : List (ℤ × AlarmOrder)}
    (h : ∀ order ∈ orders, u ≤ order.1) {v : ℤ} (hv : u ≤ v) :
    (orders.foldl heed (a.elapse u)).elapse v = (orders.foldl heed a).elapse v := by
  cases orders with
  | nil => exact elapse_elapse hp hv
  | cons order orders =>
    have hfirst : (a.elapse u).heed order = a.heed order := by
      rw [heed, heed, elapse_elapse hp (h order List.mem_cons_self)]
    rw [List.foldl_cons, List.foldl_cons, hfirst]

/-- How often it has rung before is nothing to an alarm. -/
theorem elapse_recount (a : Alarm) (k : ℕ) (t : ℤ) : { a with rings := k }.elapse t =
    { a.elapse t with rings := k + ((a.elapse t).rings - a.rings) } := by
  cases hrun : a.running with
  | false => simp [Alarm.elapse, hrun]
  | true => simp [Alarm.elapse, hrun]

/-- **What a new alarm rings that is left alone.** -/
theorem rings_elapse {period : ℤ} (hp : 0 < period) (running : Bool) (h : t ≤ u) :
    (((wind t period running).elapse u).rings : ℤ) = if running then (u - t) / period else 0 := by
  cases running with
  | false => rfl
  | true =>
    have hrings : ((wind t period true).elapse u).rings = eventsUpTo (t + period) period u :=
      Nat.zero_add _
    rw [hrings, eventsUpTo_ahead hp h, if_pos rfl]

end Alarm
