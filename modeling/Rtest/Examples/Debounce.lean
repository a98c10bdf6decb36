import Rtest.Foundations.Runs
import Rtest.Foundations.Spacing
import Rtest.Clock.TestClock

/-!
# A debounced value under a test clock

The node `DebounceNode` ignores a value that is set too soon after the last one it took. It reads
the node's clock, which a test moves with a `TestClock`.

## Main definitions

- `DebounceNode.set`, `DebounceNode.step` — the node, and what a test does
- `DebounceNode.offers`, `DebounceNode.taken` — the values offered and the values taken, with the
  readings of the node's clock

## Main results

- `DebounceNode.taken_spaced` — which of the values offered the node takes
-/

namespace Rtest

structure DebounceNode where
  sim : Sim
  value : ℤ
  lastSetTime : ℤ

/-- What a test does; a method of the clock may throw. -/
inductive DebounceEvent where
  | set (newValue : ℤ)
  | advance (d : Duration)
  | advanceMs (milliseconds : ℤ)
  | resetClock (tv : ℤ)
  deriving DecidableEq, Repr

namespace DebounceNode

/-- The constructor. -/
def construct (sim : Sim) : DebounceNode := ⟨sim, 0, sim.rosTime⟩

variable (env : Env) (debounceMs : ℤ)

/-- `debounce_time_`, in nanoseconds. -/
def debounceTime : ℤ := debounceMs * 1000000

/-- The condition of `set`. -/
def isDue (s : DebounceNode) : Bool := s.sim.rosTime - s.lastSetTime ≥ debounceTime debounceMs

def set (newValue : ℤ) (s : DebounceNode) : DebounceNode :=
  if s.isDue debounceMs then { s with value := newValue, lastSetTime := s.sim.rosTime } else s

def get (s : DebounceNode) : ℤ := s.value

/-- What an event does to the clocks. -/
def tick (sim : Sim) : DebounceEvent → Sim
  | .set _ => sim
  | .advance d => (TestClock.advance env d sim).2
  | .advanceMs milliseconds => (TestClock.advanceMs env milliseconds sim).2
  | .resetClock tv => (TestClock.resetClock env tv sim).2

def step (s : DebounceNode) (ev : DebounceEvent) : DebounceNode :=
  match ev with
  | .set newValue => s.set debounceMs newValue
  | ev => { s with sim := tick env s.sim ev }

/-- The values offered, with the readings of the node's clock. -/
def offers (sim : Sim) : List DebounceEvent → List (ℤ × ℤ)
  | [] => []
  | .set newValue :: evs => (sim.rosTime, newValue) :: offers sim evs
  | ev :: evs => offers (tick env sim ev) evs

/-- The values the node takes, with the readings of its clock: those of the calls of `set` that it
does not ignore. -/
def taken (s : DebounceNode) : List DebounceEvent → List (ℤ × ℤ)
  | [] => []
  | .set newValue :: evs =>
    let rest := taken (step env debounceMs s (.set newValue)) evs
    if s.isDue debounceMs then (s.sim.rosTime, newValue) :: rest else rest
  | ev :: evs => taken (step env debounceMs s ev) evs

/-- The earliest time at which a value is taken after one at the given time. -/
def due (last : ℤ) : ℤ := last + debounceTime debounceMs

/-- The clock is not moved back. -/
def Forward : DebounceEvent → Prop
  | .set _ => True
  | .advance d => 0 ≤ d.nanoseconds
  | .advanceMs milliseconds => 0 ≤ milliseconds
  | .resetClock _ => False

variable {env debounceMs} {sim : Sim} {s : DebounceNode} {evs : List DebounceEvent}

theorem le_rosTime_advanceNs (ns : ℤ) (hle : sim.rosTime ≤ sim.now) (hns : 0 ≤ ns) :
    sim.rosTime ≤ (TestClock.advanceNs env ns sim).2.rosTime ∧
      (TestClock.advanceNs env ns sim).2.rosTime ≤ (TestClock.advanceNs env ns sim).2.now := by
  cases hok : env.overrideOk sim.overrides with
  | true =>
    rw [TestClock.advanceNs_ok hok]
    show sim.rosTime ≤ sim.now + ns ∧ sim.now + ns ≤ sim.now + ns
    omega
  | false =>
    rw [TestClock.advanceNs_error hok]
    show sim.rosTime ≤ sim.rosTime ∧ sim.rosTime ≤ sim.now + ns
    omega

/-- A write may fail: the node's clock then lags behind the test clock, which it never passes. -/
theorem le_rosTime_tick {ev : DebounceEvent} (h : Forward ev) (hle : sim.rosTime ≤ sim.now) :
    sim.rosTime ≤ (tick env sim ev).rosTime ∧ (tick env sim ev).rosTime ≤ (tick env sim ev).now := by
  cases ev with
  | set newValue => exact ⟨le_rfl, hle⟩
  | advance d => exact le_rosTime_advanceNs d.nanoseconds hle h
  | advanceMs milliseconds =>
    apply le_rosTime_advanceNs _ hle
    show 0 ≤ milliseconds * 1000000
    have hms : 0 ≤ milliseconds := h
    omega
  | resetClock tv => cases h

/-- The readings never go back. -/
theorem offers_sorted (h : ∀ ev ∈ evs, Forward ev) (hle : sim.rosTime ≤ sim.now) :
    (∀ offer ∈ offers env sim evs, sim.rosTime ≤ offer.1) ∧
      (offers env sim evs).Pairwise fun offer later => offer.1 ≤ later.1 := by
  induction evs generalizing sim with
  | nil => exact ⟨fun offer ho => absurd ho List.not_mem_nil, .nil⟩
  | cons ev evs ih =>
    have hrest : ∀ ev' ∈ evs, Forward ev' := fun ev' hev' => h ev' (.tail ev hev')
    have hfirst : Forward ev := h ev List.mem_cons_self
    obtain ⟨hmoved, hstays⟩ := @le_rosTime_tick env sim ev hfirst hle
    obtain ⟨hlater, hsorted⟩ := ih hrest hstays
    cases ev with
    | set newValue =>
      refine ⟨fun offer ho => ?_, List.pairwise_cons.mpr ⟨hlater, hsorted⟩⟩
      obtain rfl | ho := List.mem_cons.mp ho
      · exact le_rfl
      · exact hlater offer ho
    | advance d => exact ⟨fun offer ho => le_trans hmoved (hlater offer ho), hsorted⟩
    | advanceMs milliseconds => exact ⟨fun offer ho => le_trans hmoved (hlater offer ho), hsorted⟩
    | resetClock tv => exact ⟨fun offer ho => le_trans hmoved (hlater offer ho), hsorted⟩

theorem isDue_iff : s.isDue debounceMs = true ↔ due debounceMs s.lastSetTime ≤ s.sim.rosTime := by
  simp only [isDue, due, decide_eq_true_eq, ge_iff_le]
  omega

theorem set_of_due (h : s.isDue debounceMs = true) (newValue : ℤ) :
    s.set debounceMs newValue = { s with value := newValue, lastSetTime := s.sim.rosTime } :=
  if_pos h

theorem set_of_not_due (h : ¬ s.isDue debounceMs = true) (newValue : ℤ) :
    s.set debounceMs newValue = s :=
  if_neg h

/-- The node takes every value that is due after the last one it took. -/
theorem taken_eq_take (s : DebounceNode) (evs : List DebounceEvent) :
    taken env debounceMs s evs =
      Spacing.take Prod.fst (due debounceMs) s.lastSetTime (offers env s.sim evs) := by
  induction evs generalizing s with
  | nil => rfl
  | cons ev evs ih =>
    cases ev with
    | set newValue =>
      simp only [taken, step, offers, Spacing.take, ih]
      by_cases hdue : s.isDue debounceMs = true
      · rw [if_pos hdue, if_pos (isDue_iff.mp hdue), set_of_due hdue]
      · rw [if_neg hdue, if_neg (mt isDue_iff.mpr hdue), set_of_not_due hdue]
    | advance d => exact ih { s with sim := tick env s.sim (.advance d) }
    | advanceMs milliseconds => exact ih { s with sim := tick env s.sim (.advanceMs milliseconds) }
    | resetClock tv => exact ih { s with sim := tick env s.sim (.resetClock tv) }

/-- The node is left with the last value it took, and with its time. -/
theorem foldl_step (s : DebounceNode) (evs : List DebounceEvent) :
    ((evs.foldl (step env debounceMs) s).lastSetTime, (evs.foldl (step env debounceMs) s).get) =
      (taken env debounceMs s evs).getLastD (s.lastSetTime, s.value) := by
  induction evs generalizing s with
  | nil => rfl
  | cons ev evs ih =>
    rw [List.foldl_cons, ih]
    cases ev with
    | set newValue =>
      simp only [taken, step]
      by_cases hdue : s.isDue debounceMs = true
      · rw [if_pos hdue, set_of_due hdue, List.getLastD_cons]
      · rw [if_neg hdue, set_of_not_due hdue]
    | advance d => rfl
    | advanceMs milliseconds => rfl
    | resetClock tv => rfl

/-- **Spaced values, as many as can be.** Whichever writes of the clock fail and wherever it is reset
to, the node takes each value offered that is due after the last one it took: values at least the
debounce time apart by its clock, the first no sooner after its construction; and it is left with
the last of them. If the clock is not moved back, no other choice of values so spaced is larger. -/
theorem taken_spaced (env : Env) (debounceMs : ℤ) (sim : Sim) (evs : List DebounceEvent) :
    taken env debounceMs (construct sim) evs =
        Spacing.take Prod.fst (due debounceMs) sim.rosTime (offers env sim evs) ∧
      (taken env debounceMs (construct sim) evs).Sublist (offers env sim evs) ∧
      Spacing.Spaced Prod.fst (due debounceMs) sim.rosTime
        (taken env debounceMs (construct sim) evs) ∧
      (evs.foldl (step env debounceMs) (construct sim)).get =
        ((taken env debounceMs (construct sim) evs).getLastD (sim.rosTime, 0)).2 ∧
      (sim.rosTime ≤ sim.now → (∀ ev ∈ evs, Forward ev) → ∀ others,
        others.Sublist (offers env sim evs) →
        Spacing.Spaced Prod.fst (due debounceMs) sim.rosTime others →
          others.length ≤ (taken env debounceMs (construct sim) evs).length) := by
  have htaken : taken env debounceMs (construct sim) evs =
      Spacing.take Prod.fst (due debounceMs) sim.rosTime (offers env sim evs) :=
    taken_eq_take (construct sim) evs
  have hlast := congrArg Prod.snd (@foldl_step env debounceMs (construct sim) evs)
  refine ⟨htaken, ?_, ?_, hlast, fun hle hforward others hsub hspaced => ?_⟩
  · rw [htaken]
    exact Spacing.take_sublist sim.rosTime _
  · rw [htaken]
    exact Spacing.spaced_take sim.rosTime _
  · have hmono : Monotone (due debounceMs) := fun a b h => by
      rw [due, due]
      omega
    rw [htaken]
    exact Spacing.length_le_take hmono (offers_sorted hforward hle).2 hsub le_rfl hspaced

/-- Values at 124, 246, 247 and 248 ms. -/
def fourValues : List DebounceEvent :=
  [.advanceMs 124, .set 42, .advanceMs 122, .set 321, .advanceMs 1, .set 123, .advanceMs 1, .set 7]

/-- With 123 ms between them, the node ignores the second and the last, and no choice of three is
possible. -/
theorem taken_fourValues :
    let sim := Sim.mk .empty .empty 1 0 0 0 0 [] [] []
    (taken plainEnv 123 (construct sim) fourValues).map Prod.snd = [42, 123] ∧
      ∀ others, others.Sublist (offers plainEnv sim fourValues) →
        Spacing.Spaced Prod.fst (due 123) 0 others → others.length ≤ 2 := by
  intro sim
  refine ⟨by decide, fun others hsub hspaced => ?_⟩
  have hforward : ∀ ev ∈ fourValues, Forward ev := by simp [fourValues, Forward]
  obtain ⟨-, -, -, -, hmost⟩ := taken_spaced plainEnv 123 sim fourValues
  exact hmost le_rfl hforward others hsub hspaced

end DebounceNode

end Rtest
