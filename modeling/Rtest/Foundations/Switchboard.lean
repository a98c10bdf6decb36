import Rtest.Foundations.Runs
import Mathlib.Logic.Function.Basic

/-!
# Switchboards

Lines carry calls to stations. A station is new when it is connected to a line, has that line until
one of the two leaves or all lines are cut, and is never connected again. What a station hears is
therefore one stretch of what is sent on its line.

## Main definitions

- `Switchboard.Signal`, `Switchboard.Board` — what happens, and what it happens to
- `Switchboard.heard` — what is sent on a line before it is taken from its station

## Main results

- `Switchboard.inbox_connect` — a station hears exactly the calls of its stretch, in order
-/

namespace Switchboard

variable {L S A : Type*}

/-- What happens at a board. -/
inductive Signal (L S A : Type*) where
  | connect (line : L) (station : S)
  | hangUp (station : S)
  | leave (line : L)
  | cut
  | send (line : L) (call : A)
  | idle
  deriving DecidableEq, Repr

/-- Which station a line leads to, the stations connected so far, and the calls heard, in order,
each with the station that heard it. -/
structure Board (L S A : Type*) where
  station : L → Option S
  seen : List S
  heard : List (S × A)

/-- No line leads anywhere. -/
def Board.empty : Board L S A := ⟨fun _ => none, [], []⟩

/-- Lines lead to different stations, all of which have been seen, and only such have heard a
call. -/
structure Wired (b : Board L S A) : Prop where
  seen : ∀ l s, b.station l = some s → s ∈ b.seen
  one : ∀ l l' s, b.station l = some s → b.station l' = some s → l = l'
  heard : ∀ call ∈ b.heard, call.1 ∈ b.seen

theorem wired_empty : Wired (Board.empty : Board L S A) where
  seen := by intro l s h; cases h
  one := by intro l l' s h; cases h
  heard := by intro call h; cases h

/-- Fewer lines connected, and no call heard but by a station seen, leaves a board wired. -/
theorem Wired.of_fewer {b b' : Board L S A} (h : Wired b)
    (hstation : ∀ l s, b'.station l = some s → b.station l = some s)
    (hseen : b'.seen = b.seen) (hheard : ∀ call ∈ b'.heard, call.1 ∈ b.seen) : Wired b' where
  seen := fun l s hl => by rw [hseen]; exact h.seen l s (hstation l s hl)
  one := fun l l' s hl hl' => h.one l l' s (hstation l s hl) (hstation l' s hl')
  heard := by rw [hseen]; exact hheard

variable [DecidableEq L] [DecidableEq S]

/-- A free line is connected to a new station; all else is always possible. -/
def enabled (b : Board L S A) : Signal L S A → Bool
  | .connect l s => (b.station l).isNone && decide (s ∉ b.seen)
  | _ => true

def act (b : Board L S A) : Signal L S A → Board L S A
  | .connect l s => { b with station := Function.update b.station l (some s), seen := s :: b.seen }
  | .hangUp s => { b with station := fun l => if b.station l = some s then none else b.station l }
  | .leave l => { b with station := Function.update b.station l none }
  | .cut => { b with station := fun _ => none }
  | .send l a => { b with heard := b.heard ++ ((b.station l).map fun s => (s, a)).toList }
  | .idle => b

def step (b : Board L S A) (sig : Signal L S A) : Option (Board L S A) :=
  if enabled b sig then some (act b sig) else none

/-- The calls a station has heard. -/
def Board.inbox (b : Board L S A) (s : S) : List A :=
  (b.heard.filter fun call => call.1 = s).map Prod.snd

/-- The signal takes the line from the station. -/
def ends (l : L) (s : S) : Signal L S A → Bool
  | .hangUp s' => s' = s
  | .leave l' => l' = l
  | .cut => true
  | _ => false

/-- The call a signal sends on a line. -/
def sentOn (l : L) : Signal L S A → Option A
  | .send l' a => if l' = l then some a else none
  | _ => none

/-- What is sent on a line before it is taken from its station. -/
def heard (l : L) (s : S) (sigs : List (Signal L S A)) : List A :=
  (sigs.takeWhile fun sig => !ends l s sig).filterMap (sentOn l)

variable {b b' : Board L S A} {l : L} {s : S} {sig : Signal L S A} {sigs : List (Signal L S A)}

theorem step_eq_some_iff : step b sig = some b' ↔ enabled b sig = true ∧ b' = act b sig := by
  simp only [step]
  split
  · next h => simp [h, eq_comm]
  · next h => simp [h]

theorem Wired.step (h : Wired b) (hs : step b sig = some b') : Wired b' := by
  obtain ⟨hen, rfl⟩ := step_eq_some_iff.mp hs
  cases sig with
  | connect l₀ s₀ =>
    simp only [enabled, Bool.and_eq_true, decide_eq_true_eq] at hen
    constructor
    · intro l s hl
      simp only [act, Function.update_apply] at hl
      split at hl
      · cases hl
        exact List.mem_cons_self
      · exact List.mem_cons_of_mem _ (h.seen l s hl)
    · intro l l' s hl hl'
      simp only [act, Function.update_apply] at hl hl'
      split at hl <;> split at hl'
      · next heq heq' => rw [heq, heq']
      · cases hl
        exact absurd (h.seen l' _ hl') hen.2
      · cases hl'
        exact absurd (h.seen l _ hl) hen.2
      · exact h.one l l' s hl hl'
    · exact fun call hcall => List.mem_cons_of_mem _ (h.heard call hcall)
  | hangUp s₀ =>
    refine h.of_fewer (fun l s hl => ?_) rfl h.heard
    simp only [act] at hl
    split at hl
    · cases hl
    · exact hl
  | leave l₀ =>
    refine h.of_fewer (fun l s hl => ?_) rfl h.heard
    simp only [act, Function.update_apply] at hl
    split at hl
    · cases hl
    · exact hl
  | cut => exact h.of_fewer (fun l s hl => by cases hl) rfl h.heard
  | send l₀ a =>
    refine h.of_fewer (fun l s hl => hl) rfl ?_
    intro call hcall
    simp only [act, List.mem_append, Option.mem_toList, Option.map_eq_some_iff] at hcall
    obtain hcall | ⟨s, hl, rfl⟩ := hcall
    · exact h.heard call hcall
    · exact h.seen l₀ s hl
  | idle => exact h

theorem wired_of_run {as : List (Signal L S A)} (hrun : Runs.run step Board.empty as = some b) :
    Wired b :=
  Runs.run_invariant (fun _ _ _ h hs => h.step hs) wired_empty hrun

/-- A call goes to the station of its line only. -/
theorem inbox_send (l : L) (a : A) (s : S) :
    (act b (.send l a)).inbox s = b.inbox s ++ if b.station l = some s then [a] else [] := by
  simp only [Board.inbox, act, List.filter_append, List.map_append]
  cases hl : b.station l with
  | none => simp
  | some s' =>
    by_cases hs : s' = s
    · simp [hs]
    · simp [hs]

/-- A station that has had its line gets no other, and hears nothing. -/
theorem step_unplugged (hseen : s ∈ b.seen) (hun : ∀ l, b.station l ≠ some s)
    (hs : step b sig = some b') :
    s ∈ b'.seen ∧ (∀ l, b'.station l ≠ some s) ∧ b'.inbox s = b.inbox s := by
  obtain ⟨hen, rfl⟩ := step_eq_some_iff.mp hs
  cases sig with
  | connect l₀ s₀ =>
    simp only [enabled, Bool.and_eq_true, decide_eq_true_eq] at hen
    refine ⟨List.mem_cons_of_mem _ hseen, fun l hl => ?_, rfl⟩
    simp only [act, Function.update_apply] at hl
    split at hl
    · cases hl
      exact hen.2 hseen
    · exact hun l hl
  | hangUp s₀ =>
    refine ⟨hseen, fun l hl => ?_, rfl⟩
    simp only [act] at hl
    split at hl
    · cases hl
    · exact hun l hl
  | leave l₀ =>
    refine ⟨hseen, fun l hl => ?_, rfl⟩
    simp only [act, Function.update_apply] at hl
    split at hl
    · cases hl
    · exact hun l hl
  | cut => exact ⟨hseen, fun _ => nofun, rfl⟩
  | send l₀ a =>
    refine ⟨hseen, hun, ?_⟩
    rw [inbox_send, if_neg (hun l₀), List.append_nil]
  | idle => exact ⟨hseen, hun, rfl⟩

theorem inbox_unplugged (hseen : s ∈ b.seen) (hun : ∀ l, b.station l ≠ some s)
    (hrun : Runs.run step b sigs = some b') : b'.inbox s = b.inbox s := by
  induction sigs generalizing b with
  | nil =>
    cases hrun
    rfl
  | cons sig sigs ih =>
    obtain ⟨c, hc, hrest⟩ := Runs.run_cons_eq_some_iff.mp hrun
    obtain ⟨hseen', hun', hinbox⟩ := step_unplugged hseen hun hc
    rw [ih hseen' hun' hrest, hinbox]

/-- A signal that takes a station from its line leaves it without one; nothing is heard by it. -/
theorem step_ends (hw : Wired b) (hl : b.station l = some s) (hends : ends l s sig = true)
    (hs : step b sig = some b') :
    s ∈ b'.seen ∧ (∀ l, b'.station l ≠ some s) ∧ b'.inbox s = b.inbox s := by
  obtain ⟨-, rfl⟩ := step_eq_some_iff.mp hs
  have hseen := hw.seen l s hl
  cases sig with
  | hangUp s₀ =>
    simp only [ends, decide_eq_true_eq] at hends
    refine ⟨hseen, fun l' hl' => ?_, rfl⟩
    simp only [act, hends] at hl'
    split at hl'
    · cases hl'
    · next hne => exact hne hl'
  | leave l₀ =>
    simp only [ends, decide_eq_true_eq] at hends
    refine ⟨hseen, fun l' hl' => ?_, rfl⟩
    simp only [act, hends, Function.update_apply] at hl'
    split at hl'
    · cases hl'
    · next hne => exact hne (hw.one l' l s hl' hl)
  | cut => exact ⟨hseen, fun _ => nofun, rfl⟩
  | _ => cases hends

/-- Any other signal leaves it there, and what is sent on the line is heard by it. -/
theorem step_plugged (hw : Wired b) (hl : b.station l = some s) (hends : ends l s sig = false)
    (hs : step b sig = some b') :
    b'.station l = some s ∧ b'.inbox s = b.inbox s ++ (sentOn l sig).toList := by
  obtain ⟨hen, rfl⟩ := step_eq_some_iff.mp hs
  cases sig with
  | connect l₀ s₀ =>
    simp only [enabled, Bool.and_eq_true, Option.isNone_iff_eq_none] at hen
    have hne : l ≠ l₀ := by
      rintro rfl
      rw [hen.1] at hl
      cases hl
    refine ⟨?_, (List.append_nil _).symm⟩
    simp only [act, Function.update_of_ne hne, hl]
  | hangUp s₀ =>
    simp only [ends, decide_eq_false_iff_not] at hends
    refine ⟨?_, (List.append_nil _).symm⟩
    simp only [act, hl]
    rw [if_neg fun h => hends (Option.some.inj h).symm]
  | leave l₀ =>
    simp only [ends, decide_eq_false_iff_not] at hends
    refine ⟨?_, (List.append_nil _).symm⟩
    simp only [act, Function.update_of_ne (Ne.symm hends), hl]
  | cut => cases hends
  | send l₀ a =>
    refine ⟨hl, ?_⟩
    rw [inbox_send]
    by_cases hl₀ : l₀ = l
    · simp [sentOn, hl₀, hl]
    · rw [if_neg fun h => hl₀ (hw.one l₀ l s h hl)]
      simp [sentOn, hl₀]
  | idle => exact ⟨hl, (List.append_nil _).symm⟩

/-- A station that has its line hears what is sent on it until it is taken from it. -/
theorem inbox_plugged (hw : Wired b) (hl : b.station l = some s)
    (hrun : Runs.run step b sigs = some b') : b'.inbox s = b.inbox s ++ heard l s sigs := by
  induction sigs generalizing b with
  | nil =>
    cases hrun
    simp [heard]
  | cons sig sigs ih =>
    obtain ⟨c, hc, hrest⟩ := Runs.run_cons_eq_some_iff.mp hrun
    cases hends : ends l s sig with
    | true =>
      have hheard : heard l s (sig :: sigs) = [] := by simp [heard, hends]
      obtain ⟨hseen, hun, hinbox⟩ := step_ends hw hl hends hc
      rw [hheard, List.append_nil, inbox_unplugged hseen hun hrest, hinbox]
    | false =>
      have hheard : heard l s (sig :: sigs) = (sentOn l sig).toList ++ heard l s sigs := by
        simp only [heard, List.takeWhile_cons, hends, Bool.not_false, if_true, List.filterMap_cons]
        cases sentOn l sig <;> rfl
      obtain ⟨hstays, hinbox⟩ := step_plugged hw hl hends hc
      rw [ih (hw.step hc) hstays hrest, hinbox, hheard, List.append_assoc]

/-- **What a station hears.** A station connected in the course of a run has heard, at its end,
exactly what was sent on its line until it was taken from it: each call once, in order. -/
theorem inbox_connect {pre post : List (Signal L S A)}
    (hrun : Runs.run step Board.empty (pre ++ .connect l s :: post) = some b) :
    b.inbox s = heard l s post := by
  rw [Runs.run_append, Option.bind_eq_some_iff] at hrun
  obtain ⟨c, hc, hrun⟩ := hrun
  obtain ⟨d, hd, hrest⟩ := Runs.run_cons_eq_some_iff.mp hrun
  have hw := wired_of_run hc
  have hwd := hw.step hd
  obtain ⟨hen, rfl⟩ := step_eq_some_iff.mp hd
  simp only [enabled, Bool.and_eq_true, decide_eq_true_eq] at hen
  have hnew : (act c (.connect l s)).inbox s = [] := by
    simp only [Board.inbox, act, List.map_eq_nil_iff, List.filter_eq_nil_iff, decide_eq_true_eq]
    rintro call hcall rfl
    exact hen.2 (hw.heard call hcall)
  rw [inbox_plugged hwd (Function.update_self ..) hrest, hnew, List.nil_append]

end Switchboard
