import Mathlib.Data.List.Infix
import Mathlib.Data.List.Induction

/-!
# Runs of a partial step function

A system is a step function `step : σ → α → Option σ`: `none` where the action cannot be taken.
A property of runs is read at every state passed (`Always`) or at every action taken
(`EachStep`), and the two are tied by a step lemma.

## Main results

- `Runs.run_invariant` — what holds at the start and is kept by every step holds at the end
- `Runs.always_iff_eachStep` — a property that a step keeps exactly when it meets a condition
  holds all along a run exactly when every step meets the condition
- `Runs.run_both`, `Runs.run_rel` — two systems that take each step alike end related
-/

namespace Runs

variable {σ τ α : Type*} (step : σ → α → Option σ)

/-- Take the actions in order; `none` as soon as one cannot be taken. -/
def run (s : σ) : List α → Option σ
  | [] => some s
  | a :: as => (step s a).bind fun w => run w as

/-- `P` holds at every state the run passes, its first and last included. -/
def Always (P : σ → Prop) (s : σ) (as : List α) : Prop :=
  ∀ pre w, pre <+: as → run step s pre = some w → P w

/-- `C` holds of every action of the run, at the state in which it is taken. -/
def EachStep (C : σ → α → Prop) (s : σ) (as : List α) : Prop :=
  ∀ pre a w, pre ++ [a] <+: as → run step s pre = some w → C w a

variable {step}

@[simp] theorem run_nil (s : σ) : run step s [] = some s := rfl

@[simp] theorem run_cons (s : σ) (a : α) (as : List α) :
    run step s (a :: as) = (step s a).bind fun w => run step w as := rfl

/-- A run that ends takes its first action, and the others from there. -/
theorem run_cons_eq_some_iff {s w : σ} {a : α} {as : List α} :
    run step s (a :: as) = some w ↔ ∃ u, step s a = some u ∧ run step u as = some w :=
  Option.bind_eq_some_iff

theorem run_append (s : σ) (as bs : List α) :
    run step s (as ++ bs) = (run step s as).bind fun w => run step w bs := by
  induction as generalizing s with
  | nil => rfl
  | cons a as ih =>
    simp only [List.cons_append, run_cons, Option.bind_assoc, ih]

/-- The last action of a run is taken in the state the rest of the run ends in. -/
theorem run_concat {s w' : σ} {as : List α} {a : α} (h : run step s (as ++ [a]) = some w') :
    ∃ w, run step s as = some w ∧ step w a = some w' := by
  rw [run_append, Option.bind_eq_some_iff] at h
  obtain ⟨w, hw, hstep⟩ := h
  refine ⟨w, hw, ?_⟩
  simpa using hstep

theorem run_concat_of {s w w' : σ} {as : List α} {a : α} (h : run step s as = some w)
    (hstep : step w a = some w') : run step s (as ++ [a]) = some w' := by
  simp [run_append, h, hstep]

/-- **Invariance.** What holds at the start and is kept by every step holds at the end. -/
theorem run_invariant {I : σ → Prop} (hstep : ∀ w a w', I w → step w a = some w' → I w')
    {s w : σ} {as : List α} (hI : I s) (h : run step s as = some w) : I w := by
  induction as generalizing s with
  | nil =>
    cases h
    exact hI
  | cons a as ih =>
    obtain ⟨u, hu, hrest⟩ := run_cons_eq_some_iff.mp h
    exact ih (hstep s a u hI hu) hrest

theorem Always.mono {P Q : σ → Prop} (hPQ : ∀ w, P w → Q w) {s : σ} {as : List α}
    (h : Always step P s as) : Always step Q s as :=
  fun pre w hpre hw => hPQ w (h pre w hpre hw)

/-- The state a run ends in is one of the states it passes. -/
theorem Always.last {P : σ → Prop} {s w : σ} {as : List α} (h : Always step P s as)
    (hrun : run step s as = some w) : P w :=
  h as w (List.prefix_refl as) hrun

theorem eachStep_nil {C : σ → α → Prop} {s : σ} : EachStep step C s [] := by
  intro pre a w hpre
  simp at hpre

theorem always_concat {P : σ → Prop} {s w' : σ} {as : List α} {a : α}
    (hrun : run step s (as ++ [a]) = some w') :
    Always step P s (as ++ [a]) ↔ Always step P s as ∧ P w' := by
  constructor
  · intro h
    exact ⟨fun pre w hpre hw => h pre w (hpre.trans (List.prefix_append as [a])) hw, h.last hrun⟩
  · rintro ⟨h, hlast⟩ pre w hpre hw
    rcases List.prefix_concat_iff.mp hpre with rfl | hpre
    · rw [hrun] at hw
      cases hw
      exact hlast
    · exact h pre w hpre hw

theorem eachStep_concat {C : σ → α → Prop} {s w : σ} {as : List α} {a : α}
    (hrun : run step s as = some w) :
    EachStep step C s (as ++ [a]) ↔ EachStep step C s as ∧ C w a := by
  constructor
  · intro h
    exact ⟨fun pre b u hpre hu => h pre b u (hpre.trans (List.prefix_append as [a])) hu,
      h as a w (List.prefix_refl _) hrun⟩
  · rintro ⟨h, hlast⟩ pre b u hpre hu
    rcases List.prefix_concat_iff.mp hpre with heq | hpre
    · obtain ⟨rfl, hb⟩ := List.append_inj' heq rfl
      cases hb
      rw [hrun] at hu
      cases hu
      exact hlast
    · exact h pre b u hpre hu

/-- A condition met by every step keeps a property that each such step keeps. -/
theorem always_of_eachStep {P : σ → Prop} {C : σ → α → Prop}
    (hstep : ∀ w a w', P w → C w a → step w a = some w' → P w')
    {s : σ} {as : List α} (hP : P s) (hC : EachStep step C s as) : Always step P s as := by
  intro pre w hpre hw
  induction pre using List.reverseRecOn generalizing w with
  | nil =>
    cases hw
    exact hP
  | append_singleton pre a ih =>
    obtain ⟨u, hu, hua⟩ := run_concat hw
    exact hstep u a w (ih u ((List.prefix_append pre [a]).trans hpre) hu) (hC pre a u hpre hu) hua

/-- **Exact conditions.** Let `P` strengthen `Q`. If a step that meets `C` keeps `P`, and a step
from a state with `P` reaches a state with `Q` only when it meets `C`, then `Q` holds all along a
run exactly when every step of it meets `C`. -/
theorem always_iff_eachStep {I P Q : σ → Prop} {C : σ → α → Prop}
    (hinv : ∀ w a w', I w → step w a = some w' → I w')
    (hPQ : ∀ w, I w → P w → Q w)
    (hkeep : ∀ w a w', I w → P w → C w a → step w a = some w' → P w')
    (hbreak : ∀ w a w', I w → P w → step w a = some w' → Q w' → C w a)
    {s w : σ} {as : List α} (hI : I s) (hP : P s) (hrun : run step s as = some w) :
    Always step Q s as ↔ EachStep step C s as := by
  have hstrong : ∀ bs, EachStep step C s bs → Always step (fun w => I w ∧ P w) s bs :=
    fun bs => always_of_eachStep
      (fun w a w' h hC hs => ⟨hinv w a w' h.1 hs, hkeep w a w' h.1 h.2 hC hs⟩) ⟨hI, hP⟩
  refine ⟨fun hQ => ?_, fun hC => (hstrong as hC).mono fun w h => hPQ w h.1 h.2⟩
  induction as using List.reverseRecOn generalizing w with
  | nil => exact eachStep_nil
  | append_singleton as a ih =>
    obtain ⟨u, hu, hua⟩ := run_concat hrun
    obtain ⟨hQas, hQw⟩ := (always_concat hrun).mp hQ
    have hC := ih hu hQas
    obtain ⟨hIu, hPu⟩ := (hstrong as hC).last hu
    exact (eachStep_concat hu).mpr ⟨hC, hbreak u a w hIu hPu hua hQw⟩

/-- The first action of a run and the run of the rest. -/
theorem EachStep.tail {C : σ → α → Prop} {s w : σ} {a : α} {as : List α}
    (h : EachStep step C s (a :: as)) (hs : step s a = some w) : EachStep step C w as := by
  intro pre b u hpre hu
  refine h (a :: pre) b u ?_ ?_
  · rw [List.cons_append]
    exact List.cons_prefix_cons.mpr ⟨rfl, hpre⟩
  · rw [run_cons, hs, Option.bind_some, hu]

/-- The actions of a run that ends can be taken. -/
theorem eachStep_taken {s w : σ} {as : List α} (h : run step s as = some w) :
    EachStep step (fun w a => ∃ w', step w a = some w') s as := by
  rintro pre a u ⟨post, rfl⟩ hu
  rw [run_append, Option.bind_eq_some_iff] at h
  obtain ⟨w', hw', -⟩ := h
  obtain ⟨u', hu', hstep⟩ := run_concat hw'
  rw [hu] at hu'
  cases hu'
  exact ⟨w', hstep⟩

/-- The actions of a run, by position. -/
theorem eachStep_iff_getElem {C : σ → α → Prop} {s : σ} {as : List α} :
    EachStep step C s as ↔
      ∀ i a w, as[i]? = some a → run step s (as.take i) = some w → C w a := by
  constructor
  · intro h i a w ha hw
    refine h (as.take i) a w ?_ hw
    obtain ⟨hi, rfl⟩ := List.getElem?_eq_some_iff.mp ha
    rw [List.take_concat_get' as i hi]
    exact List.take_prefix (i + 1) as
  · rintro h pre a w ⟨post, rfl⟩ hw
    refine h pre.length a w ?_ ?_
    · simp
    · simpa using hw

/-- Two systems stay related along a run that both can take, if they do in every step that both can
take. -/
theorem run_both {step' : τ → α → Option τ} {R : σ → τ → Prop}
    (hstep : ∀ s t a s' t', R s t → step s a = some s' → step' t a = some t' → R s' t')
    {s s' : σ} {t t' : τ} {as : List α} (hR : R s t) (hs : run step s as = some s')
    (ht : run step' t as = some t') : R s' t' := by
  induction as generalizing s t with
  | nil =>
    cases hs
    cases ht
    exact hR
  | cons a as ih =>
    obtain ⟨u, hu, hrest⟩ := run_cons_eq_some_iff.mp hs
    obtain ⟨v, hv, hrest'⟩ := run_cons_eq_some_iff.mp ht
    exact ih (hstep s t a u v hR hu hv) hrest hrest'

/-- Two systems stay related along a run, if they do in every step that meets a condition and the
steps of the run meet it. -/
theorem run_rel {step' : τ → α → Option τ} {R : σ → τ → Prop} {C : σ → α → Prop}
    (hstep : ∀ s t a, R s t → C s a → Option.Rel R (step s a) (step' t a))
    {s : σ} {t : τ} {as : List α} (hC : EachStep step C s as) (hR : R s t) :
    Option.Rel R (run step s as) (run step' t as) := by
  induction as generalizing s t with
  | nil => exact .some hR
  | cons a as ih =>
    have hfirst := hstep s t a hR (hC [] a s (List.prefix_append [a] as) rfl)
    rw [run_cons, run_cons]
    cases hs : step s a with
    | none =>
      rw [hs] at hfirst
      cases ht : step' t a with
      | none => exact .none
      | some t' =>
        rw [ht] at hfirst
        cases hfirst
    | some s' =>
      rw [hs] at hfirst
      cases ht : step' t a with
      | none =>
        rw [ht] at hfirst
        cases hfirst
      | some t' =>
        rw [ht] at hfirst
        cases hfirst with
        | some hR' => exact ih (hC.tail hs) hR'

end Runs
