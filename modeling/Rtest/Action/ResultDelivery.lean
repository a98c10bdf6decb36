import Rtest.Action.GoalHandle

/-!
# The delivery of a goal's result

A goal's result is to be delivered once, and through every channel the same one. `resolve_result`
calls the result callback before the promise has a chance to refuse, so with a callback set each
resolution is delivered; and a callback that throws leaves the futures without the result that was
observed.

## Main definitions

- `GoalState.DeliversOnce` — over a run, one result at most, the same everywhere
- `GoalState.MayResolve` — the state in which a handle may be resolved
-/

namespace Rtest

variable {Result : Type}

namespace GoalState

variable {throws : CallbackRef → WrappedResult Result → Bool} {s w w' : GoalState Result}
  {op : HandleOp Result} {ops pre : List (HandleOp Result)} {wr r : WrappedResult Result} {p f : ℕ}

/-- A future obtained from the handle, before or now. -/
def Obtained (s : GoalState Result) (f : ℕ) : Prop :=
  f ∈ s.futures ∨ f = s.handle.asyncGetResult.1

/-- Over the run the callbacks observe one result at most; what any future obtained yields is one
result, that which was observed; and a resolution after the first throws and changes nothing. -/
structure DeliversOnce (throws : CallbackRef → WrappedResult Result → Bool)
    (s : GoalState Result) (ops : List (HandleOp Result)) : Prop where
  once : Runs.Always (step throws) (fun w => w.observed.length ≤ 1) s ops
  same : ∃ result, Runs.Always (step throws) (fun w => ∀ f, w.Obtained f →
    (∀ r, w.states.value f = some r → result = some r) ∧
      ∀ c ∈ w.observed, w.states.value f = some c.2) s ops
  refused : ∀ pre op w wr, pre ++ [op] <+: ops → Runs.run (step throws) s pre = some w →
    (∃ op' ∈ pre, op'.resolves ≠ none) → op.resolves = some wr →
      ∃ e, w.apply throws op = (.error e, w)

/-- A call resolves the handle with a callback set only while the promise is not satisfied, and the
callback returns. -/
def MayResolve (throws : CallbackRef → WrappedResult Result → Bool) (s : GoalState Result)
    (op : HandleOp Result) : Prop :=
  ∀ wr cb, op.resolves = some wr → s.handle.resultCallback = some cb →
    s.states.value s.handle.resultPromise = none ∧ throws cb wr = false

/-- The promise of the handle and all its futures share the state `p`. -/
structure Wired (p : ℕ) (s : GoalState Result) : Prop where
  promise : s.handle.resultPromise = p
  future : s.handle.resultFuture = p
  futures : ∀ f ∈ s.futures, f = p
  made : p < s.states.next

theorem Wired.obtained (h : Wired p s) (hf : s.Obtained f) : f = p :=
  hf.elim (h.futures f) fun hf => hf.trans h.future

theorem wired_make (states : SharedStates (WrappedResult Result)) :
    Wired states.next (make states) where
  promise := rfl
  future := rfl
  futures := by
    intro f hf
    cases hf
  made := by
    show states.next < states.make.next
    rw [SharedStates.next_make]
    omega

/-- Whatever becomes of it, a resolution tells the callback, and changes at most the promise. -/
theorem resolveResult_keeps (s : GoalState Result) (wr : WrappedResult Result) :
    (s.resolveResult throws wr).2.handle = s.handle ∧
      (s.resolveResult throws wr).2.futures = s.futures ∧
      (s.resolveResult throws wr).2.observed = (s.afterCallback wr).observed ∧
      ((s.resolveResult throws wr).2.states = s.states ∨
        s.states.setValue s.handle.resultPromise wr =
          some (s.resolveResult throws wr).2.states) := by
  by_cases hthrows : ∀ cb, s.handle.resultCallback = some cb → throws cb wr = false
  · rw [resolveResult_returns hthrows]
    cases hset : s.states.setValue s.handle.resultPromise wr with
    | none => exact ⟨rfl, rfl, rfl, Or.inl rfl⟩
    | some states => exact ⟨rfl, rfl, rfl, Or.inr rfl⟩
  · obtain ⟨cb, hcb⟩ := not_forall.mp hthrows
    obtain ⟨hset, hthrow⟩ := Classical.not_imp.mp hcb
    rw [Bool.not_eq_false] at hthrow
    rw [resolveResult_throws hset hthrow]
    refine ⟨rfl, rfl, ?_, Or.inl rfl⟩
    simp [afterCallback, hset]

/-- Every call keeps the handle and its futures wired, and a result once there. -/
theorem Wired.apply (h : Wired p s) (op : HandleOp Result) :
    Wired p (s.apply throws op).2 ∧
      ∀ r, s.states.value p = some r → (s.apply throws op).2.states.value p = some r := by
  cases hop : op.resolves with
  | none =>
    obtain ⟨hstates, -, hpromise, hfuture, hfutures⟩ := apply_of_not_resolves throws s hop
    refine ⟨⟨hpromise.trans h.promise, hfuture.trans h.future, fun f hf => ?_, ?_⟩, ?_⟩
    · exact (hfutures f hf).elim (h.futures f) fun hf => hf.trans h.future
    · rw [hstates]
      exact h.made
    · intro r hr
      rw [hstates]
      exact hr
  | some wr =>
    rw [apply_of_resolves hop]
    obtain ⟨hhandle, hfutures, -, hstates⟩ := resolveResult_keeps s wr
    refine ⟨⟨?_, ?_, ?_, ?_⟩, fun r hr => ?_⟩
    · rw [hhandle, h.promise]
    · rw [hhandle, h.future]
    · rw [hfutures]
      exact h.futures
    · rcases hstates with heq | hset
      · rw [heq]
        exact h.made
      · rw [SharedStates.next_of_setValue hset]
        exact h.made
    · rcases hstates with heq | hset
      · rw [heq, hr]
      · exact SharedStates.value_stays hset hr

/-- A run does not stop at a call that throws. -/
theorem exists_run (throws : CallbackRef → WrappedResult Result → Bool) (s : GoalState Result)
    (ops : List (HandleOp Result)) : ∃ w, Runs.run (step throws) s ops = some w := by
  induction ops generalizing s with
  | nil => exact ⟨s, rfl⟩
  | cons op ops ih => exact ih (s.apply throws op).2

theorem run_concat (hrun : Runs.run (step throws) s (pre ++ [op]) = some w') :
    ∃ w, Runs.run (step throws) s pre = some w ∧ w' = (w.apply throws op).2 := by
  obtain ⟨w, hw, hstep⟩ := Runs.run_concat hrun
  exact ⟨w, hw, (Option.some.inj hstep).symm⟩

/-- Over any run a result once there stays. -/
theorem value_stays (h : Wired p w) (hr : w.states.value p = some r)
    (hrun : Runs.run (step throws) w ops = some w') : w'.states.value p = some r := by
  refine (Runs.run_invariant (I := fun w => Wired p w ∧ w.states.value p = some r) ?_ ⟨h, hr⟩
    hrun).2
  rintro w op w' ⟨hw, hr⟩ hstep
  obtain rfl := Option.some.inj hstep
  obtain ⟨hw', hkeep⟩ := hw.apply op
  exact ⟨hw', hkeep r hr⟩

/-- Only a resolution satisfies the promise. -/
theorem resolved_of_value (hs : Wired p s) (hempty : s.states.value p = none)
    (hrun : Runs.run (step throws) s pre = some w) :
    Wired p w ∧ (w.states.value p ≠ none → ∃ op ∈ pre, op.resolves ≠ none) := by
  induction pre using List.reverseRecOn generalizing w with
  | nil =>
    cases hrun
    exact ⟨hs, fun hne => absurd hempty hne⟩
  | append_singleton pre op ih =>
    obtain ⟨u, hu, rfl⟩ := run_concat hrun
    obtain ⟨hwired, hbefore⟩ := ih hu
    refine ⟨(hwired.apply op).1, fun hne => ?_⟩
    by_cases hop : op.resolves = none
    · obtain ⟨hstates, -⟩ := apply_of_not_resolves throws u hop
      rw [hstates] at hne
      obtain ⟨op', hmem, hop'⟩ := hbefore hne
      exact ⟨op', List.mem_append_left _ hmem, hop'⟩
    · exact ⟨op, by simp, hop⟩

/-- How a handle stands after the calls `pre`, resolved only where it may be: untouched, or with
one result. -/
def Settled (p : ℕ) (pre : List (HandleOp Result)) (w : GoalState Result) : Prop :=
  ((∀ op ∈ pre, op.resolves = none) ∧ w.observed = [] ∧ w.states.value p = none) ∨
    ∃ r, w.states.value p = some r ∧ w.observed.length ≤ 1 ∧ ∀ c ∈ w.observed, c.2 = r

/-- **The first resolution** of a handle that may be resolved. -/
theorem apply_first (h : Wired p w) (hmay : MayResolve throws w op) (hop : op.resolves = some wr)
    (hempty : w.states.value p = none) :
    (w.apply throws op).2.states.value p = some wr ∧
      (w.apply throws op).2.observed = (w.afterCallback wr).observed := by
  rw [apply_of_resolves hop, resolveResult_returns fun cb hcb => (hmay wr cb hop hcb).2, h.promise]
  obtain ⟨states, hset⟩ := SharedStates.exists_setValue h.made hempty wr
  rw [hset]
  refine ⟨?_, rfl⟩
  show states.value p = some wr
  rw [SharedStates.value_of_setValue hset, if_pos rfl]

/-- **A later resolution** of a handle that may be resolved. -/
theorem apply_later (h : Wired p w) (hmay : MayResolve throws w op) (hop : op.resolves = some wr)
    (hset : w.states.value p = some r) :
    w.apply throws op = (.error .promiseAlreadySatisfied, w) := by
  have hnone : w.handle.resultCallback = none := by
    cases hcb : w.handle.resultCallback with
    | none => rfl
    | some cb =>
      have hempty := (hmay wr cb hop hcb).1
      rw [h.promise, hset] at hempty
      cases hempty
  have hafter : w.afterCallback wr = w := by
    simp [afterCallback, hnone]
  rw [apply_of_resolves hop, resolveResult_returns fun cb hcb => (hmay wr cb hop hcb).2, h.promise,
    SharedStates.setValue_of_value hset, hafter]

/-- By induction over a run that resolves the handle only where it may be. -/
theorem settled_run (hs : Wired p s) (hfresh : s.observed = []) (hempty : s.states.value p = none)
    (hmay : Runs.EachStep (step throws) (MayResolve throws) s pre)
    (hrun : Runs.run (step throws) s pre = some w) : Wired p w ∧ Settled p pre w := by
  induction pre using List.reverseRecOn generalizing w with
  | nil =>
    cases hrun
    exact ⟨hs, Or.inl ⟨fun op hop => absurd hop List.not_mem_nil, hfresh, hempty⟩⟩
  | append_singleton pre op ih =>
    obtain ⟨u, hu, rfl⟩ := run_concat hrun
    obtain ⟨hbefore, hstep⟩ := (Runs.eachStep_concat hu).mp hmay
    obtain ⟨hwired, hsettled⟩ := ih hbefore hu
    refine ⟨(hwired.apply op).1, ?_⟩
    cases hop : op.resolves with
    | none =>
      obtain ⟨hstates, hobserved, -⟩ := apply_of_not_resolves throws u hop
      rw [Settled, hstates, hobserved]
      refine hsettled.imp_left fun ⟨hnone, hrest⟩ => ⟨fun op' hop' => ?_, hrest⟩
      rcases List.mem_append.mp hop' with hop' | hop'
      · exact hnone op' hop'
      · rw [List.mem_singleton.mp hop', hop]
    | some wr =>
      right
      rcases hsettled with ⟨-, hnothing, hempty⟩ | ⟨r, hr, hone, hsame⟩
      · obtain ⟨hvalue, hobserved⟩ := apply_first hwired hstep hop hempty
        refine ⟨wr, hvalue, ?_, ?_⟩
        · rw [hobserved, afterCallback, hnothing]
          cases u.handle.resultCallback <;> simp
        · rw [hobserved, afterCallback, hnothing]
          simp
      · rw [apply_later hwired hstep hop hr]
        exact ⟨r, hr, hone, hsame⟩

/-- A run that delivers once has resolved the handle only where it may be. -/
theorem DeliversOnce.mayResolve (hs : Wired p s) (hempty : s.states.value p = none)
    (h : DeliversOnce throws s ops) : Runs.EachStep (step throws) (MayResolve throws) s ops := by
  obtain ⟨-, ⟨result, hsame⟩, hrefused⟩ := h
  intro pre op w hpre hrun wr cb hop hcb
  obtain ⟨hwired, hresolved⟩ := resolved_of_value hs hempty hrun
  -- the callback observes this result, whatever happens then
  have hobserved : (w.apply throws op).2.observed = w.observed ++ [(cb, wr)] := by
    rw [apply_of_resolves hop, (resolveResult_keeps w wr).2.2.1]
    simp [afterCallback, hcb]
  have hunset : w.states.value w.handle.resultPromise = none := by
    by_contra hset
    rw [hwired.promise] at hset
    obtain ⟨e, he⟩ := hrefused pre op w wr hpre hrun (hresolved hset) hop
    rw [he] at hobserved
    simp at hobserved
  refine ⟨hunset, ?_⟩
  by_contra hthrows
  rw [Bool.not_eq_false] at hthrows
  have hcall := resolveResult_throws hcb hthrows
  rw [← apply_of_resolves hop] at hcall
  have hnext := Runs.run_concat_of (a := op) hrun (show step throws w op = some _ from rfl)
  have hyields := (hsame (pre ++ [op]) _ hpre hnext w.handle.resultFuture
    (Or.inr (by rw [hcall]; rfl))).2 (cb, wr) (by rw [hobserved]; simp)
  rw [hcall] at hyields
  have hyields : w.states.value w.handle.resultFuture = some wr := hyields
  rw [hwired.future, ← hwired.promise, hunset] at hyields
  cases hyields

/-- A run that resolves the handle only where it may be delivers once. -/
theorem deliversOnce_of_mayResolve (hs : Wired p s) (hfresh : s.observed = [])
    (hempty : s.states.value p = none)
    (hmay : Runs.EachStep (step throws) (MayResolve throws) s ops) :
    DeliversOnce throws s ops := by
  have hat : ∀ pre w, pre <+: ops → Runs.run (step throws) s pre = some w →
      Wired p w ∧ Settled p pre w := fun pre w hpre hrun =>
    settled_run hs hfresh hempty
      (fun pre' op u hpre' hu => hmay pre' op u (hpre'.trans hpre) hu) hrun
  obtain ⟨final, hfinal⟩ := exists_run throws s ops
  refine ⟨fun pre w hpre hrun => ?_, ⟨final.states.value p, ?_⟩, ?_⟩
  · rcases (hat pre w hpre hrun).2 with ⟨-, hnothing, -⟩ | ⟨-, -, hone, -⟩
    · rw [hnothing]
      exact Nat.zero_le 1
    · exact hone
  · rintro pre w ⟨rest, rfl⟩ hrun f hf
    obtain ⟨hwired, hsettled⟩ := hat pre w (List.prefix_append pre rest) hrun
    obtain rfl := hwired.obtained hf
    refine ⟨fun r hr => ?_, fun c hc => ?_⟩
    · rw [Runs.run_append, hrun, Option.bind_some] at hfinal
      exact value_stays hwired hr hfinal
    · rcases hsettled with ⟨-, hnothing, -⟩ | ⟨r, hr, -, hsame⟩
      · rw [hnothing] at hc
        cases hc
      · rw [hr, hsame c hc]
  · rintro pre op w wr hpre hrun ⟨op', hmem, hop'⟩ hop
    obtain ⟨hwired, ⟨hnone, -⟩ | ⟨r, hr, -⟩⟩ := hat pre w
      ((List.prefix_append pre [op]).trans hpre) hrun
    · exact absurd (hnone op' hmem) hop'
    · exact ⟨_, apply_later hwired (hmay pre op w hpre hrun) hop hr⟩

end GoalState

open GoalState

/-- **When a goal's result is delivered once.** For every handle and every sequence of calls: the
result is observed at most once, is the same in every future, and cannot be set again, exactly when
no call resolves the handle with a callback set that throws or after the promise is satisfied. -/
theorem delivers_once_iff (throws : CallbackRef → WrappedResult Result → Bool)
    (states : SharedStates (WrappedResult Result)) (ops : List (HandleOp Result)) :
    DeliversOnce throws (make states) ops ↔
      Runs.EachStep (step throws) (MayResolve throws) (make states) ops := by
  have hstart := wired_make states
  have hempty : (make states).states.value states.next = none := by
    show states.make.value states.next = none
    rw [SharedStates.value_make, SharedStates.value_next]
  constructor
  · exact fun h => h.mayResolve hstart hempty
  · exact fun hmay => deliversOnce_of_mayResolve hstart rfl hempty hmay

/-- A goal that succeeded with 1. -/
def succeededOne : WrappedResult ℕ := ⟨.succeeded, some 1, Vector.replicate 16 0⟩

/-- The same goal, aborted. -/
def abortedOne : WrappedResult ℕ := ⟨.aborted, none, Vector.replicate 16 0⟩

/-- With a callback set, the second resolution throws after it has told the callback: the callback
has observed both results and the future yields the first. -/
theorem resolved_twice :
    ¬ DeliversOnce (fun _ _ => false) (make SharedStates.empty)
      [.setResultCallback (some 0), .resolveResult succeededOne, .resolveResult abortedOne] ∧
    ∃ w, Runs.run (step fun _ _ => false) (make SharedStates.empty)
        [.setResultCallback (some 0), .resolveResult succeededOne,
          .resolveResult abortedOne] = some w ∧
      w.observed = [(0, succeededOne), (0, abortedOne)] ∧
      w.states.value w.handle.resultFuture = some succeededOne := by
  refine ⟨fun h => ?_, _, rfl, rfl, rfl⟩
  have hone := h.once.last rfl
  exact absurd hone (by decide)

end Rtest
