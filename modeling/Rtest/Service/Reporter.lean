import Rtest.Service.NewMessageCallback

/-!
# Exchanging the callback in one step

To its users `set_on_new_*_callback` exchanges one function for another. A reporter does so in a
single step; the client or service, whose exchange takes three steps of its own and any number of
the middleware's in between, hands out the same counts to the same functions.

## Main definitions

- `Reporter` — a callback that is exchanged, removed and reported to in single steps
- `CallbackHolder.amountsTo` — the step of the reporter an event amounts to

## Main results

- `CallbackHolder.reports_as_reporter` — the middleware calls what the reporter calls
-/

namespace Rtest

/-- A callback that is exchanged, removed and reported to in single steps. -/
structure Reporter (F : Type) where
  callback : Option F
  unread : ℕ
  handed : List (F × ℕ)

inductive ReporterOp (F : Type) where
  | exchange (callback : F)
  | remove
  | message
  deriving DecidableEq, Repr

namespace Reporter

variable {F : Type}

/-- A new callback is told at once of the messages that found none. -/
def act (r : Reporter F) : ReporterOp F → Reporter F
  | .exchange f =>
    { callback := some f, unread := 0,
      handed := r.handed ++ if r.unread = 0 then [] else [(f, r.unread)] }
  | .remove => { r with callback := none }
  | .message =>
    match r.callback with
    | some f => { r with handed := r.handed ++ [(f, 1)] }
    | none => { r with unread := r.unread + 1 }

end Reporter

namespace CallbackHolder

variable {F M : Type} (mw : Middleware M)

/-- The one step of the reporter an event amounts to: a call of `set_on_new_*_callback` or
`clear_on_new_*_callback` takes effect at its first call of rcl. -/
def amountsTo (s : CallbackHolder F M) : HolderEvent F → List (ReporterOp F)
  | .arrive => [.message]
  | .proceed =>
    match s.phase with
    | .pointAtLocal f =>
      if (mw.setCallback (some (.newCallback s.calls)) s.middleware).1 then [.exchange f] else []
    | .pointAtNull => if (mw.setCallback none s.middleware).1 then [.remove] else []
    | _ => []
  | _ => []

/-- What a run amounts to. -/
def reporterOps (noun : String) (s : CallbackHolder F M) : List (HolderEvent F) →
    List (ReporterOp F)
  | [] => []
  | ev :: evs => s.amountsTo mw ev ++ (s.act mw noun ev).reporterOps noun evs

variable {mw} {noun : String} {s s' : CallbackHolder F M} {ev : HolderEvent F} {r : Reporter F}

/-- The reporter shows the holder, as long as messages arrive. -/
structure Shows (mw : Middleware M) (s : CallbackHolder F M) (r : Reporter F) : Prop where
  handed : s.handed = r.handed.map fun call => (some call.1, call.2)
  unread : s.finalized = false → r.unread = mw.unread s.middleware
  callback : s.finalized = false → r.callback = (mw.target s.middleware).bind s.deref

theorem shows_fresh {m : M} (h : mw.target m = none) :
    Shows mw (fresh m : CallbackHolder F M) ⟨none, mw.unread m, []⟩ where
  handed := rfl
  unread := fun _ => rfl
  callback := fun _ => by rw [fresh, h]; rfl

/-- Nothing happens to a handle that is finalized. -/
theorem finalized_of_enabled (hi : Inv mw s) (hen : s.enabled ev = true) : s.finalized = false := by
  rw [Bool.eq_false_iff]
  intro hfinal
  have hdestroyed := hi.finalized hfinal
  cases ev with
  | proceed =>
    have hne : s.phase ≠ .idle := fun hidle => by simp [enabled, hidle] at hen
    rw [hi.busy hne] at hdestroyed
    cases hdestroyed
  | arrive => simp [enabled, hfinal] at hen
  | _ => simp [enabled, hdestroyed] at hen

/-- Without a local object, the middleware points at the stored function or nowhere. -/
theorem Safe.target_cases (h : Safe mw s) (hfinal : s.finalized = false)
    (hnone : s.newCallback = none) :
    mw.target s.middleware = none ∨ mw.target s.middleware = some .stored := by
  cases ht : mw.target s.middleware with
  | none => exact Or.inl rfl
  | some p =>
    obtain ⟨f, hf⟩ := h.callable hfinal p ht
    cases p with
    | newCallback call => simp [deref, hnone] at hf
    | stored => exact Or.inr rfl

/-- What concerns neither the middleware nor the functions it can see. -/
theorem Shows.of_same {u : CallbackHolder F M} (h : Shows mw s r) (hfinal : s.finalized = false)
    (hhanded : u.handed = s.handed) (hunread : mw.unread u.middleware = mw.unread s.middleware)
    (hcallback : (mw.target u.middleware).bind u.deref = (mw.target s.middleware).bind s.deref) :
    Shows mw u r where
  handed := hhanded.trans h.handed
  unread := fun _ => (h.unread hfinal).trans hunread.symm
  callback := fun _ => (h.callback hfinal).trans hcallback.symm

theorem Shows.proceed (hmw : MiddlewareRules mw) (hi : Inv mw s) (hsafe : Safe mw s)
    (hc : Keeps mw s .proceed) (h : Shows mw s r) (hne : s.phase ≠ .idle) :
    Shows mw (s.proceed mw) ((s.amountsTo mw .proceed).foldl Reporter.act r) := by
  have hfinal := hi.alive hne
  have halive := hi.busy hne
  have hhanded := h.handed
  have hunread := h.unread hfinal
  cases hphase : s.phase with
  | idle => exact absurd hphase hne
  | pointAtLocal f =>
    simp only [CallbackHolder.proceed, amountsTo, hphase]
    obtain ⟨hok, m, n, hpoint, htarget, -, hread⟩ | ⟨hfails, m, hpoint, htarget, hsame⟩ :=
      point_cases hmw s (some (.newCallback s.calls))
    · obtain ⟨h0, rfl⟩ := hread (Option.some_ne_none _)
      rw [hpoint, if_pos hok]
      refine ⟨?_, fun _ => h0.symm, fun _ => ?_⟩
      · simp only [CallbackHolder.hand, List.foldl_cons, List.foldl_nil, Reporter.act, hhanded,
          hunread]
        split <;> simp [deref, newCallback, hphase]
      · simp [Reporter.act, htarget, deref, newCallback, CallbackHolder.hand]
    · rw [hpoint, hfails]
      refine h.of_same hfinal rfl hsame ?_
      show (mw.target m).bind _ = _
      rw [htarget]
      cases ht : mw.target s.middleware with
      | none => rfl
      | some p =>
        cases p with
        | newCallback call =>
          have hlt := hi.before f call hphase ht
          simp [deref, Nat.ne_of_lt hlt]
        | stored => rfl
  | store f =>
    simp only [CallbackHolder.proceed, amountsTo, hphase]
    refine h.of_same hfinal rfl rfl ?_
    simp [hi.store f hphase, deref, newCallback, hphase]
  | pointAtStored f =>
    simp only [CallbackHolder.proceed, amountsTo, hphase]
    obtain ⟨hlocal, hstored⟩ := hi.pointAtStored f hphase
    obtain ⟨-, m, n, hpoint, htarget, -, hread⟩ | ⟨hfails, -⟩ := point_cases hmw s (some .stored)
    · -- nothing is unread, so nothing is handed
      have h0 : mw.unread s.middleware = 0 := hi.read (by rw [hlocal]; exact Option.some_ne_none _)
      obtain ⟨hm, rfl⟩ := hread (Option.some_ne_none _)
      rw [hpoint, if_pos h0]
      refine h.of_same hfinal (List.append_nil _) (hm.trans h0.symm) ?_
      simp [htarget, hlocal, deref, newCallback, hphase, halive, hstored, CallbackHolder.hand]
    · rw [hc f hphase] at hfails
      cases hfails
  | pointAtNull =>
    simp only [CallbackHolder.proceed, amountsTo, hphase]
    obtain ⟨hok, m, n, hpoint, htarget, hnone, -⟩ | ⟨hfails, m, hpoint, htarget, hsame⟩ :=
      point_cases hmw s none
    · obtain ⟨hm, rfl⟩ := hnone rfl
      rw [hpoint, if_pos hok]
      refine ⟨(List.append_nil _).trans hhanded, fun _ => hunread.trans hm.symm, fun _ => ?_⟩
      show none = (mw.target m).bind _
      rw [htarget]
      rfl
    · rw [hpoint, hfails]
      refine h.of_same hfinal rfl hsame ?_
      show (mw.target m).bind _ = _
      rw [htarget]
      obtain ht | ht := hsafe.target_cases hfinal (by simp [newCallback, hphase]) <;> rw [ht] <;> rfl
  | unstore =>
    simp only [CallbackHolder.proceed, amountsTo, hphase]
    refine h.of_same hfinal rfl rfl ?_
    simp [hi.unstore hphase]

/-- A message is handed to the callback, or counted where there is none. -/
theorem Shows.arrive (hmw : MiddlewareRules mw) (hsafe : Safe mw s) (hfinal : s.finalized = false)
    (h : Shows mw s r) :
    Shows mw (s.act mw noun .arrive) ((s.amountsTo mw .arrive).foldl Reporter.act r) := by
  have hcallback := h.callback hfinal
  have hunread := h.unread hfinal
  simp only [amountsTo, List.foldl_cons, List.foldl_nil, Reporter.act, hcallback]
  cases ht : mw.target s.middleware with
  | none =>
    obtain ⟨hnone, hone, hn⟩ := hmw.kept _ ht
    refine ⟨?_, fun _ => ?_, fun _ => ?_⟩
    · simp [act, CallbackHolder.hand, hn, h.handed]
    · show r.unread + 1 = mw.unread (mw.arrive s.middleware).1
      rw [hone, hunread]
    · show none = (mw.target (mw.arrive s.middleware).1).bind _
      rw [hnone]
      rfl
  | some p =>
    obtain ⟨f, hf⟩ := hsafe.callable hfinal p ht
    have hne : mw.target s.middleware ≠ none := by rw [ht]; exact Option.some_ne_none p
    obtain ⟨hsame, hread, hn⟩ := hmw.reported _ hne
    simp only [Option.bind_some, hf]
    refine ⟨?_, fun _ => ?_, fun _ => ?_⟩
    · simp [act, CallbackHolder.hand, hn, h.handed, ht, hf]
    · show r.unread = mw.unread (mw.arrive s.middleware).1
      rw [hread, hunread]
    · show some f = (mw.target (mw.arrive s.middleware).1).bind _
      rw [hsame, ht]
      exact hf.symm

theorem Shows.step (hmw : MiddlewareRules mw) (hi : Inv mw s) (hsafe : Safe mw s)
    (hc : Keeps mw s ev) (h : Shows mw s r) (hs : s.step mw noun ev = some s') :
    Shows mw s' ((s.amountsTo mw ev).foldl Reporter.act r) := by
  obtain ⟨hen, rfl⟩ := step_eq_some_iff.mp hs
  have hfinal := finalized_of_enabled hi hen
  -- who starts while nobody is busy is not seen by the middleware
  have hstart : s.phase = .idle → ∀ {u : CallbackHolder F M}, u.middleware = s.middleware →
      u.stored = s.stored → u.destroyed = s.destroyed → u.handed = s.handed → Shows mw u r := by
    intro hphase u hm hstored hdestroyed hhanded
    refine h.of_same hfinal hhanded (by rw [hm]) ?_
    rw [hm]
    obtain ht | ht := hsafe.target_cases hfinal (by simp [newCallback, hphase])
    · rw [ht]
      rfl
    · simp [ht, deref, hstored, hdestroyed]
  cases ev with
  | setOnNew callback =>
    cases callback with
    | none => exact h
    | some f =>
      simp only [enabled, Bool.and_eq_true, Option.isNone_some, Bool.false_or] at hen
      exact hstart (idle_of_match hen.2) rfl rfl rfl rfl
  | clearOnNew =>
    simp only [enabled, Bool.and_eq_true] at hen
    simp only [act]
    split
    · exact hstart (idle_of_match hen.2) rfl rfl rfl rfl
    · exact h
  | proceed =>
    refine h.proceed hmw hi hsafe hc fun hidle => ?_
    simp [enabled, hidle] at hen
  | arrive => exact h.arrive hmw hsafe hfinal
  | destroy handleShared =>
    refine ⟨h.handed, fun _ => h.unread hfinal, fun hf => ?_⟩
    have hshared : handleShared = true := by simpa [act] using hf
    have hcallback := h.callback hfinal
    have hnone := hc hshared
    rw [hnone] at hcallback
    show r.callback = (mw.target s.middleware).bind _
    rw [hcallback, hnone]
    rfl

/-- **The exchange looks like one step.** In every run in which the last call of rcl always
succeeds, and in which no client or service is destroyed with a callback set while its handle is
shared, the middleware calls the functions with the counts that a reporter hands out whose callback
is exchanged and removed in single steps. -/
theorem reports_as_reporter (hmw : MiddlewareRules mw) (noun : String) {m : M}
    (hm : mw.target m = none) {evs : List (HolderEvent F)} {last : CallbackHolder F M}
    (hrun : Runs.run (step mw noun) (fresh m) evs = some last)
    (hc : Runs.EachStep (step mw noun) (Keeps mw) (fresh m) evs) :
    last.handed = ((reporterOps mw noun (fresh m) evs).foldl Reporter.act
      ⟨none, mw.unread m, []⟩).handed.map fun call => (some call.1, call.2) := by
  suffices h : ∀ {evs : List (HolderEvent F)} {s : CallbackHolder F M} {r : Reporter F},
      Inv mw s → Safe mw s → Shows mw s r → Runs.EachStep (step mw noun) (Keeps mw) s evs →
        Runs.run (step mw noun) s evs = some last →
          Shows mw last ((reporterOps mw noun s evs).foldl Reporter.act r) from
    (h (inv_fresh hm) (safe_fresh hm) (shows_fresh hm) hc hrun).handed
  intro evs
  induction evs with
  | nil =>
    intro s r _ _ hshow _ hrun
    cases hrun
    exact hshow
  | cons ev evs ih =>
    intro s r hi hsafe hshow hc hrun
    obtain ⟨u, hu, hrest⟩ := Runs.run_cons_eq_some_iff.mp hrun
    have hfirst : Keeps mw s ev := hc [] ev s (List.prefix_append [ev] evs) rfl
    have hnext := hshow.step hmw hi hsafe hfirst hu
    have hact := (step_eq_some_iff.mp hu).2
    rw [reporterOps, hact, List.foldl_append]
    exact ih (hi.step hmw hu) (hsafe.step hmw hi hfirst hu) hnext (hc.tail hu) hrest

theorem keeps_exchange :
    Runs.EachStep (step referenceMiddleware "response") (Keeps referenceMiddleware)
      (fresh (none, 0)) exchange := by
  intro pre ev s hpre _
  cases ev with
  | proceed => exact fun _ _ => rfl
  | destroy handleShared =>
    have hmem : HolderEvent.destroy handleShared ∈ exchange := hpre.subset (by simp)
    simp [exchange] at hmem
  | _ => trivial

theorem reporter_exchange :
    exchanged.handed = ((reporterOps referenceMiddleware "response" (fresh (none, 0))
      exchange).foldl Reporter.act ⟨none, 0, []⟩).handed.map fun call => (some call.1, call.2) :=
  reports_as_reporter middlewareRules_reference "response" rfl run_exchange keeps_exchange

example : reporterOps referenceMiddleware "response" (fresh (none, 0)) exchange =
    [.message, .message, .exchange 7, .message, .message, .remove, .message] := by decide

end CallbackHolder

end Rtest
