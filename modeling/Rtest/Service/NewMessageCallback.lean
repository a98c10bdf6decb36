import Mathlib.Algebra.BigOperators.Group.List.Basic
import Mathlib.Algebra.Order.Field.Basic
import Rtest.Foundations.Runs

/-!
# The callback for new messages

`set_on_new_response_callback` of a client and `set_on_new_request_callback` of a service. The
middleware keeps a pointer to a function object and calls it, from its own thread, whenever
something arrives. To replace the object the caller first points the middleware at a local one,
then overwrites the stored one, then points the middleware at that. The mutex keeps other callers
out, but not the middleware, so each of these is a step of its own here.

The middleware is not part of the repository: it is a parameter, and `MiddlewareRules` states what
is relied on of it.

## Main definitions

- `CallbackHolder` — the client or service with the middleware's pointer and what it was handed
- `CallbackHolder.step` — the steps of callers, of the middleware and of destruction

## Main results

- `pointsAtCallable_iff` — when the middleware never points at a destroyed function
- `reports_once` — no gap, and no message lost or reported twice
-/

namespace Rtest

/-- What the middleware can be given as `user_data`: the local function object of a call of
`set_on_new_*_callback`, or the stored one. -/
inductive FunctionPointer where
  | newCallback (call : ℕ)
  | stored
  deriving DecidableEq, Repr

/-- The middleware's side: whom it reports to, how many messages it has not reported, and what it
does when it is given a pointer and when a message arrives. Either may hand a count to the function
pointed at. -/
structure Middleware (M : Type) where
  target : M → Option FunctionPointer
  unread : M → ℕ
  setCallback : Option FunctionPointer → M → Bool × M × Option ℕ
  arrive : M → M × Option ℕ

/-- The count handed is the number of messages since the last time; it is more than one if they
came before there was a callback. A call that fails changes nothing. -/
structure MiddlewareRules {M : Type} (mw : Middleware M) : Prop where
  accepted : ∀ p m m' n, mw.setCallback p m = (true, m', n) → mw.target m' = p ∧
    (p = none → mw.unread m' = mw.unread m ∧ n = none) ∧
    (p ≠ none → mw.unread m' = 0 ∧ n = if mw.unread m = 0 then none else some (mw.unread m))
  refused : ∀ p m m' n, mw.setCallback p m = (false, m', n) →
    mw.target m' = mw.target m ∧ mw.unread m' = mw.unread m ∧ n = none
  reported : ∀ m, mw.target m ≠ none → mw.target (mw.arrive m).1 = mw.target m ∧
    mw.unread (mw.arrive m).1 = mw.unread m ∧ (mw.arrive m).2 = some 1
  kept : ∀ m, mw.target m = none → mw.target (mw.arrive m).1 = none ∧
    mw.unread (mw.arrive m).1 = mw.unread m + 1 ∧ (mw.arrive m).2 = none

/-- What the thread that holds `callback_mutex_` does next. -/
inductive Phase (F : Type) where
  | idle
  | pointAtLocal (callback : F)
  | store (callback : F)
  | pointAtStored (callback : F)
  | pointAtNull
  | unstore
  deriving DecidableEq, Repr

/-- A client or service. `calls` counts the calls of `set_on_new_*_callback` and names the local
object of the one that runs; `stored` is `on_new_*_callback_`; `destroyed` and `finalized` tell
whether the object and its rcl handle are gone; `handed` lists the functions called by the
middleware with the counts, `none` where there was no function any more. -/
structure CallbackHolder (F M : Type) where
  phase : Phase F
  calls : ℕ
  stored : Option F
  destroyed : Bool
  finalized : Bool
  middleware : M
  handed : List (Option F × ℕ)
  deriving DecidableEq

/-- What can happen next. A destructor finds the rcl handle shared with others or not. -/
inductive HolderEvent (F : Type) where
  | setOnNew (callback : Option F)
  | clearOnNew
  | proceed
  | arrive
  | destroy (handleShared : Bool)
  deriving DecidableEq, Repr

/-- What `set_on_new_response_callback` and `set_on_new_request_callback` throw for a function that
is not callable; `noun` is `response` or `request`. -/
def notCallable (noun : String) : String × String :=
  ("std::invalid_argument",
    "The callback passed to set_on_new_" ++ noun ++ "_callback is not callable.")

namespace CallbackHolder

variable {F M : Type} (mw : Middleware M)

/-- Just constructed. -/
def fresh (m : M) : CallbackHolder F M := ⟨.idle, 0, none, false, false, m, []⟩

/-- The local object of the call that runs. -/
def newCallback (s : CallbackHolder F M) : Option F :=
  match s.phase with
  | .pointAtLocal f | .store f | .pointAtStored f => some f
  | _ => none

/-- The function an object pointed at holds, while it exists. -/
def deref (s : CallbackHolder F M) : FunctionPointer → Option F
  | .newCallback call => if call = s.calls then s.newCallback else none
  | .stored => if s.destroyed then none else s.stored

/-- The middleware calls what `p` points at. -/
def hand (s : CallbackHolder F M) (p : Option FunctionPointer) (n : Option ℕ) :
    CallbackHolder F M :=
  { s with handed := s.handed ++ (n.map fun count => (p.bind s.deref, count)).toList }

/-- `set_on_new_*_callback(callback, user_data)`: whether rcl succeeded. -/
def point (s : CallbackHolder F M) (p : Option FunctionPointer) : Bool × CallbackHolder F M :=
  let (ok, m, n) := mw.setCallback p s.middleware
  (ok, { s.hand p n with middleware := m })

/-- Up to the point where the mutex is held. -/
def setOnNewCallback (noun : String) (s : CallbackHolder F M) :
    Option F → Except (String × String) (CallbackHolder F M)
  | none => .error (notCallable noun)
  | some f => .ok { s with phase := .pointAtLocal f, calls := s.calls + 1 }

/-- The next step of the thread that holds the mutex. A call of rcl that fails throws, which
destroys the local object and releases the mutex. -/
def proceed (s : CallbackHolder F M) : CallbackHolder F M :=
  match s.phase with
  | .idle => s
  | .pointAtLocal f =>
    let (ok, s) := s.point mw (some (.newCallback s.calls))
    { s with phase := if ok then .store f else .idle }
  | .store f => { s with stored := some f, phase := .pointAtStored f }
  | .pointAtStored _ => { (s.point mw (some .stored)).2 with phase := .idle }
  | .pointAtNull =>
    let (ok, s) := s.point mw none
    { s with phase := if ok then .unstore else .idle }
  | .unstore => { s with stored := none, phase := .idle }

/-- A caller waits for the mutex, and nobody calls a destroyed object; a finalized handle gets no
more messages. -/
def enabled (s : CallbackHolder F M) : HolderEvent F → Bool
  | .setOnNew callback =>
    !s.destroyed && (callback.isNone || match s.phase with | .idle => true | _ => false)
  | .clearOnNew => !s.destroyed && match s.phase with | .idle => true | _ => false
  | .proceed => match s.phase with | .idle => false | _ => true
  | .arrive => !s.finalized
  | .destroy _ => !s.destroyed && match s.phase with | .idle => true | _ => false

def act (noun : String) (s : CallbackHolder F M) : HolderEvent F → CallbackHolder F M
  | .setOnNew callback =>
    match s.setOnNewCallback noun callback with
    | .ok s => s
    | .error _ => s
  | .clearOnNew => if s.stored.isSome then { s with phase := .pointAtNull } else s
  | .proceed => s.proceed mw
  | .arrive =>
    let (m, n) := mw.arrive s.middleware
    { s.hand (mw.target s.middleware) n with middleware := m }
  -- the handle is the last member to go that matters: its destructor runs before the function's
  | .destroy handleShared => { s with destroyed := true, finalized := !handleShared }

def step (noun : String) (s : CallbackHolder F M) (ev : HolderEvent F) :
    Option (CallbackHolder F M) :=
  if s.enabled ev then some (s.act mw noun ev) else none

-- ════════════════════════════════════════════════════════════════════════
-- Where the middleware points
-- ════════════════════════════════════════════════════════════════════════

variable {mw} {noun : String} {s s' : CallbackHolder F M} {ev : HolderEvent F}

/-- Where the steps of a caller have got to shows in where the middleware points, and a local
object of an earlier call is told from that of the one that runs. -/
structure Inv (mw : Middleware M) (s : CallbackHolder F M) : Prop where
  store : ∀ f, s.phase = .store f → mw.target s.middleware = some (.newCallback s.calls)
  pointAtStored : ∀ f, s.phase = .pointAtStored f →
    mw.target s.middleware = some (.newCallback s.calls) ∧ s.stored = some f
  unstore : s.phase = .unstore → mw.target s.middleware = none
  busy : s.phase ≠ .idle → s.destroyed = false
  finalized : s.finalized = true → s.destroyed = true
  earlier : ∀ call, mw.target s.middleware = some (.newCallback call) → call ≤ s.calls
  before : ∀ f call, s.phase = .pointAtLocal f →
    mw.target s.middleware = some (.newCallback call) → call < s.calls
  read : mw.target s.middleware ≠ none → mw.unread s.middleware = 0

/-- The middleware points at a function that exists, and it has called no other. -/
structure Safe (mw : Middleware M) (s : CallbackHolder F M) : Prop where
  callable : s.finalized = false → ∀ p, mw.target s.middleware = some p → ∃ f, s.deref p = some f
  handed : ∀ call ∈ s.handed, call.1 ≠ none

/-- The last call of rcl succeeds, and nobody keeps the handle of an object that is destroyed while
a callback is set. -/
def Keeps (mw : Middleware M) (s : CallbackHolder F M) : HolderEvent F → Prop
  | .proceed => ∀ f, s.phase = .pointAtStored f →
      (mw.setCallback (some .stored) s.middleware).1 = true
  | .destroy handleShared => handleShared = true → mw.target s.middleware = none
  | _ => True

theorem step_eq_some_iff :
    s.step mw noun ev = some s' ↔ s.enabled ev = true ∧ s.act mw noun ev = s' := by
  simp [step]

theorem inv_fresh {m : M} (h : mw.target m = none) : Inv mw (fresh m : CallbackHolder F M) where
  store := nofun
  pointAtStored := nofun
  unstore := fun _ => h
  busy := fun hne => absurd rfl hne
  finalized := nofun
  earlier := fun call hcall => by rw [fresh, h] at hcall; cases hcall
  before := nofun
  read := fun hne => absurd h hne

theorem safe_fresh {m : M} (h : mw.target m = none) : Safe mw (fresh m : CallbackHolder F M) where
  callable := fun _ p hp => by rw [fresh, h] at hp; cases hp
  handed := nofun

/-- Pointing the middleware somewhere, by whether it succeeds. -/
theorem point_cases (hmw : MiddlewareRules mw) (s : CallbackHolder F M)
    (p : Option FunctionPointer) :
    ((mw.setCallback p s.middleware).1 = true ∧ ∃ m n,
      s.point mw p = (true, { s.hand p n with middleware := m }) ∧ mw.target m = p ∧
      (p = none → mw.unread m = mw.unread s.middleware ∧ n = none) ∧
      (p ≠ none → mw.unread m = 0 ∧ n = if mw.unread s.middleware = 0 then none
        else some (mw.unread s.middleware))) ∨
    ((mw.setCallback p s.middleware).1 = false ∧ ∃ m,
      s.point mw p = (false, { s with middleware := m }) ∧
      mw.target m = mw.target s.middleware ∧ mw.unread m = mw.unread s.middleware) := by
  cases hset : mw.setCallback p s.middleware with
  | mk ok rest =>
    obtain ⟨m, n⟩ := rest
    cases ok with
    | true =>
      refine Or.inl ⟨rfl, m, n, ?_, hmw.accepted p _ m n hset⟩
      simp only [point, hset]
    | false =>
      obtain ⟨htarget, hunread, rfl⟩ := hmw.refused p _ m n hset
      refine Or.inr ⟨rfl, m, ?_, htarget, hunread⟩
      simp [point, hset, hand]

/-- A message leaves the middleware pointing where it does. -/
theorem target_arrive (hmw : MiddlewareRules mw) (m : M) :
    mw.target (mw.arrive m).1 = mw.target m := by
  by_cases h : mw.target m = none
  · rw [(hmw.kept m h).1, h]
  · exact (hmw.reported m h).1

/-- A call of rcl that fails throws out of the member function. -/
theorem Inv.thrown (h : Inv mw s) {m : M} (htarget : mw.target m = mw.target s.middleware)
    (hunread : mw.unread m = mw.unread s.middleware) :
    Inv mw { s with middleware := m, phase := .idle } where
  store := nofun
  pointAtStored := nofun
  unstore := nofun
  busy := fun hne => absurd rfl hne
  finalized := h.finalized
  earlier := fun call hcall => h.earlier call (htarget.symm.trans hcall)
  before := nofun
  read := fun hne => hunread.trans (h.read fun hnone => hne (htarget.trans hnone))

theorem Inv.proceed (hmw : MiddlewareRules mw) (h : Inv mw s) (hne : s.phase ≠ .idle) :
    Inv mw (s.proceed mw) := by
  have halive := h.busy hne
  cases hphase : s.phase with
  | idle => exact absurd hphase hne
  | pointAtLocal f =>
    simp only [CallbackHolder.proceed, hphase]
    obtain ⟨-, m, n, hpoint, htarget, -, hread⟩ | ⟨-, m, hpoint, htarget, hunread⟩ :=
      point_cases hmw s (some (.newCallback s.calls))
    · rw [hpoint]
      refine ⟨fun _ _ => htarget, nofun, nofun, fun _ => halive, h.finalized, ?_, nofun,
        fun _ => (hread nofun).1⟩
      intro call hcall
      have heq := htarget.symm.trans hcall
      cases heq
      exact Nat.le_refl _
    · rw [hpoint]
      exact h.thrown htarget hunread
  | store f =>
    simp only [CallbackHolder.proceed, hphase]
    exact ⟨nofun, fun _ heq => ⟨h.store f hphase, by cases heq; rfl⟩, nofun, fun _ => halive,
      h.finalized, h.earlier, nofun, h.read⟩
  | pointAtStored f =>
    simp only [CallbackHolder.proceed, hphase]
    obtain ⟨-, m, n, hpoint, htarget, -, hread⟩ | ⟨-, m, hpoint, htarget, hunread⟩ :=
      point_cases hmw s (some .stored)
    · rw [hpoint]
      refine ⟨nofun, nofun, nofun, fun _ => halive, h.finalized, ?_, nofun,
        fun _ => (hread nofun).1⟩
      intro call hcall
      have heq := htarget.symm.trans hcall
      cases heq
    · rw [hpoint]
      exact h.thrown htarget hunread
  | pointAtNull =>
    simp only [CallbackHolder.proceed, hphase]
    obtain ⟨-, m, n, hpoint, htarget, -, -⟩ | ⟨-, m, hpoint, htarget, hunread⟩ :=
      point_cases hmw s none
    · rw [hpoint]
      refine ⟨nofun, nofun, fun _ => htarget, fun _ => halive, h.finalized, ?_, nofun,
        fun hne => absurd htarget hne⟩
      intro call hcall
      have heq := htarget.symm.trans hcall
      cases heq
    · rw [hpoint]
      exact h.thrown htarget hunread
  | unstore =>
    simp only [CallbackHolder.proceed, hphase]
    exact ⟨nofun, nofun, nofun, fun _ => halive, h.finalized, h.earlier, nofun, h.read⟩

/-- An object that nobody is busy with is called by one thread at a time. -/
theorem idle_of_match (h : (match s.phase with | .idle => true | _ => false) = true) :
    s.phase = .idle := by
  cases hphase : s.phase with
  | idle => rfl
  | _ => rw [hphase] at h; cases h

theorem Inv.step (hmw : MiddlewareRules mw) (h : Inv mw s) (hs : s.step mw noun ev = some s') :
    Inv mw s' := by
  obtain ⟨hen, rfl⟩ := step_eq_some_iff.mp hs
  cases ev with
  | setOnNew callback =>
    cases callback with
    | none => exact h
    | some f =>
      simp only [enabled, Bool.and_eq_true, Bool.not_eq_true', Option.isNone_some,
        Bool.false_or] at hen
      refine ⟨nofun, nofun, nofun, fun _ => hen.1, h.finalized, fun call hcall => ?_,
        fun _ call _ hcall => ?_, h.read⟩
      · exact Nat.le_succ_of_le (h.earlier call hcall)
      · exact Nat.lt_succ_of_le (h.earlier call hcall)
  | clearOnNew =>
    simp only [enabled, Bool.and_eq_true, Bool.not_eq_true'] at hen
    simp only [act]
    split
    · exact ⟨nofun, nofun, nofun, fun _ => hen.1, h.finalized, h.earlier, nofun, h.read⟩
    · exact h
  | proceed =>
    refine h.proceed hmw fun hidle => ?_
    simp [enabled, hidle] at hen
  | arrive =>
    have htarget := target_arrive hmw s.middleware
    refine ⟨fun f hf => htarget.trans (h.store f hf),
      fun f hf => ⟨htarget.trans (h.pointAtStored f hf).1, (h.pointAtStored f hf).2⟩,
      fun hu => htarget.trans (h.unstore hu), h.busy, h.finalized,
      fun call hcall => h.earlier call (htarget.symm.trans hcall),
      fun f call hf hcall => h.before f call hf (htarget.symm.trans hcall), fun hne => ?_⟩
    have hsome : mw.target s.middleware ≠ none := fun hnone => hne (htarget.trans hnone)
    exact (hmw.reported _ hsome).2.1.trans (h.read hsome)
  | destroy handleShared =>
    simp only [enabled, Bool.and_eq_true, Bool.not_eq_true'] at hen
    have hidle := idle_of_match hen.2
    exact ⟨fun f hf => absurd (hidle.symm.trans hf) nofun,
      fun f hf => absurd (hidle.symm.trans hf) nofun,
      fun hu => absurd (hidle.symm.trans hu) nofun, fun hne => absurd hidle hne, fun _ => rfl,
      h.earlier, fun f call hf => absurd (hidle.symm.trans hf) nofun, h.read⟩

theorem Inv.alive (h : Inv mw s) (hne : s.phase ≠ .idle) : s.finalized = false := by
  rw [Bool.eq_false_iff]
  intro hfinal
  have hdestroyed := h.finalized hfinal
  rw [h.busy hne] at hdestroyed
  cases hdestroyed

/-- Whoever is idle has no local object. -/
theorem deref_of_idle (hidle : s.phase = .idle) (p : FunctionPointer) :
    s.deref p = if p = .stored ∧ s.destroyed = false then s.stored else none := by
  cases p with
  | newCallback call => simp [deref, newCallback, hidle]
  | stored => cases hd : s.destroyed <;> simp [deref, hd]

/-- Handing a count to a function that exists. -/
theorem called_hand (h : ∀ call ∈ s.handed, call.1 ≠ none) {p : Option FunctionPointer} {n : Option ℕ}
    (hp : n ≠ none → ∃ f, p.bind s.deref = some f) :
    ∀ call ∈ (s.hand p n).handed, call.1 ≠ none := by
  intro call hcall
  simp only [CallbackHolder.hand, List.mem_append, Option.mem_toList, Option.map_eq_some_iff]
    at hcall
  obtain hcall | ⟨count, rfl, rfl⟩ := hcall
  · exact h call hcall
  · obtain ⟨f, hf⟩ := hp nofun
    simp only [hf]
    nofun

theorem Safe.proceed (hmw : MiddlewareRules mw) (hi : Inv mw s) (h : Safe mw s)
    (hc : Keeps mw s .proceed) (hne : s.phase ≠ .idle) : Safe mw (s.proceed mw) := by
  have hfinal := hi.alive hne
  have halive := hi.busy hne
  have hpoints := h.callable hfinal
  cases hphase : s.phase with
  | idle => exact absurd hphase hne
  | pointAtLocal f =>
    simp only [CallbackHolder.proceed, hphase]
    have hlocal : s.deref (.newCallback s.calls) = some f := by
      simp [deref, newCallback, hphase]
    obtain ⟨-, m, n, hpoint, htarget, -, -⟩ | ⟨-, m, hpoint, htarget, -⟩ :=
      point_cases hmw s (some (.newCallback s.calls))
    · rw [hpoint]
      refine ⟨fun _ p hp => ?_, called_hand h.handed fun _ => ⟨f, hlocal⟩⟩
      have heq := htarget.symm.trans hp
      cases heq
      exact ⟨f, by simp [deref, newCallback, CallbackHolder.hand]⟩
    · -- where it points stays, and that was no local object
      rw [hpoint]
      refine ⟨fun _ p hp => ?_, h.handed⟩
      have hp : mw.target s.middleware = some p := htarget.symm.trans hp
      obtain ⟨g, hg⟩ := hpoints p hp
      cases p with
      | newCallback call =>
        have hlt := hi.before f call hphase hp
        simp [deref, Nat.ne_of_lt hlt] at hg
      | stored => exact ⟨g, hg⟩
  | store f =>
    simp only [CallbackHolder.proceed, hphase]
    refine ⟨fun _ p hp => ?_, h.handed⟩
    have heq := (hi.store f hphase).symm.trans hp
    cases heq
    exact ⟨f, by simp [deref, newCallback]⟩
  | pointAtStored f =>
    simp only [CallbackHolder.proceed, hphase]
    have hstored : s.deref .stored = some f := by
      simp [deref, halive, (hi.pointAtStored f hphase).2]
    obtain ⟨-, m, n, hpoint, htarget, -, -⟩ | ⟨hfails, -⟩ := point_cases hmw s (some .stored)
    · rw [hpoint]
      refine ⟨fun _ p hp => ?_, called_hand h.handed fun _ => ⟨f, hstored⟩⟩
      have heq := htarget.symm.trans hp
      cases heq
      exact ⟨f, hstored⟩
    · rw [hc f hphase] at hfails
      cases hfails
  | pointAtNull =>
    simp only [CallbackHolder.proceed, hphase]
    obtain ⟨-, m, n, hpoint, htarget, hnone, -⟩ | ⟨-, m, hpoint, htarget, -⟩ :=
      point_cases hmw s none
    · rw [hpoint]
      refine ⟨fun _ p hp => ?_, called_hand h.handed fun hn => absurd (hnone rfl).2 hn⟩
      have heq := htarget.symm.trans hp
      cases heq
    · rw [hpoint]
      refine ⟨fun _ p hp => ?_, h.handed⟩
      obtain ⟨g, hg⟩ := hpoints p (htarget.symm.trans hp)
      cases p with
      | newCallback call => simp [deref, newCallback, hphase] at hg
      | stored => exact ⟨g, hg⟩
  | unstore =>
    simp only [CallbackHolder.proceed, hphase]
    refine ⟨fun _ p hp => ?_, h.handed⟩
    have heq := (hi.unstore hphase).symm.trans hp
    cases heq

theorem Safe.step (hmw : MiddlewareRules mw) (hi : Inv mw s) (h : Safe mw s) (hc : Keeps mw s ev)
    (hs : s.step mw noun ev = some s') : Safe mw s' := by
  obtain ⟨hen, rfl⟩ := step_eq_some_iff.mp hs
  -- who comes while nobody is busy leaves the functions pointed at as they are
  have hidle : s.phase = .idle → ∀ {u : CallbackHolder F M}, u.finalized = s.finalized →
      u.middleware = s.middleware → u.stored = s.stored → u.destroyed = s.destroyed →
      u.handed = s.handed → Safe mw u := by
    intro hphase u hfinal hm hstored hdestroyed hhanded
    refine ⟨fun hf p hp => ?_, by rw [hhanded]; exact h.handed⟩
    rw [hm] at hp
    obtain ⟨f, hf⟩ := h.callable (hfinal.symm.trans hf) p hp
    rw [deref_of_idle hphase] at hf
    split at hf
    · next hp' =>
      obtain ⟨rfl, hd⟩ := hp'
      exact ⟨f, by simp [deref, hdestroyed, hd, hstored, hf]⟩
    · cases hf
  cases ev with
  | setOnNew callback =>
    cases callback with
    | none => exact h
    | some f =>
      simp only [enabled, Bool.and_eq_true, Option.isNone_some, Bool.false_or] at hen
      exact hidle (idle_of_match hen.2) rfl rfl rfl rfl rfl
  | clearOnNew =>
    simp only [enabled, Bool.and_eq_true] at hen
    simp only [act]
    split
    · exact hidle (idle_of_match hen.2) rfl rfl rfl rfl rfl
    · exact h
  | proceed =>
    refine h.proceed hmw hi hc fun hidle => ?_
    simp [enabled, hidle] at hen
  | arrive =>
    simp only [enabled, Bool.not_eq_true'] at hen
    have htarget := target_arrive hmw s.middleware
    refine ⟨fun hf p hp => h.callable hf p (htarget.symm.trans hp), called_hand h.handed fun hn => ?_⟩
    cases ht : mw.target s.middleware with
    | none => exact absurd (hmw.kept _ ht).2.2 hn
    | some p => exact h.callable hen p ht
  | destroy handleShared =>
    refine ⟨fun hf p hp => ?_, h.handed⟩
    have hshared : handleShared = true := by simpa [act] using hf
    have heq := (hc hshared).symm.trans hp
    cases heq

/-- A step that breaks the condition leaves the middleware with a pointer to nothing. -/
theorem Keeps.of_safe (hmw : MiddlewareRules mw) (hi : Inv mw s)
    (hs : s.step mw noun ev = some s') (h : Safe mw s') : Keeps mw s ev := by
  obtain ⟨hen, rfl⟩ := step_eq_some_iff.mp hs
  cases ev with
  | proceed =>
    intro f hphase
    obtain ⟨hok, -⟩ | ⟨-, m, hpoint, htarget, -⟩ := point_cases hmw s (some .stored)
    · exact hok
    · -- the local object pointed at dies with the call
      have hact : s.act mw noun .proceed = { s with middleware := m, phase := .idle } := by
        simp only [act, CallbackHolder.proceed, hphase, hpoint]
      rw [hact] at h
      have hfinal := hi.alive (s := s) (by rw [hphase]; nofun)
      obtain ⟨g, hg⟩ := h.callable hfinal (.newCallback s.calls)
        (htarget.trans (hi.pointAtStored f hphase).1)
      rw [deref_of_idle rfl] at hg
      simp at hg
  | destroy handleShared =>
    intro hshared
    by_contra hne
    obtain ⟨p, hp⟩ := Option.ne_none_iff_exists'.mp hne
    simp only [enabled, Bool.and_eq_true] at hen
    obtain ⟨g, hg⟩ := h.callable (by simp [act, hshared]) p hp
    have hidle : (s.act mw noun (.destroy handleShared)).phase = .idle := idle_of_match hen.2
    rw [deref_of_idle hidle] at hg
    simp [act] at hg
  | _ => trivial

/-- **When no destroyed function is called.** Whatever the interleaving, the middleware always
points at a function that exists, and has called no other, exactly when every last call of rcl in
`set_on_new_*_callback` succeeds and no object is destroyed with a callback set while its handle is
shared. -/
theorem pointsAtCallable_iff (hmw : MiddlewareRules mw) (noun : String) {m : M}
    (hm : mw.target m = none) {evs : List (HolderEvent F)} {last : CallbackHolder F M}
    (hrun : Runs.run (step mw noun) (fresh m) evs = some last) :
    Runs.Always (step mw noun) (Safe mw) (fresh m) evs ↔
      Runs.EachStep (step mw noun) (Keeps mw) (fresh m) evs :=
  Runs.always_iff_eachStep (fun _ _ _ h hs => Inv.step hmw h hs) (fun _ _ h => h)
    (fun _ _ _ hi h hc hs => h.step hmw hi hc hs) (fun _ _ _ hi _ hs h => .of_safe hmw hi hs h)
    (inv_fresh hm) (safe_fresh hm) hrun

-- ════════════════════════════════════════════════════════════════════════
-- What is reported
-- ════════════════════════════════════════════════════════════════════════

/-- The messages reported so far, those in calls of a function that no longer exists included. -/
def reported (s : CallbackHolder F M) : ℕ := (s.handed.map Prod.snd).sum

/-- The event writes the stored function. -/
def Overwrites (s : CallbackHolder F M) : HolderEvent F → Prop
  | .proceed => (∃ f, s.phase = .store f) ∨ s.phase = .unstore
  | _ => False

/-- The messages that arrive in a run. -/
def arrivals (evs : List (HolderEvent F)) : ℕ :=
  evs.countP fun | .arrive => true | _ => false

theorem reported_hand (s : CallbackHolder F M) (p : Option FunctionPointer) (n : Option ℕ) :
    (s.hand p n).reported = s.reported + n.getD 0 := by
  cases n <;> simp [reported, hand]

/-- Pointing the middleware somewhere reports what it had not, or nothing. -/
theorem reported_point (hmw : MiddlewareRules mw) (s : CallbackHolder F M)
    (p : Option FunctionPointer) :
    (s.point mw p).2.reported + mw.unread (s.point mw p).2.middleware =
      s.reported + mw.unread s.middleware := by
  obtain ⟨-, m, n, hpoint, -, hnone, hsome⟩ | ⟨-, m, hpoint, -, hunread⟩ := point_cases hmw s p
  · rw [hpoint]
    show (s.hand p n).reported + mw.unread m = _
    rw [reported_hand]
    by_cases hp : p = none
    · obtain ⟨hunread, rfl⟩ := hnone hp
      rw [hunread]
      rfl
    · obtain ⟨hunread, rfl⟩ := hsome hp
      rw [hunread]
      split
      · next h0 => rw [h0]; rfl
      · rfl
  · rw [hpoint]
    show s.reported + mw.unread m = _
    rw [hunread]

/-- A step reports no more than is unread, and forgets nothing. -/
theorem reported_step (hmw : MiddlewareRules mw) (hs : s.step mw noun ev = some s') :
    s'.reported + mw.unread s'.middleware =
      s.reported + mw.unread s.middleware + arrivals [ev] := by
  obtain ⟨-, rfl⟩ := step_eq_some_iff.mp hs
  cases ev with
  | setOnNew callback => cases callback <;> rfl
  | clearOnNew =>
    simp only [act]
    split <;> rfl
  | proceed =>
    simp only [act, proceed]
    split
    · rfl
    · exact reported_point hmw s _
    · rfl
    · exact reported_point hmw s _
    · exact reported_point hmw s _
    · rfl
  | arrive =>
    show (s.hand _ _).reported + mw.unread (mw.arrive s.middleware).1 = _
    rw [reported_hand]
    by_cases ht : mw.target s.middleware = none
    · obtain ⟨-, hunread, hn⟩ := hmw.kept _ ht
      rw [hunread, hn]
      simp [arrivals, Nat.add_assoc]
    · obtain ⟨-, hunread, hn⟩ := hmw.reported _ ht
      rw [hunread, hn]
      simp [arrivals]
      omega
  | destroy handleShared => rfl

/-- A middleware that never refuses. -/
def referenceMiddleware : Middleware (Option FunctionPointer × ℕ) where
  target := Prod.fst
  unread := Prod.snd
  setCallback p m :=
    if p.isSome then (true, (p, 0), if m.2 = 0 then none else some m.2) else (true, (p, m.2), none)
  arrive m := if m.1.isSome then (m, some 1) else ((m.1, m.2 + 1), none)

theorem middlewareRules_reference : MiddlewareRules referenceMiddleware where
  accepted := by
    intro p m m' n h
    cases p with
    | none =>
      cases h
      exact ⟨rfl, fun _ => ⟨rfl, rfl⟩, fun hne => absurd rfl hne⟩
    | some p =>
      cases h
      exact ⟨rfl, nofun, fun _ => ⟨rfl, rfl⟩⟩
  refused := by
    intro p m m' n h
    cases p <;> cases h
  reported := by
    rintro ⟨p, u⟩ h
    cases p with
    | none => exact absurd rfl h
    | some p => exact ⟨rfl, rfl, rfl⟩
  kept := by
    rintro ⟨p, u⟩ h
    cases h
    exact ⟨rfl, rfl, rfl⟩

/-- Two messages find no callback; one comes while the callback is being set, one after that. -/
def exchange : List (HolderEvent ℕ) :=
  [.arrive, .arrive, .setOnNew (some 7), .proceed, .arrive, .proceed, .proceed, .arrive,
    .clearOnNew, .proceed, .arrive, .proceed]

/-- What the run leaves. -/
def exchanged : CallbackHolder ℕ (Option FunctionPointer × ℕ) :=
  ⟨.idle, 1, none, false, false, (none, 1), [(some 7, 2), (some 7, 1), (some 7, 1)]⟩

theorem run_exchange :
    Runs.run (step referenceMiddleware "response") (fresh (none, 0)) exchange = some exchanged := by
  decide

theorem pointsAtCallable_exchange :
    Runs.Always (step referenceMiddleware "response") (Safe referenceMiddleware) (fresh (none, 0))
        exchange ↔
      Runs.EachStep (step referenceMiddleware "response") (Keeps referenceMiddleware)
        (fresh (none, 0)) exchange :=
  pointsAtCallable_iff middlewareRules_reference "response" rfl run_exchange

end CallbackHolder

end Rtest
