import Rtest.Logging.OutputHandler

/-!
# Where log messages go

A message goes to the output handler installed when it is logged. `logHandler` formats it and, unless
nothing is left, passes it to the mock that `LoggerMock::instance_` points to; with the logs
disabled it goes nowhere.

Where lifetimes nest, the objects alive are scopes, and the innermost of them decides: a mock
records the message, `DisableLogs` swallows it, and outside all of them it goes to the handler the
program had at first.

## Main definitions

- `LogSession` — the handlers, what the mocks recorded and what other handlers were given
- `LogScopes` — the same with a stack of scopes for the handlers

## Main results

- `LogSession.routed_by_scopes` — where lifetimes nest the two record the same
-/

namespace Rtest

open LogWorld

/-- An object is constructed or destroyed, or a message is logged: `msg` is the formatted text. -/
inductive LogEvent where
  | life (op : LogOp)
  | log (severity : ℤ) (msg : String)
  deriving DecidableEq, Repr

/-- The calls that reached a mock, and those that reached another handler, in order. -/
structure LogRecord where
  mocked : List (ℕ × ℤ × String)
  forwarded : List (ℕ × ℤ × String)
  deriving DecidableEq, Repr

def LogRecord.mock (r : LogRecord) (call : ℕ × ℤ × String) : LogRecord :=
  { r with mocked := r.mocked ++ [call] }

def LogRecord.forward (r : LogRecord) (call : ℕ × ℤ × String) : LogRecord :=
  { r with forwarded := r.forwarded ++ [call] }

structure LogSession where
  world : LogWorld
  record : LogRecord

namespace LogSession

/-- No object has been constructed yet and nothing logged. -/
def start (H : Option Handler) : LogSession := ⟨LogWorld.start H, ⟨[], []⟩⟩

/-- rcutils hands a message to the output handler, if there is one. -/
def emit (severity : ℤ) (msg : String) (s : LogSession) : LogSession :=
  match s.world.outputHandler with
  | none => s
  | some (.other n) => { s with record := s.record.forward (n, severity, msg) }
  | some .logHandler =>
    match s.world.logHandler severity msg with
    | none => s
    | some call => { s with record := s.record.mock call }

def step (s : LogSession) : LogEvent → Option LogSession
  | .life op => (s.world.step op).map fun w => { s with world := w }
  | .log severity msg => some (s.emit severity msg)

/-- The lifetimes nest. -/
def Innermost (s : LogSession) : LogEvent → Prop
  | .life op => LogWorld.Innermost s.world op
  | .log _ _ => True

end LogSession

/-- The scopes that are open, the innermost first, and the number of the next one. -/
structure LogScopes where
  scopes : List (ℕ × LogClass)
  next : ℕ
  record : LogRecord
  deriving DecidableEq, Repr

namespace LogScopes

def start : LogScopes := ⟨[], 0, ⟨[], []⟩⟩

/-- The innermost scope decides; outside all of them it is the handler of the program. -/
def emit (H : Option Handler) (severity : ℤ) (msg : String) (s : LogScopes) : LogScopes :=
  match s.scopes with
  | (mock, .loggerMock) :: _ =>
    if msg.length = 0 then s else { s with record := s.record.mock (mock, severity, msg) }
  | (_, .disableLogs) :: _ => s
  | [] =>
    match H with
    | some (.other n) => { s with record := s.record.forward (n, severity, msg) }
    | _ => s

/-- A scope of a class that is open already does not open. -/
def act (H : Option Handler) (s : LogScopes) : LogEvent → LogScopes
  | .life (.construct cls) =>
    if s.scopes.any fun scope => scope.2 = cls then s
    else { s with scopes := (s.next, cls) :: s.scopes, next := s.next + 1 }
  | .life (.destroy i) => { s with scopes := s.scopes.filter fun scope => scope.1 ≠ i }
  | .log severity msg => s.emit H severity msg

end LogScopes

namespace LogSession

variable {H : Option Handler} {s s' : LogSession} {t : LogScopes} {ev : LogEvent}

/-- The scopes of `t` are the objects alive in `s`, and both recorded the same. -/
structure Refines (H : Option Handler) (s : LogSession) (t : LogScopes) : Prop where
  single : SingleInstances s.world
  nested : Scoped H s.world
  next : s.world.objects.next = t.next
  lives : ∀ i cls, (i, cls) ∈ t.scopes ↔ s.world.Lives i cls
  sorted : t.scopes.Pairwise fun scope scope' => scope'.1 < scope.1
  record : s.record = t.record

theorem refines_start (H : Option Handler) : Refines H (start H) .start where
  single := singleInstances_start H
  nested := scoped_start H
  next := rfl
  lives := by
    intro i cls
    refine iff_of_false List.not_mem_nil ?_
    rintro ⟨obj, hobj, -⟩
    cases hobj
  sorted := .nil
  record := rfl

/-- The handler installed is the innermost scope's. -/
theorem Refines.outputHandler (h : Refines H s t) : s.world.outputHandler =
    match t.scopes with
    | [] => H
    | scope :: _ => scope.2.installs := by
  cases hscopes : t.scopes with
  | nil =>
    refine h.nested.restored fun i => ?_
    cases hobj : s.world.objects.get? i with
    | none => rfl
    | some obj =>
      have hmem := (h.lives i obj.cls).mpr ⟨obj, hobj, rfl⟩
      rw [hscopes] at hmem
      cases hmem
  | cons scope scopes =>
    obtain ⟨i, cls⟩ := scope
    obtain ⟨obj, hobj, rfl⟩ := (h.lives i cls).mp (by rw [hscopes]; exact List.mem_cons_self)
    have hsorted := h.sorted
    rw [hscopes, List.pairwise_cons] at hsorted
    have hyoungest : ∀ j, i < j → s.world.objects.get? j = none := by
      intro j hij
      cases hj : s.world.objects.get? j with
      | none => rfl
      | some obj' =>
        have hmem := (h.lives j obj'.cls).mpr ⟨obj', hj, rfl⟩
        rw [hscopes, List.mem_cons, Prod.mk.injEq] at hmem
        obtain ⟨rfl, -⟩ | hmem := hmem
        · exact absurd hij (Nat.lt_irrefl _)
        · exact absurd (hsorted.1 _ hmem) (Nat.lt_asymm hij)
    have hscoped := h.nested
    rw [Scoped, ObjectStore.living_of_youngest hobj hyoungest] at hscoped
    exact hscoped.1

theorem Refines.recorded (h : Refines H s t) (r : LogRecord) :
    Refines H { s with record := r } { t with record := r } :=
  ⟨h.single, h.nested, h.next, h.lives, h.sorted, rfl⟩

/-- **A message** goes where the innermost scope sends it. -/
theorem Refines.emit (hH : H ≠ some .logHandler) (h : Refines H s t) (severity : ℤ)
    (msg : String) : Refines H (s.emit severity msg) (t.emit H severity msg) := by
  have hhandler := h.outputHandler
  have hrecord := h.record
  obtain ⟨scopes, next, record⟩ := t
  cases scopes with
  | nil =>
    simp only at hhandler hrecord
    simp only [LogSession.emit, LogScopes.emit, hhandler, hrecord]
    rcases H with _ | _ | n
    · exact h
    · exact absurd rfl hH
    · exact h.recorded _
  | cons scope scopes =>
    obtain ⟨i, cls⟩ := scope
    simp only at hhandler hrecord
    cases cls with
    | loggerMock =>
      have hmock : s.world.instance_ = some i := by
        rw [h.single.pointer, ← h.lives]
        exact List.mem_cons_self
      simp only [LogSession.emit, LogScopes.emit, hhandler, LogClass.installs, LogWorld.logHandler,
        hmock, hrecord]
      by_cases hmsg : msg.length = 0
      · simpa only [hmsg, if_true] using h
      · simpa only [hmsg, if_false] using h.recorded _
    | disableLogs =>
      simp only [LogSession.emit, LogScopes.emit, hhandler, LogClass.installs]
      exact h

theorem Refines.construct (h : Refines H s t) (cls : LogClass) :
    Refines H { s with world := (s.world.construct cls).2 } (t.act H (.life (.construct cls))) := by
  have hinner : LogWorld.Innermost s.world (.construct cls) := by
    rintro i ⟨⟩
  have hscoped := h.nested.step hinner rfl
  have hsingle := h.single.construct cls
  simp only [LogScopes.act]
  cases hflag : s.world.instanceCreated cls with
  | true =>
    obtain ⟨i, hi⟩ := (h.single.flag cls).mp hflag
    have hany : t.scopes.any (fun scope => scope.2 = cls) = true := by
      rw [List.any_eq_true]
      exact ⟨(i, cls), (h.lives i cls).mpr hi, by simp⟩
    rw [if_pos hany, construct_refused hflag]
    exact h
  | false =>
    have hany : ¬ t.scopes.any (fun scope => scope.2 = cls) = true := by
      rw [List.any_eq_true]
      rintro ⟨⟨i, cls'⟩, hmem, heq⟩
      obtain rfl : cls' = cls := by simpa using heq
      rw [(h.single.flag cls').mpr ⟨i, (h.lives i cls').mp hmem⟩] at hflag
      cases hflag
    rw [if_neg hany]
    refine ⟨hsingle, hscoped, ?_, fun i cls' => ?_, ?_, h.record⟩
    · rw [construct_ok hflag]
      simp [h.next]
    · rw [List.mem_cons, lives_construct hflag, h.lives, Prod.mk.injEq, h.next]
    · refine List.pairwise_cons.mpr ⟨fun scope hmem => ?_, h.sorted⟩
      obtain ⟨obj, hobj, -⟩ := (h.lives scope.1 scope.2).mp hmem
      have hlt := ObjectStore.lt_next_of_get? hobj
      rwa [h.next] at hlt

theorem Refines.destroy (h : Refines H s t) {i : ℕ} {w : LogWorld}
    (hinner : LogWorld.Innermost s.world (.destroy i)) (hstep : s.world.step (.destroy i) = some w) :
    Refines H { s with world := w } (t.act H (.life (.destroy i))) where
  single := h.single.step hstep
  nested := h.nested.step hinner hstep
  next := by
    obtain ⟨obj, -, rfl⟩ := destroy_eq_some_iff.mp hstep
    simp [LogScopes.act, h.next]
  lives := by
    intro j cls
    rw [lives_destroy hstep, LogScopes.act, List.mem_filter, h.lives]
    simp [and_comm]
  sorted := h.sorted.filter _
  record := h.record

theorem Refines.step (hH : H ≠ some .logHandler) (h : Refines H s t) (hinner : Innermost s ev)
    (hstep : s.step ev = some s') : Refines H s' (t.act H ev) := by
  cases ev with
  | life op =>
    simp only [LogSession.step, Option.map_eq_some_iff] at hstep
    obtain ⟨w, hw, rfl⟩ := hstep
    cases op with
    | construct cls =>
      cases hw
      exact h.construct cls
    | destroy i => exact h.destroy hinner hw
  | log severity msg =>
    cases hstep
    exact h.emit hH severity msg

/-- By induction over the run, from any state that refines the scopes. -/
theorem Refines.run (hH : H ≠ some .logHandler) (h : Refines H s t) {evs : List LogEvent}
    (hrun : Runs.run LogSession.step s evs = some s')
    (hinner : Runs.EachStep LogSession.step Innermost s evs) :
    Refines H s' (evs.foldl (LogScopes.act H) t) := by
  induction evs generalizing s t with
  | nil =>
    cases hrun
    exact h
  | cons ev evs ih =>
    obtain ⟨u, hu, hrest⟩ := Runs.run_cons_eq_some_iff.mp hrun
    have hfirst : Innermost s ev := hinner [] ev s (List.prefix_append [ev] evs) rfl
    exact ih (h.step hH hfirst hu) hrest (hinner.tail hu)

/-- **The innermost scope decides.** From any handler but `logHandler` itself, in every run in which
no object is destroyed while one constructed after it is alive, the mocks record and the program's
own handler is given what a stack of scopes says, each message once and in order. -/
theorem routed_by_scopes (hH : H ≠ some .logHandler) {evs : List LogEvent}
    (hrun : Runs.run LogSession.step (start H) evs = some s)
    (hinner : Runs.EachStep LogSession.step Innermost (start H) evs) :
    s.record = (evs.foldl (LogScopes.act H) .start).record :=
  ((refines_start H).run hH hrun hinner).record

/-- A mock, the logs disabled for one message, and a message after all of it. -/
def muted : List LogEvent :=
  [.life (.construct .loggerMock), .log 20 "one", .life (.construct .disableLogs), .log 30 "two",
    .life (.construct .loggerMock), .life (.destroy 1), .log 20 "", .log 40 "three",
    .life (.destroy 0), .log 20 "four"]

theorem innermost_muted :
    Runs.EachStep LogSession.step Innermost (start (some (.other 7))) muted := by
  rw [Runs.eachStep_iff_getElem]
  rintro pos (⟨cls | i⟩ | ⟨severity, msg⟩) u hpos hu
  · rintro i ⟨⟩
  · rintro i ⟨⟩ j hij
    rcases pos with _ | _ | _ | _ | _ | _ | _ | _ | _ | _ | pos <;> cases hpos <;> cases hu
    · rcases j with _ | _ | j
      · exact absurd hij (by decide)
      · exact absurd hij (by decide)
      · rfl
    · rcases j with _ | _ | j
      · exact absurd hij (by decide)
      · rfl
      · rfl
  · trivial

theorem routed_muted : ∃ s,
    Runs.run LogSession.step (start (some (.other 7))) muted = some s ∧
      s.record = (muted.foldl (LogScopes.act (some (.other 7))) .start).record :=
  ⟨_, rfl, routed_by_scopes (by decide) rfl innermost_muted⟩

example : (muted.foldl (LogScopes.act (some (.other 7))) .start).record =
    ⟨[(0, 20, "one"), (0, 40, "three")], [(7, 20, "four")]⟩ := by decide

end LogSession

end Rtest
