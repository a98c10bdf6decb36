import Rtest.Foundations.ObjectStore
import Rtest.Foundations.Runs
import Rtest.Foundations.SavedCell

/-!
# The log output handler

`LoggerMock` installs `logHandler` as the output handler of rcutils and `DisableLogs` installs none.
Each saves the handler it finds and puts it back when it is destroyed, whatever has been installed
since. A class has one instance at most; nothing of the kind holds across the two classes.

## Main definitions

- `LogWorld.construct`, `LogWorld.destroy` — the constructors and destructors
- `HandlersRestored` — what is asked of a run of them
- `LogWorld.Innermost` — an object is destroyed only while none constructed after it is alive
-/

namespace Rtest

/-- A function that can be installed as output handler: rtest's own, or another. -/
inductive Handler where
  | logHandler
  | other (n : ℕ)
  deriving DecidableEq, Repr

/-- The classes derived from `SingleInstance`. -/
inductive LogClass where
  | loggerMock
  | disableLogs
  deriving DecidableEq, Repr

/-- The name that `boost::typeindex` gives for the class. -/
def LogClass.prettyName : LogClass → String
  | loggerMock => "rtest::LoggerMock"
  | disableLogs => "rtest::DisableLogs"

/-- The handler that an object of the class installs. -/
def LogClass.installs : LogClass → Option Handler
  | loggerMock => some .logHandler
  | disableLogs => none

structure LogObject where
  cls : LogClass
  origLogHandler : Option Handler
  deriving DecidableEq, Repr

/-- `outputHandler` is rcutils' own, a function pointer; `instanceCreated` is the flag of
`SingleInstance` for each class, `instance_` the static pointer of `LoggerMock`. -/
structure LogWorld where
  outputHandler : Option Handler
  instanceCreated : LogClass → Bool
  instance_ : Option ℕ
  objects : ObjectStore LogObject

namespace LogWorld

/-- No object has been constructed yet. -/
def start (handler : Option Handler) : LogWorld := ⟨handler, fun _ => false, none, .empty⟩

/-- The constructor of `SingleInstance`: test and set the flag, and throw if it was set. -/
def singleInstance (cls : LogClass) (w : LogWorld) : Except String Unit × LogWorld :=
  (if w.instanceCreated cls then
      .error ("Attempt to create more than one instance of " ++ cls.prettyName)
    else .ok (),
    { w with instanceCreated := Function.update w.instanceCreated cls true })

/-- An assignment to `LoggerMock::instance_`, which only that class makes. -/
def setInstance (cls : LogClass) (p old : Option ℕ) : Option ℕ :=
  match cls with
  | .loggerMock => p
  | .disableLogs => old

/-- The constructors of `LoggerMock` and `DisableLogs`. -/
def construct (cls : LogClass) (w : LogWorld) : Except String Unit × LogWorld :=
  match singleInstance cls w with
  | (.error e, w) => (.error e, w)
  | (.ok (), w) =>
    (.ok (), { w with
      instance_ := setInstance cls (some w.objects.next) w.instance_
      objects := w.objects.alloc ⟨cls, w.outputHandler⟩
      outputHandler := cls.installs })

/-- The destructors; that of `SingleInstance`, which comes last, clears the flag. -/
def destroy (i : ℕ) (w : LogWorld) : Option LogWorld :=
  match w.objects.get? i with
  | none => none
  | some obj =>
    some { w with
      instance_ := setInstance obj.cls none w.instance_
      outputHandler := obj.origLogHandler
      objects := w.objects.free i
      instanceCreated := Function.update w.instanceCreated obj.cls false }

/-- `logHandler`, given the formatted message: what it logs, and with which mock. -/
def logHandler (severity : ℤ) (msg : String) (w : LogWorld) : Option (ℕ × ℤ × String) :=
  match w.instance_ with
  | none => none
  | some mock => if msg.length = 0 then none else some (mock, severity, msg)

end LogWorld

/-- An object is constructed, or one that lives is destroyed. -/
inductive LogOp where
  | construct (cls : LogClass)
  | destroy (i : ℕ)
  deriving DecidableEq, Repr

namespace LogWorld

/-- One step; a constructor may throw. -/
def step (w : LogWorld) : LogOp → Option LogWorld
  | .construct cls => some (w.construct cls).2
  | .destroy i => w.destroy i

/-- The object `i` is alive and of the class. -/
def Lives (w : LogWorld) (i : ℕ) (cls : LogClass) : Prop :=
  ∃ obj, w.objects.get? i = some obj ∧ obj.cls = cls

/-- The step destroys no object while one constructed after it is alive. -/
def Innermost (w : LogWorld) (op : LogOp) : Prop :=
  ∀ i, op = .destroy i → ∀ j, i < j → w.objects.get? j = none

variable {w w' : LogWorld} {cls : LogClass} {op : LogOp} {i j : ℕ} {obj : LogObject}
  {H : Option Handler}

-- ════════════════════════════════════════════════════════════════════════
-- One instance of each class
-- ════════════════════════════════════════════════════════════════════════

/-- The flag of a class tells whether an object of it is alive, and there is one at most; the static
pointer is to the mock that is alive. -/
structure SingleInstances (w : LogWorld) : Prop where
  flag : ∀ cls, w.instanceCreated cls = true ↔ ∃ i, w.Lives i cls
  unique : ∀ i j cls, w.Lives i cls → w.Lives j cls → i = j
  pointer : ∀ i, w.instance_ = some i ↔ w.Lives i .loggerMock

theorem construct_refused (h : w.instanceCreated cls = true) : w.construct cls =
    (.error ("Attempt to create more than one instance of " ++ cls.prettyName), w) := by
  have hsame : Function.update w.instanceCreated cls true = w.instanceCreated := by
    rw [← h, Function.update_eq_self]
  simp only [construct, singleInstance, h, if_true, hsame]

theorem construct_ok (h : w.instanceCreated cls = false) : w.construct cls = (.ok (),
    { w with
      instanceCreated := Function.update w.instanceCreated cls true
      instance_ := setInstance cls (some w.objects.next) w.instance_
      objects := w.objects.alloc ⟨cls, w.outputHandler⟩
      outputHandler := cls.installs }) := by
  simp only [construct, singleInstance, h, Bool.false_eq_true, if_false]

theorem destroy_eq_some_iff : w.destroy i = some w' ↔ ∃ obj, w.objects.get? i = some obj ∧
    w' = { w with
      instance_ := setInstance obj.cls none w.instance_
      outputHandler := obj.origLogHandler
      objects := w.objects.free i
      instanceCreated := Function.update w.instanceCreated obj.cls false } := by
  cases hget : w.objects.get? i with
  | none => simp [destroy, hget]
  | some obj => simp [destroy, hget, eq_comm]

theorem lives_construct (h : w.instanceCreated cls = false) {cls' : LogClass} :
    (w.construct cls).2.Lives i cls' ↔ (i = w.objects.next ∧ cls' = cls) ∨ w.Lives i cls' := by
  rw [construct_ok h]
  simp only [Lives, ObjectStore.get?_alloc]
  by_cases hi : i = w.objects.next
  · subst hi
    rw [if_pos rfl, ObjectStore.get?_eq_none_of_next_le (Nat.le_refl _)]
    simp [eq_comm]
  · simp [hi]

theorem lives_destroy (h : w.destroy i = some w') {cls' : LogClass} :
    w'.Lives j cls' ↔ j ≠ i ∧ w.Lives j cls' := by
  obtain ⟨obj, -, rfl⟩ := destroy_eq_some_iff.mp h
  simp only [Lives, ObjectStore.get?_free]
  by_cases hj : j = i <;> simp [hj]

theorem Lives.cls_eq {cls' : LogClass} (h : w.Lives i cls) (h' : w.Lives i cls') : cls = cls' := by
  obtain ⟨obj, hobj, rfl⟩ := h
  obtain ⟨obj', hobj', rfl⟩ := h'
  obtain rfl : obj = obj' := Option.some.inj (hobj.symm.trans hobj')
  rfl

theorem singleInstances_start (H : Option Handler) : SingleInstances (start H) := by
  have hnone : ∀ i cls, ¬ (start H).Lives i cls := by
    rintro i cls ⟨obj, hobj, -⟩
    cases hobj
  refine ⟨fun cls => ?_, fun i j cls hi => absurd hi (hnone i cls), fun i => ?_⟩
  · exact iff_of_false Bool.false_ne_true fun ⟨i, hi⟩ => hnone i cls hi
  · exact iff_of_false (fun h => by cases h) (hnone i .loggerMock)

theorem SingleInstances.construct (h : SingleInstances w) (cls : LogClass) :
    SingleInstances (w.construct cls).2 := by
  cases hflag : w.instanceCreated cls with
  | true =>
    rw [construct_refused hflag]
    exact h
  | false =>
    have hdead : ∀ i, ¬ w.Lives i cls := by
      intro i hi
      rw [(h.flag cls).mpr ⟨i, hi⟩] at hflag
      cases hflag
    refine ⟨fun cls' => ?_, fun i j cls' hi hj => ?_, fun i => ?_⟩
    · simp only [lives_construct hflag]
      rw [construct_ok hflag]
      by_cases hcls : cls' = cls
      · subst hcls
        simp
      · simp [hcls, h.flag]
    · rw [lives_construct hflag] at hi hj
      rcases hi with ⟨rfl, rfl⟩ | hi <;> rcases hj with ⟨rfl, hcls⟩ | hj
      · rfl
      · exact absurd hj (hdead j)
      · subst hcls
        exact absurd hi (hdead i)
      · exact h.unique i j cls' hi hj
    · rw [lives_construct hflag, construct_ok hflag]
      cases cls with
      | loggerMock => simp [setInstance, hdead, eq_comm]
      | disableLogs => simp [setInstance, h.pointer]

theorem SingleInstances.destroy (h : SingleInstances w) (hdestroy : w.destroy i = some w') :
    SingleInstances w' := by
  have hlives := fun j cls' => @lives_destroy w w' i j hdestroy cls'
  obtain ⟨obj, hobj, rfl⟩ := destroy_eq_some_iff.mp hdestroy
  have hi : w.Lives i obj.cls := ⟨obj, hobj, rfl⟩
  refine ⟨fun cls' => ?_, fun j k cls' hj hk => ?_, fun j => ?_⟩
  · simp only [hlives]
    by_cases hcls : cls' = obj.cls
    · subst hcls
      simp only [Function.update_self, Bool.false_eq_true, false_iff, not_exists, not_and]
      exact fun j hne hj => hne (h.unique j i _ hj hi)
    · rw [Function.update_of_ne hcls, h.flag]
      constructor
      · rintro ⟨j, hj⟩
        refine ⟨j, ?_, hj⟩
        rintro rfl
        exact hcls (hj.cls_eq hi)
      · rintro ⟨j, -, hj⟩
        exact ⟨j, hj⟩
  · rw [hlives] at hj hk
    exact h.unique j k cls' hj.2 hk.2
  · rw [hlives]
    cases hcls : obj.cls with
    | loggerMock =>
      rw [hcls] at hi
      simp only [setInstance, reduceCtorEq, false_iff, not_and]
      exact fun hne hj => hne (h.unique j i _ hj hi)
    | disableLogs =>
      simp only [setInstance, h.pointer]
      refine ⟨fun hj => ⟨?_, hj⟩, fun hj => hj.2⟩
      rintro rfl
      rw [hcls] at hi
      cases hj.cls_eq hi

/-- **One step** keeps one instance of each class. -/
theorem SingleInstances.step (h : SingleInstances w) (hstep : w.step op = some w') :
    SingleInstances w' := by
  cases op with
  | construct cls =>
    cases hstep
    exact h.construct cls
  | destroy i => exact h.destroy hstep

theorem singleInstances_run {ops : List LogOp} (hrun : Runs.run step (start H) ops = some w) :
    SingleInstances w :=
  Runs.run_invariant (fun _ _ _ hw hstep => hw.step hstep) (singleInstances_start H) hrun

/-- A message goes to a mock that is alive, whatever has been constructed and destroyed. -/
theorem logHandler_alive {ops : List LogOp} (hrun : Runs.run step (start H) ops = some w)
    {severity : ℤ} {msg : String} {call : ℕ × ℤ × String}
    (hlog : w.logHandler severity msg = some call) : w.Lives call.1 .loggerMock := by
  simp only [logHandler] at hlog
  split at hlog
  · cases hlog
  · next mock hmock =>
    split at hlog <;> cases hlog
    exact ((singleInstances_run hrun).pointer mock).mp hmock

-- ════════════════════════════════════════════════════════════════════════
-- Lifetimes as scopes
-- ════════════════════════════════════════════════════════════════════════

/-- The objects alive are scopes over the output handler, the youngest the innermost. -/
def Scoped (H : Option Handler) (w : LogWorld) : Prop :=
  SavedCell.Nested (fun obj : LogObject => obj.cls.installs) LogObject.origLogHandler H
    w.objects.living w.outputHandler

/-- **One step** that destroys only the innermost object keeps the objects nested. -/
theorem Scoped.step (h : Scoped H w) (hinner : Innermost w op) (hstep : w.step op = some w') :
    Scoped H w' := by
  cases op with
  | construct cls =>
    cases hstep
    cases hflag : w.instanceCreated cls with
    | true =>
      rw [construct_refused hflag]
      exact h
    | false =>
      rw [construct_ok hflag]
      show SavedCell.Nested _ _ H (w.objects.alloc ⟨cls, w.outputHandler⟩).living cls.installs
      rw [ObjectStore.living_alloc]
      exact h.enter (a := ⟨cls, w.outputHandler⟩) rfl
  | destroy i =>
    obtain ⟨obj, hobj, rfl⟩ := destroy_eq_some_iff.mp hstep
    rw [Scoped, ObjectStore.living_of_youngest hobj (hinner i rfl)] at h
    exact h.leave

theorem scoped_start (H : Option Handler) : Scoped H (start H) := rfl

/-- By induction over a run that destroys only innermost objects. -/
theorem scoped_always {ops : List LogOp} (hinner : Runs.EachStep step Innermost (start H) ops) :
    Runs.Always step (Scoped H) (start H) ops :=
  Runs.always_of_eachStep (fun _ _ _ hw hop hstep => Scoped.step hw hop hstep) (scoped_start H)
    hinner

/-- With none alive the handler is that of the start, and `logHandler` is there only with a mock. -/
theorem Scoped.restored (h : Scoped H w) (hnone : ∀ i, w.objects.get? i = none) :
    w.outputHandler = H := by
  have hliving : w.objects.living = [] := by
    rw [List.eq_nil_iff_forall_not_mem]
    intro obj hobj
    obtain ⟨i, hi⟩ := ObjectStore.mem_living.mp hobj
    rw [hnone] at hi
    cases hi
  rw [Scoped, hliving] at h
  exact h.restored

theorem Scoped.mocked (h : Scoped H w) (hH : H ≠ some .logHandler)
    (hlog : w.outputHandler = some .logHandler) : ∃ i, w.Lives i .loggerMock := by
  rcases h.source with hstart | ⟨obj, hobj, hinstalls⟩
  · exact absurd (hstart.symm.trans hlog) hH
  · obtain ⟨i, hi⟩ := ObjectStore.mem_living.mp hobj
    refine ⟨i, obj, hi, ?_⟩
    rw [hlog] at hinstalls
    cases hcls : obj.cls with
    | loggerMock => rfl
    | disableLogs =>
      rw [hcls] at hinstalls
      cases hinstalls

/-- Two objects alive are all there are. -/
theorem SingleInstances.two {cls' cls'' : LogClass} {k : ℕ} (h : SingleInstances w)
    (hi : w.Lives i cls) (hj : w.Lives j cls') (hk : w.Lives k cls'') (hne : i ≠ j) :
    k = i ∨ k = j := by
  have hcls : cls ≠ cls' := by
    rintro rfl
    exact hne (h.unique i j cls hi hj)
  cases cls <;> cases cls' <;> cases cls'' <;>
    first
      | exact absurd rfl hcls
      | exact Or.inl (h.unique k i _ hk hi)
      | exact Or.inr (h.unique k j _ hk hj)

/-- With two objects alive, every other is gone. -/
theorem SingleInstances.gone {obj' : LogObject} {k : ℕ} (h : SingleInstances w)
    (hobj : w.objects.get? i = some obj) (hobj' : w.objects.get? j = some obj') (hne : i ≠ j)
    (hki : k ≠ i) (hkj : k ≠ j) : w.objects.get? k = none := by
  cases hk : w.objects.get? k with
  | none => rfl
  | some obj'' =>
    have htwo := h.two ⟨obj, hobj, rfl⟩ ⟨obj', hobj', rfl⟩ ⟨obj'', hk, rfl⟩ hne
    exact absurd htwo (by simp [hki, hkj])

/-- Of two objects, the younger saved what the older had installed. -/
theorem Scoped.saved {obj' : LogObject} (h : Scoped H w) (hsingle : SingleInstances w)
    (hobj : w.objects.get? i = some obj) (hobj' : w.objects.get? j = some obj') (hij : i < j) :
    obj'.origLogHandler = obj.cls.installs := by
  have hgone : ∀ k, k ≠ i → k ≠ j → w.objects.get? k = none :=
    fun k => hsingle.gone hobj hobj' (by omega)
  have hyounger := ObjectStore.living_of_youngest hobj' fun k hk => hgone k (by omega) (by omega)
  have hrest : ∀ k, i < k → (w.objects.free j).get? k = none := by
    intro k hk
    rw [ObjectStore.get?_free]
    split
    · rfl
    · next hkj => exact hgone k (by omega) hkj
  have holder := ObjectStore.living_of_youngest (i := i) (a := obj)
    (by rw [ObjectStore.get?_free, if_neg (by omega), hobj]) hrest
  rw [Scoped, hyounger, holder] at h
  exact h.inner_saved

/-- Of two objects, the older destroyed before the younger: none is left, and the handler is the one
that the older had installed. -/
theorem Scoped.overlap {obj' : LogObject} (h : Scoped H w) (hsingle : SingleInstances w)
    (hobj : w.objects.get? i = some obj) (hobj' : w.objects.get? j = some obj') (hij : i < j) :
    ∃ v, Runs.run LogWorld.step w [.destroy i, .destroy j] = some v ∧
      (∀ k, v.objects.get? k = none) ∧ v.outputHandler = obj.cls.installs := by
  obtain ⟨u, hu⟩ : ∃ u, w.destroy i = some u := ⟨_, destroy_eq_some_iff.mpr ⟨obj, hobj, rfl⟩⟩
  have hobjects : u.objects = w.objects.free i := by
    obtain ⟨-, -, rfl⟩ := destroy_eq_some_iff.mp hu
    rfl
  have hleft : u.objects.get? j = some obj' := by
    rw [hobjects, ObjectStore.get?_free, if_neg (by omega), hobj']
  obtain ⟨v, hv⟩ : ∃ v, u.destroy j = some v := ⟨_, destroy_eq_some_iff.mpr ⟨obj', hleft, rfl⟩⟩
  refine ⟨v, ?_, fun k => ?_, ?_⟩
  · simp only [Runs.run_cons, Runs.run_nil, LogWorld.step, hu, hv, Option.bind_some]
  · obtain ⟨-, -, rfl⟩ := destroy_eq_some_iff.mp hv
    show (u.objects.free j).get? k = none
    rw [hobjects, ObjectStore.get?_free, ObjectStore.get?_free]
    split
    · rfl
    · split
      · rfl
      · next hkj hki => exact hsingle.gone hobj hobj' (by omega) hki hkj
  · obtain ⟨obj'', hobj'', rfl⟩ := destroy_eq_some_iff.mp hv
    obtain rfl : obj' = obj'' := Option.some.inj (hleft.symm.trans hobj'')
    exact h.saved hsingle hobj hobj' hij

end LogWorld

open LogWorld

/-- Over the run, the handler of the start is back whenever no object is alive, `logHandler` is
installed only while a mock is alive, and to construct a second object of a class throws and
changes nothing. -/
structure HandlersRestored (H : Option Handler) (ops : List LogOp) : Prop where
  restored : Runs.Always step
    (fun w => (∀ i, w.objects.get? i = none) → w.outputHandler = H) (start H) ops
  mocked : Runs.Always step
    (fun w => w.outputHandler = some .logHandler → ∃ i, w.Lives i .loggerMock) (start H) ops
  refused : Runs.EachStep step (fun w op => ∀ cls, op = .construct cls →
    (∃ i, w.Lives i cls) → ∃ e, w.construct cls = (.error e, w)) (start H) ops

/-- **Log handlers are restored where lifetimes nest.** From any handler but `logHandler` itself, a
run that destroys no object while one constructed after it is alive restores the handlers. Where
two objects are alive after such a run, destroying the older one first does not, unless what it
installs is the handler of the start. -/
theorem handlers_restored {H : Option Handler} (hH : H ≠ some .logHandler) {ops : List LogOp}
    {w : LogWorld} (hrun : Runs.run step (start H) ops = some w)
    (hinner : Runs.EachStep step Innermost (start H) ops) :
    HandlersRestored H ops ∧
    ∀ i j obj, w.objects.get? i = some obj → i < j → w.objects.alive j = true →
      obj.cls.installs ≠ H →
        ∃ v, Runs.run step (start H) (ops ++ [.destroy i, .destroy j]) = some v ∧
          ¬ HandlersRestored H (ops ++ [.destroy i, .destroy j]) := by
  have hscoped := scoped_always hinner
  refine ⟨⟨hscoped.mono fun w h => h.restored, hscoped.mono fun w h => h.mocked hH, ?_⟩, ?_⟩
  · intro pre op v hpre hv cls _ hlives
    exact ⟨_, construct_refused (((singleInstances_run hv).flag cls).mpr hlives)⟩
  · intro i j obj hobj hij halive hne
    obtain ⟨obj', hobj'⟩ := ObjectStore.alive_iff.mp halive
    obtain ⟨v, hv, hnone, hhandler⟩ :=
      Scoped.overlap (hscoped.last hrun) (singleInstances_run hrun) hobj hobj' hij
    have hrunv : Runs.run step (start H) (ops ++ [.destroy i, .destroy j]) = some v := by
      rw [Runs.run_append, hrun, Option.bind_some, hv]
    refine ⟨v, hrunv, fun h => hne ?_⟩
    rw [← hhandler]
    exact h.restored.last hrunv hnone

/-- Logs are disabled within the lifetime of a mock, and then a mock is made while they are. -/
def nested : List LogOp :=
  [.construct .loggerMock, .construct .disableLogs, .destroy 1, .destroy 0,
    .construct .disableLogs, .construct .loggerMock]

theorem innermost_nested : Runs.EachStep step Innermost (start (some (.other 0))) nested := by
  rw [Runs.eachStep_iff_getElem]
  intro n op w hop hw i hi j hij
  subst hi
  -- the third step and the fourth destroy
  rcases n with _ | _ | _ | _ | _ | _ | n
  case succ.succ.zero =>
    cases hop
    cases hw
    exact ObjectStore.get?_eq_none_of_next_le hij
  case succ.succ.succ.zero =>
    cases hop
    cases hw
    rcases j with _ | _ | j
    · cases hij
    · rfl
    · rfl
  all_goals cases hop

/-- To destroy the older of the two objects alive first does not restore the handler. -/
theorem handlers_restored_two :
    HandlersRestored (some (.other 0)) nested ∧
    ∃ v, Runs.run step (start (some (.other 0))) (nested ++ [.destroy 2, .destroy 3]) = some v ∧
      ¬ HandlersRestored (some (.other 0)) (nested ++ [.destroy 2, .destroy 3]) := by
  have h := handlers_restored (H := some (.other 0)) (by decide) rfl innermost_nested
  exact ⟨h.1, h.2 2 3 _ rfl (by decide) rfl (by decide)⟩

/-- A mock, then the logs disabled, and both destroyed in that order: `logHandler` is left installed
and there is no mock. -/
theorem overlapping_not_restored :
    ¬ HandlersRestored (some (.other 0))
      [.construct .loggerMock, .construct .disableLogs, .destroy 0, .destroy 1] ∧
    ∃ w, Runs.run step (start (some (.other 0)))
        [.construct .loggerMock, .construct .disableLogs, .destroy 0, .destroy 1] = some w ∧
      w.outputHandler = some .logHandler ∧ w.instance_ = none := by
  refine ⟨fun h => ?_, _, rfl, rfl, rfl⟩
  have hlast := h.restored.last rfl fun i => by
    rcases i with _ | _ | i <;> rfl
  exact absurd hlast (by decide)

end Rtest
