import Mathlib.Data.Vector.Basic
import Rtest.Foundations.Promise
import Rtest.Foundations.Runs

/-!
# Client goal handles

`ClientGoalHandle` of the mocked action client: the callbacks a goal has, its awareness flags, and
the promise of its result. A result is delivered through the result callback and through the future.

## Main definitions

- `ClientGoalHandle` — the fields and their accessors
- `GoalState` — a handle with the futures handed out and what its callbacks have observed
- `GoalState.resolveResult` — the callback first, then the promise
- `HandleOp`, `GoalState.apply` — the calls on a handle
-/

namespace Rtest

/-- `rclcpp_action::GoalUUID`, an array of 16 bytes. -/
abbrev GoalUUID := Vector UInt8 16

/-- The possible statuses that an action goal can finish with. -/
inductive ResultCode where
  | unknown
  | succeeded
  | canceled
  | aborted
  deriving DecidableEq, Repr

/-- `result` is a shared pointer to a result of the action. -/
structure WrappedResult (Result : Type) where
  code : ResultCode
  result : Option Result
  goalId : GoalUUID
  deriving DecidableEq

/-- A callback; an empty `std::function` is `none` where one is expected. -/
abbrev CallbackRef := ℕ

/-- `resultPromise` and `resultFuture` are the shared states of the promise and of the future. -/
structure ClientGoalHandle where
  feedbackCallback : Option CallbackRef
  resultCallback : Option CallbackRef
  goalId : GoalUUID
  timeStamp : ℤ
  status : ℤ
  isResultAware : Bool
  resultPromise : ℕ
  resultFuture : ℕ
  deriving DecidableEq

namespace ClientGoalHandle

def getGoalId (h : ClientGoalHandle) : GoalUUID := h.goalId

def getGoalStamp (h : ClientGoalHandle) : ℤ := h.timeStamp

def isFeedbackAware (h : ClientGoalHandle) : Bool := h.feedbackCallback.isSome

/-- `async_get_result`: the future. -/
def asyncGetResult (h : ClientGoalHandle) : ℕ × ClientGoalHandle :=
  (h.resultFuture, { h with isResultAware := true })

/-- `set_result_awareness`, which returns the previous value. -/
def setResultAwareness (aware : Bool) (h : ClientGoalHandle) : Bool × ClientGoalHandle :=
  (h.isResultAware, { h with isResultAware := aware })

/-- `set_result` ignores its argument. -/
def setResult {Result : Type} (_ : WrappedResult Result) (h : ClientGoalHandle) :
    ClientGoalHandle := h

def setResultCallback (cb : Option CallbackRef) (h : ClientGoalHandle) : ClientGoalHandle :=
  { h with resultCallback := cb }

def setFeedbackCallback (cb : Option CallbackRef) (h : ClientGoalHandle) : ClientGoalHandle :=
  { h with feedbackCallback := cb }

def setStatus (status : ℤ) (h : ClientGoalHandle) : ClientGoalHandle := { h with status := status }

def setGoalId (goalId : GoalUUID) (h : ClientGoalHandle) : ClientGoalHandle :=
  { h with goalId := goalId }

def setGoalStamp (stamp : ℤ) (h : ClientGoalHandle) : ClientGoalHandle :=
  { h with timeStamp := stamp }

end ClientGoalHandle

/-- `makeClientGoalHandle`: a handle and the shared state of its promise. -/
def makeClientGoalHandle {α : Type} (states : SharedStates α) :
    ClientGoalHandle × SharedStates α :=
  (⟨none, none, Vector.replicate 16 0, 0, 0, false, states.next, states.next⟩, states.make)

variable {Result : Type}

/-- A handle in use: the states of all promises, the futures the handle has handed out, and the
results its callbacks have observed. -/
structure GoalState (Result : Type) where
  handle : ClientGoalHandle
  states : SharedStates (WrappedResult Result)
  futures : List ℕ
  observed : List (CallbackRef × WrappedResult Result)

/-- What `resolve_result` throws: the exception of the callback, or that of the promise. -/
inductive ResolveError where
  | callback
  | promiseAlreadySatisfied
  deriving DecidableEq, Repr

namespace GoalState

/-- A handle just made. -/
def make (states : SharedStates (WrappedResult Result)) : GoalState Result :=
  ⟨(makeClientGoalHandle states).1, (makeClientGoalHandle states).2, [], []⟩

variable (throws : CallbackRef → WrappedResult Result → Bool)

/-- `if (result_callback) result_callback(wr)`. -/
def callResultCallback (wr : WrappedResult Result) (s : GoalState Result) :
    Except ResolveError Unit × GoalState Result :=
  match s.handle.resultCallback with
  | none => (.ok (), s)
  | some cb =>
    (if throws cb wr then .error .callback else .ok (),
      { s with observed := s.observed ++ [(cb, wr)] })

/-- `resolve_result`: the callback, then the promise. -/
def resolveResult (wr : WrappedResult Result) (s : GoalState Result) :
    Except ResolveError Unit × GoalState Result :=
  match callResultCallback throws wr s with
  | (.error e, s) => (.error e, s)
  | (.ok (), s) =>
    match s.states.setValue s.handle.resultPromise wr with
    | none => (.error .promiseAlreadySatisfied, s)
    | some states => (.ok (), { s with states := states })

/-- `ActionClientMock::simulate_result`, with this handle or with a null pointer. -/
def simulateResult (isNull : Bool) (wr : WrappedResult Result) (s : GoalState Result) :
    Except ResolveError Unit × GoalState Result :=
  if isNull then (.ok (), s) else s.resolveResult throws wr

end GoalState

/-- A call on a handle. -/
inductive HandleOp (Result : Type) where
  | setResultCallback (cb : Option CallbackRef)
  | setFeedbackCallback (cb : Option CallbackRef)
  | setResultAwareness (aware : Bool)
  | setResult (wr : WrappedResult Result)
  | setStatus (status : ℤ)
  | setGoalId (goalId : GoalUUID)
  | setGoalStamp (stamp : ℤ)
  | asyncGetResult
  | resolveResult (wr : WrappedResult Result)
  | simulateResult (isNull : Bool) (wr : WrappedResult Result)
  deriving DecidableEq

/-- The result a call resolves the handle with. -/
def HandleOp.resolves : HandleOp Result → Option (WrappedResult Result)
  | .resolveResult wr => some wr
  | .simulateResult isNull wr => if isNull then none else some wr
  | _ => none

namespace GoalState

variable (throws : CallbackRef → WrappedResult Result → Bool)

/-- A call on the handle that returns, or throws and leaves the state it reached. -/
def apply (s : GoalState Result) : HandleOp Result → Except ResolveError Unit × GoalState Result
  | .setResultCallback cb => (.ok (), { s with handle := s.handle.setResultCallback cb })
  | .setFeedbackCallback cb => (.ok (), { s with handle := s.handle.setFeedbackCallback cb })
  | .setResultAwareness aware =>
    (.ok (), { s with handle := (s.handle.setResultAwareness aware).2 })
  | .setResult wr => (.ok (), { s with handle := s.handle.setResult wr })
  | .setStatus status => (.ok (), { s with handle := s.handle.setStatus status })
  | .setGoalId goalId => (.ok (), { s with handle := s.handle.setGoalId goalId })
  | .setGoalStamp stamp => (.ok (), { s with handle := s.handle.setGoalStamp stamp })
  | .asyncGetResult =>
    let (future, handle) := s.handle.asyncGetResult
    (.ok (), { s with handle := handle, futures := s.futures ++ [future] })
  | .resolveResult wr => s.resolveResult throws wr
  | .simulateResult isNull wr => s.simulateResult throws isNull wr

/-- A call as a step of a run, whether or not it throws. -/
def step (s : GoalState Result) (op : HandleOp Result) : Option (GoalState Result) :=
  some (s.apply throws op).2

variable {throws} {s w w' : GoalState Result} {wr : WrappedResult Result} {op : HandleOp Result}

-- ════════════════════════════════════════════════════════════════════════
-- What one call does
-- ════════════════════════════════════════════════════════════════════════

/-- With a callback that throws, the promise is not reached. -/
theorem resolveResult_throws {cb : CallbackRef} (hcb : s.handle.resultCallback = some cb)
    (h : throws cb wr = true) : s.resolveResult throws wr =
      (.error .callback, { s with observed := s.observed ++ [(cb, wr)] }) := by
  simp [resolveResult, callResultCallback, hcb, h]

/-- What has been observed once the callback has returned. -/
def afterCallback (s : GoalState Result) (wr : WrappedResult Result) : GoalState Result :=
  { s with observed := s.observed ++ s.handle.resultCallback.toList.map fun cb => (cb, wr) }

/-- Where no callback throws, the outcome is that of the promise. -/
theorem resolveResult_returns (h : ∀ cb, s.handle.resultCallback = some cb → throws cb wr = false) :
    s.resolveResult throws wr =
      match s.states.setValue s.handle.resultPromise wr with
      | none => (.error .promiseAlreadySatisfied, s.afterCallback wr)
      | some states => (.ok (), { s.afterCallback wr with states := states }) := by
  cases hcb : s.handle.resultCallback with
  | none => simp [resolveResult, callResultCallback, afterCallback, hcb]
  | some cb =>
    simp only [resolveResult, callResultCallback, afterCallback, hcb, h cb hcb,
      Bool.false_eq_true, if_false, Option.toList_some, List.map_cons, List.map_nil]

/-- A call that resolves the handle is a `resolve_result`. -/
theorem apply_of_resolves (h : op.resolves = some wr) :
    s.apply throws op = s.resolveResult throws wr := by
  cases op with
  | resolveResult wr' =>
    cases h
    rfl
  | simulateResult isNull wr' =>
    cases isNull with
    | true => cases h
    | false =>
      cases h
      rfl
  | _ => cases h

/-- Any other call leaves promises and observations alone, and hands out no future but the
handle's. -/
theorem apply_of_not_resolves (throws : CallbackRef → WrappedResult Result → Bool)
    (s : GoalState Result) (h : op.resolves = none) :
    (s.apply throws op).2.states = s.states ∧ (s.apply throws op).2.observed = s.observed ∧
      (s.apply throws op).2.handle.resultPromise = s.handle.resultPromise ∧
      (s.apply throws op).2.handle.resultFuture = s.handle.resultFuture ∧
      ∀ f ∈ (s.apply throws op).2.futures, f ∈ s.futures ∨ f = s.handle.resultFuture := by
  cases op with
  | resolveResult wr' => cases h
  | simulateResult isNull wr' =>
    cases isNull with
    | true => exact ⟨rfl, rfl, rfl, rfl, fun f hf => Or.inl hf⟩
    | false => cases h
  | asyncGetResult =>
    refine ⟨rfl, rfl, rfl, rfl, fun f hf => ?_⟩
    rcases List.mem_append.mp hf with hf | hf
    · exact Or.inl hf
    · exact Or.inr (List.mem_singleton.mp hf)
  | _ => exact ⟨rfl, rfl, rfl, rfl, fun f hf => Or.inl hf⟩

end GoalState

end Rtest
