import Rtest.Action.GoalHandle
import Rtest.Foundations.ObjectStore

/-!
# The action client

The client's side of an action: its calls go to the mock attached to it, and without one they answer
for themselves. `stop_callbacks` has two overloads; the one that takes a goal id looks the handle up
in a table of the client's, `goal_handles_`, in which no function of the client puts anything.

## Main definitions

- `ClientWorld` — the client's table, its mock, and the goal handles alive
- `ClientWorld.stopCallbacks`, `ClientWorld.stopCallbacksById` — the two overloads
- `ClientOp`, `ClientWorld.step` — the calls of the client, and what others do to handles
- `ClientWorld.StopsAlike` — stopping by id does what stopping by handle does
-/

namespace Rtest

variable {Result : Type}

/-- The goal handle built as the `i`-th. -/
abbrev HandleRef := ℕ

/-- `mock` tells whether a mock is attached, `delivered` lists the handles that futures of
`async_send_goal` have delivered. -/
structure ClientWorld (Result : Type) where
  goalHandles : List (GoalUUID × WeakPtr)
  mock : Bool
  handles : ObjectStore ClientGoalHandle
  states : SharedStates (WrappedResult Result)
  delivered : List HandleRef

namespace ClientWorld

/-- A client just constructed. -/
def construct (handles : ObjectStore ClientGoalHandle)
    (states : SharedStates (WrappedResult Result)) : ClientWorld Result :=
  ⟨[], false, handles, states, []⟩

/-- `goal_handles_.find(goal_id)`. -/
def findGoalHandle (w : ClientWorld Result) (goalId : GoalUUID) : Option WeakPtr :=
  w.goalHandles.lookup goalId

/-- `goal_handles_.erase(it)`, for an iterator that was found. -/
def eraseGoalHandle (w : ClientWorld Result) (goalId : GoalUUID) : ClientWorld Result :=
  { w with goalHandles := w.goalHandles.filter fun entry => entry.1 != goalId }

/-- What a call that the mock may answer returns. -/
inductive Answer (α : Type) where
  | ofMock (answer : α)
  | ofClient (answer : α)
  deriving DecidableEq, Repr

/-- `async_send_goal`; `reply` is what the mock's method returns, a future of a goal handle that may
be null or an invalid future. The goal is rejected by default. -/
def asyncSendGoal (reply : Option (Option HandleRef)) (w : ClientWorld Result) :
    Answer (Option HandleRef) :=
  if w.mock then
    match reply with
    | some handle => .ofMock handle
    | none => .ofClient none
  else .ofClient none

/-- `async_get_result` stores the callback in the handle, mock or no mock; without one the result is
a success at once. -/
def asyncGetResult (h : HandleRef) (cb : Option CallbackRef) (reply : ResultCode)
    (w : ClientWorld Result) : Answer ResultCode × ClientWorld Result :=
  let w := match cb with
    | none => w
    | some cb => { w with handles := w.handles.modify h (·.setResultCallback (some cb)) }
  (if w.mock then .ofMock reply else .ofClient .succeeded, w)

/-- The requests to cancel go to the mock, or are answered with an empty response; the client keeps
nothing of them. -/
def cancelRequest (w : ClientWorld Result) : Answer Unit × ClientWorld Result :=
  (if w.mock then .ofMock () else .ofClient (), w)

def asyncCancelAllGoals (w : ClientWorld Result) : Answer Unit × ClientWorld Result :=
  w.cancelRequest

def asyncCancelGoal (_ : Option HandleRef) (w : ClientWorld Result) :
    Answer Unit × ClientWorld Result := w.cancelRequest

def asyncCancelGoalsBefore (_ : ℤ) (w : ClientWorld Result) : Answer Unit × ClientWorld Result :=
  w.cancelRequest

/-- `stop_callbacks` of a handle: clear its callbacks and drop its entry in the table. A null handle
is dereferenced, for which the model has `none`. -/
def stopCallbacks (h : Option HandleRef) (w : ClientWorld Result) : Option (ClientWorld Result) :=
  if w.mock then some w
  else
    match h with
    | none => none
    | some h =>
      let w := { w with
        handles := w.handles.modify h fun handle =>
          (handle.setFeedbackCallback none).setResultCallback none }
      match w.handles.get? h with
      | none => none
      | some handle =>
        match w.findGoalHandle handle.getGoalId with
        | none => some w
        | some _ => some (w.eraseGoalHandle handle.getGoalId)

/-- `stop_callbacks` of a goal id: that of the handle found in the table, if it is alive. -/
def stopCallbacksById (goalId : GoalUUID) (w : ClientWorld Result) :
    Option (ClientWorld Result) :=
  if w.mock then some w
  else
    match (w.findGoalHandle goalId).bind w.handles.lock with
    | none => some w
    | some h => w.stopCallbacks (some h)

end ClientWorld

/-- A call of the client, the attaching and detaching of a mock, and what others do to handles: make
one, change its fields, and let go of it. -/
inductive ClientOp where
  | attachMock
  | detachMock
  | makeClientGoalHandle
  | edit (h : HandleRef) (handle : ClientGoalHandle)
  | release (h : HandleRef)
  | asyncSendGoal (reply : Option (Option HandleRef))
  | asyncGetResult (h : HandleRef) (cb : Option CallbackRef) (reply : ResultCode)
  | asyncCancelAllGoals
  | asyncCancelGoal (h : Option HandleRef)
  | asyncCancelGoalsBefore (stamp : ℤ)
  | stopCallbacks (h : Option HandleRef)
  | stopCallbacksById (goalId : GoalUUID)
  deriving DecidableEq

namespace ClientWorld

/-- One step; `none` where a handle is named that does not live, or a null one is dereferenced. -/
def step (w : ClientWorld Result) : ClientOp → Option (ClientWorld Result)
  | .attachMock => some { w with mock := true }
  | .detachMock => some { w with mock := false }
  | .makeClientGoalHandle =>
    let (handle, states) := Rtest.makeClientGoalHandle w.states
    some { w with handles := w.handles.alloc handle, states := states }
  | .edit h handle =>
    if w.handles.alive h then some { w with handles := w.handles.modify h fun _ => handle }
    else none
  | .release h => some { w with handles := w.handles.free h }
  | .asyncSendGoal reply =>
    match w.asyncSendGoal reply with
    | .ofMock (some h) =>
      if w.handles.alive h then some { w with delivered := w.delivered ++ [h] } else none
    | _ => some w
  | .asyncGetResult h cb reply =>
    if w.handles.alive h then some (w.asyncGetResult h cb reply).2 else none
  | .asyncCancelAllGoals => some w.asyncCancelAllGoals.2
  | .asyncCancelGoal h => some (w.asyncCancelGoal h).2
  | .asyncCancelGoalsBefore stamp => some (w.asyncCancelGoalsBefore stamp).2
  | .stopCallbacks h => w.stopCallbacks h
  | .stopCallbacksById goalId => w.stopCallbacksById goalId

variable {w w' : ClientWorld Result} {h : HandleRef} {handle : ClientGoalHandle} {op : ClientOp}

/-- A handle whose callbacks are cleared. -/
def cleared (handle : ClientGoalHandle) : ClientGoalHandle :=
  (handle.setFeedbackCallback none).setResultCallback none

/-- Stopping by the id of the handle leaves what stopping by the handle does: its callbacks cleared
and no other handle changed. -/
structure StopsAlike (w : ClientWorld Result) (h : HandleRef) (handle : ClientGoalHandle) :
    Prop where
  same : w.stopCallbacksById handle.getGoalId = w.stopCallbacks (some h)
  clears : ∃ w', w.stopCallbacksById handle.getGoalId = some w' ∧
    w'.handles.get? h = some (cleared handle) ∧
    ∀ h', h' ≠ h → w'.handles.get? h' = w.handles.get? h'

theorem cleared_eq_self_iff : cleared handle = handle ↔
    handle.feedbackCallback = none ∧ handle.resultCallback = none := by
  constructor
  · intro heq
    rw [← heq]
    exact ⟨rfl, rfl⟩
  · rintro ⟨hfeedback, hresult⟩
    cases handle
    cases hfeedback
    cases hresult
    rfl

-- ════════════════════════════════════════════════════════════════════════
-- The table stays empty
-- ════════════════════════════════════════════════════════════════════════

/-- Nothing is found in an empty table, so `stop_callbacks` of a handle only clears it. -/
theorem stopCallbacks_of_empty (htable : w.goalHandles = []) (hmock : w.mock = false)
    (hlive : w.handles.get? h = some handle) :
    w.stopCallbacks (some h) = some { w with handles := w.handles.modify h cleared } := by
  have hget : (w.handles.modify h cleared).get? h = some (cleared handle) := by
    rw [ObjectStore.get?_modify, if_pos rfl, hlive, Option.map_some]
  have hmock' : ¬ w.mock = true := Bool.eq_false_iff.mp hmock
  show (if w.mock = true then _ else _) = _
  rw [if_neg hmock']
  show (match (w.handles.modify h cleared).get? h with | none => none | some handle => _) = _
  rw [hget]
  simp only [findGoalHandle, htable, List.lookup_nil]
  rfl

/-- Nothing is found in an empty table, so `stop_callbacks` of an id does nothing. -/
theorem stopCallbacksById_of_empty (htable : w.goalHandles = []) (goalId : GoalUUID) :
    w.stopCallbacksById goalId = some w := by
  simp [stopCallbacksById, findGoalHandle, htable]

theorem stopCallbacks_table (htable : w.goalHandles = []) {h : Option HandleRef}
    (hstop : w.stopCallbacks h = some w') : w'.goalHandles = [] := by
  simp only [stopCallbacks] at hstop
  split at hstop
  · cases hstop
    exact htable
  · split at hstop
    · cases hstop
    · split at hstop
      · cases hstop
      · simp only [findGoalHandle, htable, List.lookup_nil] at hstop
        cases hstop
        rfl

/-- **One step.** No call puts a goal handle in the table. -/
theorem step_table (htable : w.goalHandles = []) (hstep : w.step op = some w') :
    w'.goalHandles = [] := by
  cases op with
  | edit h handle =>
    simp only [step] at hstep
    split at hstep <;> cases hstep
    exact htable
  | asyncSendGoal reply =>
    simp only [step] at hstep
    split at hstep
    · split at hstep <;> cases hstep
      exact htable
    · cases hstep
      exact htable
  | asyncGetResult h cb reply =>
    simp only [step] at hstep
    split at hstep <;> cases hstep
    cases cb <;> exact htable
  | stopCallbacks h => exact stopCallbacks_table htable hstep
  | stopCallbacksById goalId =>
    rw [step, stopCallbacksById_of_empty htable] at hstep
    cases hstep
    exact htable
  | _ =>
    cases hstep
    exact htable

end ClientWorld

open ClientWorld

/-- **When stopping by id is stopping by handle.** In every state a client comes to, with no mock
attached, `stop_callbacks` of the id of a live handle does what `stop_callbacks` of the handle does
exactly when the handle has no callback to clear. -/
theorem stops_alike_iff {handles : ObjectStore ClientGoalHandle}
    {states : SharedStates (WrappedResult Result)} {ops : List ClientOp} {w : ClientWorld Result}
    {h : HandleRef} {handle : ClientGoalHandle}
    (hrun : Runs.run step (construct handles states) ops = some w) (hmock : w.mock = false)
    (hlive : w.handles.get? h = some handle) :
    StopsAlike w h handle ↔
      handle.feedbackCallback = none ∧ handle.resultCallback = none := by
  have htable : w.goalHandles = [] :=
    Runs.run_invariant (I := fun w => w.goalHandles = []) (fun _ _ _ => step_table) rfl hrun
  have hbyId := stopCallbacksById_of_empty htable handle.getGoalId
  have hbyHandle := stopCallbacks_of_empty htable hmock hlive
  rw [← cleared_eq_self_iff]
  constructor
  · intro halike
    obtain ⟨w', hstop, hcleared, -⟩ := halike.clears
    rw [hbyId, Option.some_inj] at hstop
    subst hstop
    exact Option.some.inj (hcleared.symm.trans hlive)
  · intro hself
    have hsame : w.handles.modify h cleared = w.handles := by
      apply ObjectStore.ext_get?
      · exact ObjectStore.next_modify ..
      · intro h'
        rw [ObjectStore.get?_modify]
        split
        · next heq => rw [heq, hlive, Option.map_some, hself]
        · rfl
    refine ⟨by rw [hbyId, hbyHandle, hsame], w, hbyId, by rw [hlive, hself], fun _ _ => rfl⟩

/-- The mock delivers a handle, the caller asks for its result with a callback, the mock goes. -/
def deliveredRun : List ClientOp :=
  [.attachMock, .makeClientGoalHandle, .asyncSendGoal (some (some 0)),
    .asyncGetResult 0 (some 7) .succeeded, .detachMock]

def deliveredHandle : ClientGoalHandle :=
  ⟨none, some 7, Vector.replicate 16 0, 0, 0, false, 0, 0⟩

def deliveredWorld : ClientWorld ℕ := ⟨[], false, ⟨[some deliveredHandle]⟩, ⟨[none]⟩, [0]⟩

theorem stops_alike_delivered : StopsAlike deliveredWorld 0 deliveredHandle ↔
    deliveredHandle.feedbackCallback = none ∧ deliveredHandle.resultCallback = none :=
  @stops_alike_iff ℕ ⟨[]⟩ SharedStates.empty deliveredRun deliveredWorld 0 deliveredHandle
    rfl rfl rfl

/-- Stopping the delivered handle by its id leaves it with its result callback. -/
theorem delivered_not_stopped :
    Runs.run step (construct ⟨[]⟩ SharedStates.empty) deliveredRun = some deliveredWorld ∧
    deliveredWorld.mock = false ∧ 0 ∈ deliveredWorld.delivered ∧
    deliveredWorld.handles.get? 0 = some deliveredHandle ∧
    ¬ StopsAlike deliveredWorld 0 deliveredHandle := by
  refine ⟨rfl, rfl, by decide, rfl, fun halike => ?_⟩
  obtain ⟨w', hstop, hcleared, -⟩ := halike.clears
  obtain rfl : deliveredWorld = w' := Option.some.inj hstop
  exact absurd hcleared (by decide)

end Rtest
