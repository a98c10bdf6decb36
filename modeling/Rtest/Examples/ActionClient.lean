import Rtest.Foundations.Runs
import Rtest.Action.Client
import Rtest.Examples.ActionServer

/-!
# The active goal of an action client

The node `ActionClient` keeps one handle, that of its active goal. It is written when a goal is
sent and by callbacks, which come in any order and for any goal; while the node waits for the
answer to a goal it sends, they come in between.

## Main definitions

- `ActionClientNode` — the node and its callbacks
- `GoalSession.step` — a test of the node, and which of its goals run
- `GoalSession.OnTarget` — the node's active goal is the one handed over last of those that run

## Main results

- `GoalSession.onTarget_iff` — when it is, all along a run
-/

namespace Rtest

structure ActionClientNode (F : Type) where
  currentGoalHandle : Option HandleRef
  lastResultSuccess : Bool
  lastResultMessage : String
  lastFeedback : MoveFeedback F
  feedbackReceived : Bool
  deriving DecidableEq

namespace ActionClientNode

variable {F : Type}

/-- A node just constructed, with the feedback that holds the default values. -/
def construct (feedback : MoveFeedback F) : ActionClientNode F := ⟨none, false, "", feedback, false⟩

/-- The rest of `send_goal` once the wait for the future is over; `none` if it timed out. -/
def sendReturned (reply : Option (Option HandleRef)) (n : ActionClientNode F) :
    ActionClientNode F :=
  match reply with
  | none => n
  | some handle => { n with currentGoalHandle := handle }

/-- The handle `async_cancel_goal` is called with, if it is called. -/
def cancelCurrentGoal (n : ActionClientNode F) : Option HandleRef := n.currentGoalHandle

def goalResponseCallback (goalHandle : Option HandleRef) (n : ActionClientNode F) :
    ActionClientNode F :=
  match goalHandle with
  | none => { n with currentGoalHandle := none }
  | some h => { n with currentGoalHandle := some h }

def feedbackCallback (feedback : MoveFeedback F) (n : ActionClientNode F) : ActionClientNode F :=
  { n with lastFeedback := feedback, feedbackReceived := true }

/-- `result_callback`. A success without a result is dereferenced, for which the model has
`none`. -/
def resultCallback (result : WrappedResult (MoveResult F)) (n : ActionClientNode F) :
    Option (ActionClientNode F) :=
  let n := { n with currentGoalHandle := none }
  match result.code with
  | .succeeded =>
    result.result.map fun r =>
      { n with lastResultSuccess := r.success, lastResultMessage := r.message }
  | .aborted => some { n with lastResultSuccess := false, lastResultMessage := "Goal aborted" }
  | .canceled => some { n with lastResultSuccess := false, lastResultMessage := "Goal canceled" }
  | .unknown =>
    some { n with lastResultSuccess := false, lastResultMessage := "Unknown result code" }

/-- Whatever the result, and whosever it is, no goal is active after it. -/
theorem currentGoalHandle_of_resultCallback {result : WrappedResult (MoveResult F)}
    {n n' : ActionClientNode F} (h : n.resultCallback result = some n') :
    n'.currentGoalHandle = none := by
  obtain ⟨code, result, goalId⟩ := result
  cases code with
  | succeeded =>
    obtain ⟨r, -, rfl⟩ := Option.map_eq_some_iff.mp h
    rfl
  | _ =>
    cases h
    rfl

end ActionClientNode

/-- What a test does with the node, and the callbacks. -/
inductive ActionClientEvent (F : Type) where
  | sendGoal (ready : Bool)
  | sendReturns (reply : Option (Option HandleRef))
  | cancelCurrentGoal
  | goalResponse (goalHandle : Option HandleRef)
  | feedback (feedback : MoveFeedback F)
  | result (h : HandleRef) (result : WrappedResult (MoveResult F))

/-- A test of the node: whether a goal is being sent, the goals that run, the one the node was handed
last first, those that have ended, and those the node has asked to cancel. -/
structure GoalSession (F : Type) where
  node : ActionClientNode F
  sending : Bool
  running : List HandleRef
  ended : List HandleRef
  canceled : List HandleRef

namespace GoalSession

variable {F : Type}

def start (node : ActionClientNode F) : GoalSession F := ⟨node, false, [], [], []⟩

/-- The node is handed an accepted goal, by its callback or as `send_goal` returns, unless it has a
null pointer instead; a goal that has ended does not run again. -/
def accept (goalHandle : Option HandleRef) (s : GoalSession F) : GoalSession F :=
  match goalHandle with
  | none => s
  | some h =>
    if h ∈ s.ended then s else { s with running := h :: s.running.filter fun h' => h' ≠ h }

/-- `send_goal` is called and returns; callbacks come at any time. -/
def step (s : GoalSession F) : ActionClientEvent F → Option (GoalSession F)
  | .sendGoal ready => if s.sending then none else some { s with sending := ready }
  | .sendReturns reply =>
    if s.sending then
      some ({ s with sending := false, node := s.node.sendReturned reply }.accept reply.join)
    else none
  | .cancelCurrentGoal =>
    if s.sending then none
    else some { s with canceled := s.canceled ++ s.node.cancelCurrentGoal.toList }
  | .goalResponse goalHandle =>
    some ({ s with node := s.node.goalResponseCallback goalHandle }.accept goalHandle)
  | .feedback feedback => some { s with node := s.node.feedbackCallback feedback }
  | .result h result => (s.node.resultCallback result).map fun node =>
    { s with node := node, running := s.running.filter fun h' => h' ≠ h, ended := h :: s.ended }

/-- The node's active goal is the one it was handed last of those that run; it has none if none
runs. -/
def OnTarget (s : GoalSession F) : Prop := s.node.currentGoalHandle = s.running.head?

/-- No goal that runs has ended. -/
def Inv (s : GoalSession F) : Prop := ∀ h ∈ s.running, h ∉ s.ended

/-- A goal is rejected, and a result comes, while no other goal runs; the result of a goal does not
come before its acceptance. -/
def OneByOne (s : GoalSession F) : ActionClientEvent F → Prop
  | .sendReturns (some (some h)) | .goalResponse (some h) => h ∉ s.ended
  | .sendReturns (some none) | .goalResponse none => s.running = []
  | .result h _ => ∀ h' ∈ s.running, h' = h
  | _ => True

variable {s s' : GoalSession F} {ev : ActionClientEvent F} {goalHandle : Option HandleRef}

theorem inv_accept (h : Inv s) : Inv (s.accept goalHandle) := by
  cases goalHandle with
  | none => exact h
  | some g =>
    rw [accept]
    split
    · exact h
    · next hg =>
      intro g' hg'
      obtain rfl | hg' := List.mem_cons.mp hg'
      · exact hg
      · exact h g' (List.mem_filter.mp hg').1

theorem Inv.step (h : Inv s) (hs : s.step ev = some s') : Inv s' := by
  cases ev with
  | sendGoal ready =>
    simp only [GoalSession.step] at hs
    split at hs
    · cases hs
    · cases hs
      exact h
  | sendReturns reply =>
    simp only [GoalSession.step] at hs
    split at hs
    · cases hs
      exact inv_accept (s := { s with sending := false, node := s.node.sendReturned reply }) h
    · cases hs
  | cancelCurrentGoal =>
    simp only [GoalSession.step] at hs
    split at hs
    · cases hs
    · cases hs
      exact h
  | goalResponse goalHandle =>
    cases hs
    exact inv_accept (s := { s with node := s.node.goalResponseCallback goalHandle }) h
  | feedback feedback =>
    cases hs
    exact h
  | result g result =>
    obtain ⟨node, -, rfl⟩ := Option.map_eq_some_iff.mp hs
    intro g' hg'
    obtain ⟨hmem, hne⟩ := List.mem_filter.mp hg'
    rw [List.mem_cons, not_or]
    exact ⟨of_decide_eq_true hne, h g' hmem⟩

/-- **An answer** to a goal that was sent. -/
theorem onTarget_accept_iff (hi : Inv s) (goalHandle : Option HandleRef) :
    OnTarget ({ s with node := { s.node with currentGoalHandle := goalHandle } }.accept goalHandle) ↔
      match goalHandle with
      | none => s.running = []
      | some h => h ∉ s.ended := by
  cases goalHandle with
  | none =>
    show none = s.running.head? ↔ s.running = []
    rw [eq_comm, List.head?_eq_none_iff]
  | some h =>
    rw [accept]
    split
    · next hended =>
      -- the node takes a goal for active that has ended
      refine iff_of_false (fun ht => ?_) (not_not.mpr hended)
      have hmem : h ∈ s.running := List.mem_of_mem_head? ht.symm
      exact hi h hmem hended
    · next hended => exact iff_of_true rfl hended

/-- **One step** leaves the node on target exactly when it meets the condition. -/
theorem onTarget_step_iff (hi : Inv s) (h : OnTarget s) (hs : s.step ev = some s') :
    OnTarget s' ↔ OneByOne s ev := by
  cases ev with
  | sendGoal ready =>
    simp only [step] at hs
    split at hs
    · cases hs
    · cases hs
      exact iff_of_true h trivial
  | sendReturns reply =>
    simp only [step] at hs
    split at hs
    · cases hs
      cases reply with
      | none => exact iff_of_true h trivial
      | some goalHandle =>
        have haccept := onTarget_accept_iff (s := { s with sending := false }) hi goalHandle
        cases goalHandle <;> exact haccept
    · cases hs
  | cancelCurrentGoal =>
    simp only [step] at hs
    split at hs
    · cases hs
    · cases hs
      exact iff_of_true h trivial
  | goalResponse goalHandle =>
    cases hs
    have haccept := onTarget_accept_iff hi goalHandle
    cases goalHandle <;> exact haccept
  | feedback feedback =>
    cases hs
    exact iff_of_true h trivial
  | result g result =>
    obtain ⟨node, hnode, rfl⟩ := Option.map_eq_some_iff.mp hs
    show node.currentGoalHandle = (s.running.filter fun h' => h' ≠ g).head? ↔ _
    rw [ActionClientNode.currentGoalHandle_of_resultCallback hnode, eq_comm,
      List.head?_eq_none_iff, List.filter_eq_nil_iff]
    simp [OneByOne]

/-- **When the node knows its active goal.** All along a run the node's active goal is the one it was
handed last of those that run, and so is what it asks to cancel, exactly when goals are rejected
and results come while no other goal runs, and no result comes before the node is handed the
goal. -/
theorem onTarget_iff {node : ActionClientNode F} (hnode : node.currentGoalHandle = none)
    {evs : List (ActionClientEvent F)} (hrun : Runs.run step (start node) evs = some s) :
    Runs.Always step OnTarget (start node) evs ↔ Runs.EachStep step OneByOne (start node) evs :=
  Runs.always_iff_eachStep (fun _ _ _ hi hs => hi.step hs) (fun _ _ h => h)
    (fun _ _ _ hi h hc hs => (onTarget_step_iff hi h hs).mpr hc)
    (fun _ _ _ hi h hs h' => (onTarget_step_iff hi h hs).mp h')
    (fun _ hmem => absurd hmem List.not_mem_nil) hnode hrun

/-- The result of the first goal comes while the second runs: the node has nothing to cancel. -/
def overtaken : List (ActionClientEvent ℕ) :=
  [.sendGoal true, .sendReturns (some (some 0)), .sendGoal true, .sendReturns (some (some 1)),
    .result 0 ⟨.succeeded, some ⟨true, 2, 3, "Target reached"⟩, Vector.replicate 16 0⟩,
    .cancelCurrentGoal]

theorem onTarget_overtaken :
    (Runs.Always step OnTarget (start (.construct ⟨0, 0, 0⟩)) overtaken ↔
      Runs.EachStep step OneByOne (start (.construct ⟨0, 0, 0⟩)) overtaken) ∧
      Runs.run step (start (.construct ⟨0, 0, 0⟩)) overtaken =
        some ⟨⟨none, true, "Target reached", ⟨0, 0, 0⟩, false⟩, false, [1], [0], []⟩ :=
  ⟨onTarget_iff rfl rfl, rfl⟩

end GoalSession

end Rtest
