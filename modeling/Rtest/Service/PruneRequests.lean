import Rtest.Foundations.BufferWrites
import Rtest.Registry.World

/-!
# Pruning the requests of a service client

`prune_requests_older_than` forwards to the mock of the client. A vector with the standard allocator
is passed on to the mock; for one with another allocator the mock gets a vector of its own, whose
content is appended to the caller's when the mock has returned. What the caller sees is the same
where the mock's action extends the vector it is handed, as the function of rclcpp that prunes a
client's pending requests does.

## Main definitions

- `PruneAction` — what a mock does when asked to prune
- `World.pruneRequestsOlderThan` — the call of the client
- `World.SameEffect` — the call does the same with either allocator
- `pruneRequestsOlderThanImpl` — the pruning of a client's pending requests
-/

namespace Rtest

/-- A time point of `std::chrono::system_clock`. -/
abbrev SystemTime := ℤ

abbrev RequestId := Int64

/-- The allocator of a vector of request ids: `std::allocator<int64_t>`, or one of the others. -/
inductive VectorAllocator where
  | std
  | custom (type : ℕ)
  deriving DecidableEq, Repr

/-- The action of `ServiceClientMock::prune_requests_older_than`: what it does when handed a null
pointer, and when handed a vector. It returns a count or throws. -/
structure PruneAction (ε : Type) where
  onNull : SystemTime → Except ε ℕ
  onVector : SystemTime → BufferM RequestId ε ℕ

variable {ε : Type}

namespace PruneAction

/-- `ServiceClientMock::prune_requests_older_than`: what it returns or throws, and the vector
afterwards. -/
def pruneRequestsOlderThan (action : PruneAction ε) (timePoint : SystemTime) :
    Option (List RequestId) → Except ε ℕ × Option (List RequestId)
  | none => (action.onNull timePoint, none)
  | some vector =>
    let (result, vector) := (action.onVector timePoint).exec vector
    (result, some vector)

@[simp] theorem pruneRequestsOlderThan_null (action : PruneAction ε) (timePoint : SystemTime) :
    action.pruneRequestsOlderThan timePoint none = (action.onNull timePoint, none) := rfl

@[simp] theorem pruneRequestsOlderThan_vector (action : PruneAction ε) (timePoint : SystemTime)
    (vector : List RequestId) :
    action.pruneRequestsOlderThan timePoint (some vector) =
      (((action.onVector timePoint).exec vector).1,
        some ((action.onVector timePoint).exec vector).2) := rfl

/-- The action that performs some commands on the vector and returns a count. -/
def ofScript (commands : List (BufferCommand RequestId ε)) (count : ℕ) : PruneAction ε :=
  ⟨fun _ => .ok count, fun _ => BufferM.script commands count⟩

end PruneAction

namespace World

/-- `Client::prune_requests_older_than` of the client at `this`, where `actions` are the actions of
the mocks. A vector is given by its content, a null pointer is `none`. -/
def pruneRequestsOlderThan (w : World) (actions : MockRef → PruneAction ε) (this : Addr)
    (allocator : VectorAllocator) (timePoint : SystemTime)
    (prunedRequests : Option (List RequestId)) : Except ε ℕ × Option (List RequestId) :=
  match w.attachedMock this with
  | none => (.ok 0, prunedRequests)
  | some mock =>
    let clientMock := actions mock
    match allocator with
    | .std => clientMock.pruneRequestsOlderThan timePoint prunedRequests
    | .custom _ =>
      match prunedRequests with
      | none => clientMock.pruneRequestsOlderThan timePoint none
      | some prior =>
        match (clientMock.onVector timePoint).exec [] with
        | (.ok count, pruned) => (.ok count, some (prior ++ pruned))
        | (.error e, _) => (.error e, some prior)

/-- The ids the mock of the client reports: those it leaves in an empty vector, if it returns. -/
def reportedIds (w : World) (actions : MockRef → PruneAction ε) (this : Addr)
    (timePoint : SystemTime) : List RequestId :=
  match w.attachedMock this with
  | none => []
  | some mock => ((actions mock).onVector timePoint).reported

/-- The calls with the standard allocator and with another one end in the same way and leave the
same content, which is the prior content followed by the reported ids. -/
structure SameEffect (w : World) (actions : MockRef → PruneAction ε) (this : Addr) (type : ℕ)
    (timePoint : SystemTime) (prunedRequests : Option (List RequestId)) : Prop where
  result : (w.pruneRequestsOlderThan actions this .std timePoint prunedRequests).1 =
    (w.pruneRequestsOlderThan actions this (.custom type) timePoint prunedRequests).1
  content : (w.pruneRequestsOlderThan actions this .std timePoint prunedRequests).2 =
    (w.pruneRequestsOlderThan actions this (.custom type) timePoint prunedRequests).2
  appended : (w.pruneRequestsOlderThan actions this .std timePoint prunedRequests).2 =
    prunedRequests.map (· ++ w.reportedIds actions this timePoint)

variable {w : World} {actions : MockRef → PruneAction ε} {this : Addr} {type : ℕ}
  {allocator : VectorAllocator} {timePoint : SystemTime} {prunedRequests : Option (List RequestId)}
  {mock : MockRef}

theorem pruneRequestsOlderThan_of_unattached (h : w.attachedMock this = none) :
    w.pruneRequestsOlderThan actions this allocator timePoint prunedRequests =
      (.ok 0, prunedRequests) := by
  rw [pruneRequestsOlderThan, h]

/-- A vector with the standard allocator goes to the mock. -/
theorem pruneRequestsOlderThan_std (h : w.attachedMock this = some mock) :
    w.pruneRequestsOlderThan actions this .std timePoint prunedRequests =
      (actions mock).pruneRequestsOlderThan timePoint prunedRequests := by
  rw [pruneRequestsOlderThan, h]

/-- With any other allocator the mock's action runs through a scratch vector. -/
theorem pruneRequestsOlderThan_custom (h : w.attachedMock this = some mock) :
    w.pruneRequestsOlderThan actions this (.custom type) timePoint prunedRequests =
      PruneAction.pruneRequestsOlderThan
        ⟨(actions mock).onNull, fun t => ((actions mock).onVector t).throughScratch⟩
        timePoint prunedRequests := by
  rw [pruneRequestsOlderThan, h]
  cases prunedRequests with
  | none => rfl
  | some prior =>
    rw [PruneAction.pruneRequestsOlderThan_vector]
    simp only [BufferM.exec_throughScratch]
    rcases hrun : ((actions mock).onVector timePoint).exec [] with ⟨e | count, pruned⟩
    · rw [BufferM.reported_of_error hrun, List.append_nil]
    · rw [BufferM.reported_of_ok hrun]

theorem reportedIds_of_attached (h : w.attachedMock this = some mock) :
    w.reportedIds actions this timePoint = ((actions mock).onVector timePoint).reported := by
  rw [reportedIds, h]

/-- With any allocator but the standard one, the caller's vector keeps its content and gets the
reported ids, however the mock's action treats the vector it is handed. -/
theorem custom_appended (w : World) (actions : MockRef → PruneAction ε) (this : Addr) (type : ℕ)
    (timePoint : SystemTime) (prunedRequests : Option (List RequestId)) :
    (w.pruneRequestsOlderThan actions this (.custom type) timePoint prunedRequests).2 =
      prunedRequests.map (· ++ w.reportedIds actions this timePoint) := by
  cases hmock : w.attachedMock this with
  | none => simp [pruneRequestsOlderThan_of_unattached hmock, reportedIds, hmock]
  | some mock =>
    rw [pruneRequestsOlderThan_custom hmock, reportedIds_of_attached hmock]
    cases prunedRequests with
    | none => rfl
    | some prior => simp [BufferM.exec_throughScratch]

theorem sameEffect_iff_eq :
    w.SameEffect actions this type timePoint prunedRequests ↔
      w.pruneRequestsOlderThan actions this .std timePoint prunedRequests =
        w.pruneRequestsOlderThan actions this (.custom type) timePoint prunedRequests := by
  constructor
  · intro h
    exact Prod.ext h.result h.content
  · intro h
    exact ⟨congrArg Prod.fst h, congrArg Prod.snd h,
      (congrArg Prod.snd h).trans (custom_appended w actions this type timePoint prunedRequests)⟩

theorem SameEffect.of_unattached (h : w.attachedMock this = none) :
    w.SameEffect actions this type timePoint prunedRequests := by
  rw [sameEffect_iff_eq, pruneRequestsOlderThan_of_unattached h,
    pruneRequestsOlderThan_of_unattached h]

theorem SameEffect.of_null : w.SameEffect actions this type timePoint none := by
  cases hmock : w.attachedMock this with
  | none => exact .of_unattached hmock
  | some mock =>
    rw [sameEffect_iff_eq, pruneRequestsOlderThan_std hmock, pruneRequestsOlderThan_custom hmock]
    rfl

/-- For a vector it comes down to the action's effect on the vector. -/
theorem sameEffect_vector_iff (h : w.attachedMock this = some mock) {prior : List RequestId} :
    w.SameEffect actions this type timePoint (some prior) ↔
      ((actions mock).onVector timePoint).Extends prior := by
  rw [sameEffect_iff_eq, pruneRequestsOlderThan_std h, pruneRequestsOlderThan_custom h,
    PruneAction.pruneRequestsOlderThan_vector, PruneAction.pruneRequestsOlderThan_vector,
    BufferM.exec_throughScratch, BufferM.Extends, Prod.ext_iff, Prod.ext_iff, Option.some_inj]

/-- Only where the mock of the client is handed a vector that its action does not extend do the
allocators differ, and there it is the standard one that does not append the reported ids. -/
theorem prune_appends_iff (w : World) (actions : MockRef → PruneAction ε) (this : Addr) (type : ℕ)
    (timePoint : SystemTime) (prunedRequests : Option (List RequestId)) :
    (w.pruneRequestsOlderThan actions this (.custom type) timePoint prunedRequests).2 =
        prunedRequests.map (· ++ w.reportedIds actions this timePoint) ∧
      (w.SameEffect actions this type timePoint prunedRequests ↔
        ∀ mock prior, w.attachedMock this = some mock → prunedRequests = some prior →
          ((actions mock).onVector timePoint).Extends prior) := by
  refine ⟨custom_appended w actions this type timePoint prunedRequests, ?_⟩
  constructor
  · rintro h mock prior hmock rfl
    exact (sameEffect_vector_iff hmock).mp h
  · intro h
    cases hmock : w.attachedMock this with
    | none => exact .of_unattached hmock
    | some mock =>
      cases prunedRequests with
      | none => exact .of_null
      | some prior => exact (sameEffect_vector_iff hmock).mpr (h mock prior hmock rfl)

/-- A service client with a mock. -/
def mockedClient : List Op :=
  [.createNode ⟨1, 100, "/".toList, "node".toList⟩,
    .createEntity .serviceClient 7 10 0 "/service".toList,
    .find .serviceClient 7 0 "/service".toList]

/-- As `SetArgPointee<1>` and `Return(2)` do. -/
def assignTwo : MockRef → PruneAction String :=
  fun _ => .ofScript [.assign [5, 7]] 2

def appendThenThrow : MockRef → PruneAction String :=
  fun _ => .ofScript [.append [5], .throw "pruning failed"] 0

/-- Ids assigned to a vector that holds one replace it, and an id appended before the mock throws
stays in the vector, with the standard allocator only. -/
theorem mockedClient_differs :
    (Runs.run step init mockedClient).isSome = true ∧
      (after mockedClient).pruneRequestsOlderThan assignTwo 10 .std 0 (some [1]) =
        (.ok 2, some [5, 7]) ∧
      (after mockedClient).pruneRequestsOlderThan assignTwo 10 (.custom 0) 0 (some [1]) =
        (.ok 2, some [1, 5, 7]) ∧
      ¬ (after mockedClient).SameEffect assignTwo 10 0 0 (some [1]) ∧
      (after mockedClient).pruneRequestsOlderThan appendThenThrow 10 .std 0 (some []) =
        (.error "pruning failed", some [5]) ∧
      (after mockedClient).pruneRequestsOlderThan appendThenThrow 10 (.custom 0) 0 (some []) =
        (.error "pruning failed", some []) ∧
      ¬ (after mockedClient).SameEffect appendThenThrow 10 0 0 (some []) := by
  have hmock : (after mockedClient).attachedMock 10 = some 0 := by decide
  have hassigned : (after mockedClient).pruneRequestsOlderThan assignTwo 10 .std 0 (some [1]) =
      (.ok 2, some [5, 7]) := by
    rw [pruneRequestsOlderThan_std hmock]
    rfl
  have happended : (after mockedClient).pruneRequestsOlderThan assignTwo 10 (.custom 0) 0
      (some [1]) = (.ok 2, some [1, 5, 7]) := by
    rw [pruneRequestsOlderThan_custom hmock]
    rfl
  have hkept : (after mockedClient).pruneRequestsOlderThan appendThenThrow 10 .std 0 (some []) =
      (.error "pruning failed", some [5]) := by
    rw [pruneRequestsOlderThan_std hmock]
    rfl
  have hdropped : (after mockedClient).pruneRequestsOlderThan appendThenThrow 10 (.custom 0) 0
      (some []) = (.error "pruning failed", some []) := by
    rw [pruneRequestsOlderThan_custom hmock]
    rfl
  refine ⟨by decide, hassigned, happended, fun h => ?_, hkept, hdropped, fun h => ?_⟩
  · have hcontent := h.content
    rw [hassigned, happended] at hcontent
    exact absurd hcontent (by decide)
  · have hcontent := h.content
    rw [hkept, hdropped] at hcontent
    exact absurd hcontent (by decide)

-- ════════════════════════════════════════════════════════════════════════
-- Actions with the same effect on every vector
-- ════════════════════════════════════════════════════════════════════════

/-- The allocator never matters exactly when running through scratch leaves the action as it is. -/
theorem sameEffect_all_iff (h : w.attachedMock this = some mock) :
    (∀ prunedRequests, w.SameEffect actions this type timePoint prunedRequests) ↔
      ((actions mock).onVector timePoint).throughScratch = (actions mock).onVector timePoint := by
  rw [BufferM.throughScratch_eq_iff]
  constructor
  · intro hall prior
    exact (sameEffect_vector_iff h).mp (hall (some prior))
  · rintro hext (_ | prior)
    · exact .of_null
    · exact (sameEffect_vector_iff h).mpr (hext prior)

/-- An action that only appends: the allocator matters where it throws after it has appended. -/
theorem sameEffect_appending_iff (h : w.attachedMock this = some mock)
    (happ : ((actions mock).onVector timePoint).Appends) {prior : List RequestId} :
    w.SameEffect actions this type timePoint (some prior) ↔
      (((actions mock).onVector timePoint).exec []).1.isOk = true ∨
        (((actions mock).onVector timePoint).exec []).2 = [] := by
  rw [sameEffect_vector_iff h]
  exact happ.extends_iff

/-- An action that replaces what it finds: the allocator matters unless the vector is empty, or
the action throws and leaves what was there. -/
theorem sameEffect_overwriting_iff (h : w.attachedMock this = some mock)
    (hover : ((actions mock).onVector timePoint).Overwrites) {prior : List RequestId} :
    w.SameEffect actions this type timePoint (some prior) ↔
      if (((actions mock).onVector timePoint).exec []).1.isOk = true then prior = []
      else prior = (((actions mock).onVector timePoint).exec []).2 := by
  rw [sameEffect_vector_iff h]
  exact hover.extends_iff

/-- For commands on the vector: none that is performed may replace its content, and if one throws
none before it may append. -/
theorem sameEffect_ofScript_iff (h : w.attachedMock this = some mock)
    {commands : List (BufferCommand RequestId ε)} {count : ℕ}
    (haction : actions mock = .ofScript commands count) :
    (∀ prunedRequests, w.SameEffect actions this type timePoint prunedRequests) ↔
      BufferM.replaces commands = false ∧
        (((BufferM.script commands count).exec []).1.isOk = true ∨
          ((BufferM.script commands count).exec []).2 = []) := by
  rw [sameEffect_all_iff h, BufferM.throughScratch_eq_iff, haction]
  exact BufferM.script_extends_all_iff

end World

-- ════════════════════════════════════════════════════════════════════════
-- The pruning of rclcpp
-- ════════════════════════════════════════════════════════════════════════

/-- `pending_requests`: ids and the time points they were sent at, in the order of iteration. -/
abbrev PendingRequests := List (RequestId × SystemTime)

/-- The loop of `prune_requests_older_than_impl`, with `passed` the requests that stay. -/
def pruneLoop (timePoint : SystemTime) (passed : PendingRequests) :
    PendingRequests → Option (List RequestId) → PendingRequests × Option (List RequestId)
  | [], prunedRequests => (passed, prunedRequests)
  | it :: last, prunedRequests =>
    if it.2 < timePoint then
      pruneLoop timePoint passed last (prunedRequests.map (· ++ [it.1]))
    else pruneLoop timePoint (passed ++ [it]) last prunedRequests

/-- `prune_requests_older_than_impl`: the count, the requests still pending, and the vector. -/
def pruneRequestsOlderThanImpl (pendingRequests : PendingRequests) (timePoint : SystemTime)
    (prunedRequests : Option (List RequestId)) : ℕ × PendingRequests × Option (List RequestId) :=
  let oldSize := pendingRequests.length
  let (pendingRequests, prunedRequests) := pruneLoop timePoint [] pendingRequests prunedRequests
  (oldSize - pendingRequests.length, pendingRequests, prunedRequests)

/-- The pending requests sent before the time point. -/
def olderThan (timePoint : SystemTime) (pendingRequests : PendingRequests) : PendingRequests :=
  pendingRequests.filter fun it => it.2 < timePoint

theorem pruneLoop_eq (timePoint : SystemTime) (passed pendingRequests : PendingRequests)
    (prunedRequests : Option (List RequestId)) :
    pruneLoop timePoint passed pendingRequests prunedRequests =
      (passed ++ pendingRequests.filter (fun it => timePoint ≤ it.2),
        prunedRequests.map (· ++ (olderThan timePoint pendingRequests).map Prod.fst)) := by
  induction pendingRequests generalizing passed prunedRequests with
  | nil => simp [pruneLoop, olderThan]
  | cons it last ih =>
    rw [pruneLoop]
    split
    · next hold =>
      rw [ih, Option.map_map]
      have hnot : ¬ timePoint ≤ it.2 := Int.not_le.mpr hold
      simp [olderThan, hold, hnot, Function.comp_def]
    · next hyoung =>
      rw [ih]
      have hle : timePoint ≤ it.2 := Int.not_lt.mp hyoung
      simp [olderThan, hyoung, hle]

/-- The requests older than the time point are counted, removed and appended, in order. -/
theorem pruneRequestsOlderThanImpl_eq (pendingRequests : PendingRequests) (timePoint : SystemTime)
    (prunedRequests : Option (List RequestId)) :
    pruneRequestsOlderThanImpl pendingRequests timePoint prunedRequests =
      ((olderThan timePoint pendingRequests).length,
        pendingRequests.filter (fun it => timePoint ≤ it.2),
        prunedRequests.map (· ++ (olderThan timePoint pendingRequests).map Prod.fst)) := by
  have hsplit := List.length_eq_length_filter_add (l := pendingRequests)
    fun it => decide (it.2 < timePoint)
  simp only [← decide_not, Int.not_lt] at hsplit
  simp only [pruneRequestsOlderThanImpl, pruneLoop_eq, List.nil_append, olderThan]
  congr 1
  omega

/-- The action of a mock that prunes requests of its own as rclcpp does. -/
def PruneAction.ofPending (pendingRequests : PendingRequests) : PruneAction ε where
  onNull timePoint := .ok (pruneRequestsOlderThanImpl pendingRequests timePoint none).1
  onVector timePoint := do
    let vector ← get
    let (count, _, pruned) := pruneRequestsOlderThanImpl pendingRequests timePoint (some vector)
    set (pruned.getD vector)
    return count

theorem PruneAction.ofPending_exec (pendingRequests : PendingRequests) (timePoint : SystemTime)
    (vector : List RequestId) :
    ((ofPending pendingRequests : PruneAction ε).onVector timePoint).exec vector =
      (.ok (olderThan timePoint pendingRequests).length,
        vector ++ (olderThan timePoint pendingRequests).map Prod.fst) := by
  show (Except.ok (pruneRequestsOlderThanImpl pendingRequests timePoint (some vector)).1,
    (pruneRequestsOlderThanImpl pendingRequests timePoint (some vector)).2.2.getD vector) = _
  rw [pruneRequestsOlderThanImpl_eq]
  rfl

/-- It extends every vector. -/
theorem PruneAction.ofPending_extends (pendingRequests : PendingRequests) (timePoint : SystemTime)
    (vector : List RequestId) :
    ((ofPending pendingRequests : PruneAction ε).onVector timePoint).Extends vector := by
  have happends : ((ofPending pendingRequests : PruneAction ε).onVector timePoint).Appends := by
    intro prior
    rw [ofPending_exec, ofPending_exec, List.nil_append]
  rw [happends.extends_iff, ofPending_exec]
  exact Or.inl rfl

namespace World

/-- A client whose mock prunes as rclcpp does gives the caller what rclcpp gives, whatever the
allocator. -/
theorem pruneRequestsOlderThan_ofPending {w : World} {actions : MockRef → PruneAction ε}
    {this : Addr} {mock : MockRef} {pendingRequests : PendingRequests}
    (h : w.attachedMock this = some mock) (haction : actions mock = .ofPending pendingRequests)
    (allocator : VectorAllocator) (timePoint : SystemTime)
    (prunedRequests : Option (List RequestId)) :
    w.pruneRequestsOlderThan actions this allocator timePoint prunedRequests =
      (.ok (pruneRequestsOlderThanImpl pendingRequests timePoint prunedRequests).1,
        (pruneRequestsOlderThanImpl pendingRequests timePoint prunedRequests).2.2) := by
  have hstd : w.pruneRequestsOlderThan actions this .std timePoint prunedRequests =
      (.ok (pruneRequestsOlderThanImpl pendingRequests timePoint prunedRequests).1,
        (pruneRequestsOlderThanImpl pendingRequests timePoint prunedRequests).2.2) := by
    rw [pruneRequestsOlderThan_std h, haction]
    cases prunedRequests with
    | none =>
      show (Except.ok (pruneRequestsOlderThanImpl pendingRequests timePoint none).1, none) = _
      rw [pruneRequestsOlderThanImpl_eq]
      rfl
    | some vector =>
      rw [PruneAction.pruneRequestsOlderThan_vector, PruneAction.ofPending_exec,
        pruneRequestsOlderThanImpl_eq]
      rfl
  cases allocator with
  | std => exact hstd
  | custom type =>
    have hsame : w.SameEffect actions this type timePoint prunedRequests := by
      cases prunedRequests with
      | none => exact .of_null
      | some vector =>
        rw [sameEffect_vector_iff h, haction]
        exact PruneAction.ofPending_extends pendingRequests timePoint vector
    rw [← sameEffect_iff_eq.mp hsame, hstd]

end World

end Rtest
