import Rtest.Foundations.Runs
import Rtest.Foundations.RequestTable
import Rtest.Calls.Traffic
import Rtest.Service.PruneRequests

/-!
# A service client among other threads

The node `ServiceClient` calls a service and waits for the response. A client keeps a request
until a response arrives, or until it is removed or pruned; so a call whose wait ends too soon
removes its request. While it waits, responses arrive, and other threads give up on requests.

## Main definitions

- `RequestClient`, `RequestClient.KeepsRequests` — the client, and what the node relies on
- `ServiceClient.step` — the node, its calls step by step among all else that happens
- `Conversation.step` — a call and its own request, with no client

## Main results

- `ServiceClient.settled_alone` — in every order of the steps, the node's calls end as those of a
  conversation, and the client keeps no request but that of the call under way
-/

namespace Rtest

/-- `std_srvs::srv::SetBool::Response`. -/
structure SetBoolResponse where
  success : Bool
  message : String
  deriving DecidableEq, Repr

/-- What `client_` forwards to, in state `K`. A future whose promise is broken throws an exception
that says `brokenPromise`. -/
structure RequestClient (K : Type) where
  table : RequestTable K RequestId SystemTime SetBoolResponse
  brokenPromise : String
  asyncSendRequest : Method → Bool → RequestId → SystemTime → K → K
  handleResponse : RequestId → SetBoolResponse → K → K
  removePendingRequest : RequestId → K → Bool × K
  prunePendingRequests : K → ℕ × K
  pruneRequestsOlderThan : SystemTime → Option (List RequestId) → K →
    (ℕ × Option (List RequestId)) × K

/-- The client keeps every request without a response, as that of rclcpp does. A request that got
one is gone from it; one removed or pruned has its promise destroyed. -/
structure RequestClient.KeepsRequests {K : Type} (client : RequestClient K) : Prop where
  sent : ∀ method state id time k, id ∉ (client.table.pending k).map Prod.fst →
    client.table.Sent k (client.asyncSendRequest method state id time k) id time
  answered : ∀ id response k, client.table.Settled k (client.handleResponse id response k)
    (fun it => it.1 = id) (some response)
  removed : ∀ id k, client.table.Settled k (client.removePendingRequest id k).2
    (fun it => it.1 = id) none
  pruned : ∀ k, (client.prunePendingRequests k).1 = (client.table.pending k).length ∧
    client.table.Settled k (client.prunePendingRequests k).2 (fun _ => true) none
  prunedOlder : ∀ timePoint ids k,
    (client.pruneRequestsOlderThan timePoint ids k).1.2 =
        (pruneRequestsOlderThanImpl (client.table.pending k) timePoint ids).2.2 ∧
      client.table.Settled k (client.pruneRequestsOlderThan timePoint ids k).2
        (fun it => it.2 < timePoint) none

-- ════════════════════════════════════════════════════════════════════════
-- The node
-- ════════════════════════════════════════════════════════════════════════

/-- The calls differ in whether they ask for the service first, in the overload they send with, and
in what they say of a wait that ended too soon. -/
structure StateCall where
  asksReady : Bool
  method : Method
  failure : String
  deriving DecidableEq, Repr

namespace StateCall

def setState : StateCall := ⟨true, .asyncSendRequest, "Service call failed"⟩

def setStateWithCallback : StateCall :=
  ⟨true, .asyncSendRequestWithCallback, "Service call failed"⟩

def setStateWithRequestCallback : StateCall :=
  ⟨true, .asyncSendRequestWithCallbackAndRequest, "Service call failed"⟩

def setStateWithTimeout : StateCall := ⟨false, .asyncSendRequest, "Service call timed out"⟩

end StateCall

/-- What a member function of the node returned, or threw. -/
inductive Returned where
  | state (result : Except String Bool)
  | cancelled (count : ℕ)
  | dropped (ids : List RequestId)
  deriving DecidableEq

/-- The members of the node, and what its functions have returned so far. -/
structure CallRecord where
  lastCallSuccess : Bool
  lastResponseMessage : String
  returned : List Returned
  deriving DecidableEq

namespace CallRecord

def start : CallRecord := ⟨false, "", []⟩

def returns (result : Returned) (r : CallRecord) : CallRecord :=
  { r with returned := r.returned ++ [result] }

/-- A call that gives `false` and says why. -/
def fail (message : String) (r : CallRecord) : CallRecord :=
  { r with lastCallSuccess := false, lastResponseMessage := message }.returns (.state (.ok false))

/-- A call whose future is ready: with a response, or without one. -/
def ready (brokenPromise : String) (answer : Option SetBoolResponse) (r : CallRecord) :
    CallRecord :=
  match answer with
  | some response =>
    { r with
      lastCallSuccess := response.success
      lastResponseMessage := response.message }.returns (.state (.ok response.success))
  | none => r.fail brokenPromise

end CallRecord

/-- Where the thread that calls is, with what it has in hand of its request. -/
inductive Control (ρ : Type) where
  | idle
  | sending (call : StateCall) (state : Bool)
  | waiting (call : StateCall) (request : ρ)
  | givingUp (call : StateCall) (request : ρ)
  deriving DecidableEq

namespace Control

variable {ρ σ : Type}

def request : Control ρ → Option ρ
  | idle | sending _ _ => none
  | waiting _ request | givingUp _ request => some request

def map (f : ρ → σ) : Control ρ → Control σ
  | idle => idle
  | sending call state => sending call state
  | waiting call request => waiting call (f request)
  | givingUp call request => givingUp call (f request)

@[simp] theorem request_map (f : ρ → σ) (c : Control ρ) : (c.map f).request = c.request.map f := by
  cases c <;> rfl

theorem map_map_eq {f : ρ → ρ} {g : ρ → σ} (h : ∀ r, g (f r) = g r) (c : Control ρ) :
    (c.map f).map g = c.map g := by
  cases c with
  | idle => rfl
  | sending call state => rfl
  | waiting call r => exact congrArg (waiting call) (h r)
  | givingUp call r => exact congrArg (givingUp call) (h r)

theorem request_of_map_idle {f : ρ → σ} {c : Control ρ} (h : c.map f = idle) :
    c.request = none := by
  cases c with
  | idle => rfl
  | sending call state => cases h
  | waiting call request => cases h
  | givingUp call request => cases h

end Control

structure ServiceClient (K : Type) where
  client : K
  control : Control RequestId
  record : CallRecord

/-- The steps of a call, in the thread that calls; the responses; and what any thread may do. What
the middleware answers is part of the event: whether the service is there, and under which id and
when a request goes out, if it does. -/
inductive ServiceClientEvent where
  | call (call : StateCall) (state ready : Bool)
  | send (answer : Except String (RequestId × SystemTime))
  | wakeUp
  | giveUp
  | respond (id : RequestId) (response : SetBoolResponse)
  | cancelPendingRequests
  | dropRequestsOlderThan (now maxAge : ℤ)

namespace ServiceClient

variable {K : Type} (client : RequestClient K)

/-- No call has been made. -/
def start (k : K) : ServiceClient K := ⟨k, .idle, .start⟩

def cancelPendingRequests (s : ServiceClient K) : ServiceClient K :=
  let (pruned, k) := client.prunePendingRequests s.client
  { s with client := k, record := s.record.returns (.cancelled pruned) }

def dropRequestsOlderThan (now maxAge : ℤ) (s : ServiceClient K) : ServiceClient K :=
  let ((_, pruned), k) := client.pruneRequestsOlderThan (now - maxAge) (some []) s.client
  { s with client := k, record := s.record.returns (.dropped (pruned.getD [])) }

/-- One thread calls, one call at a time. Ids are not used again while a request is pending. -/
def step (s : ServiceClient K) : ServiceClientEvent → Option (ServiceClient K)
  | .call call state ready =>
    match s.control with
    | .idle =>
      if call.asksReady && !ready then
        some { s with record := s.record.fail "Service not available" }
      else some { s with control := .sending call state }
    | _ => none
  | .send answer =>
    match s.control with
    | .sending call state =>
      match answer with
      | .error what =>
        some { s with control := .idle, record := s.record.returns (.state (.error what)) }
      | .ok (id, time) =>
        if id ∈ (client.table.pending s.client).map Prod.fst then none
        else
          some { s with
            client := client.asyncSendRequest call.method state id time s.client
            control := .waiting call id }
    | _ => none
  | .wakeUp =>
    match s.control with
    | .waiting call id =>
      match client.table.outcome s.client id with
      | none => some { s with control := .givingUp call id }
      | some answer =>
        some { s with control := .idle, record := s.record.ready client.brokenPromise answer }
    | _ => none
  | .giveUp =>
    match s.control with
    | .givingUp call id =>
      let (_, k) := client.removePendingRequest id s.client
      some { client := k, control := .idle, record := s.record.fail call.failure }
    | _ => none
  | .respond id response => some { s with client := client.handleResponse id response s.client }
  | .cancelPendingRequests => some (s.cancelPendingRequests client)
  | .dropRequestsOlderThan now maxAge => some (s.dropRequestsOlderThan client now maxAge)

end ServiceClient

-- ════════════════════════════════════════════════════════════════════════
-- The conversation
-- ════════════════════════════════════════════════════════════════════════

/-- A call and its request, settled by the first thing that happens to it. -/
structure Conversation where
  control : Control (Request RequestId SystemTime SetBoolResponse)
  record : CallRecord

namespace Conversation

def start : Conversation := ⟨.idle, .start⟩

/-- The request of the call under way, while it is neither answered nor dropped. -/
def held (t : Conversation) : PendingRequests := RequestTable.held t.control.request

/-- Requests are settled: the request of the call, if it is meant and waits. -/
def settle (p : RequestId × SystemTime → Bool) (answer : Option SetBoolResponse)
    (t : Conversation) : Conversation :=
  { t with control := t.control.map (Request.settle p answer) }

variable (brokenPromise : String)

def step (t : Conversation) : ServiceClientEvent → Option Conversation
  | .call call state ready =>
    match t.control with
    | .idle =>
      if call.asksReady && !ready then
        some { t with record := t.record.fail "Service not available" }
      else some { t with control := .sending call state }
    | _ => none
  | .send answer =>
    match t.control with
    | .sending call _ =>
      match answer with
      | .error what =>
        some { t with control := .idle, record := t.record.returns (.state (.error what)) }
      | .ok (id, time) => some { t with control := .waiting call ⟨id, .waiting time⟩ }
    | _ => none
  | .wakeUp =>
    match t.control with
    | .waiting call request =>
      match request.outcome with
      | none => some { t with control := .givingUp call request }
      | some answer => some { t with control := .idle, record := t.record.ready brokenPromise answer }
    | _ => none
  | .giveUp =>
    match t.control with
    | .givingUp call _ => some { t with control := .idle, record := t.record.fail call.failure }
    | _ => none
  | .respond id response => some (t.settle (fun it => it.1 = id) (some response))
  | .cancelPendingRequests =>
    some { t.settle (fun _ => true) none with
      record := t.record.returns (.cancelled t.held.length) }
  | .dropRequestsOlderThan now maxAge =>
    some { t.settle (fun it => it.2 < now - maxAge) none with
      record := t.record.returns (.dropped ((olderThan (now - maxAge) t.held).map Prod.fst)) }

end Conversation

-- ════════════════════════════════════════════════════════════════════════
-- The node's calls are conversations
-- ════════════════════════════════════════════════════════════════════════

namespace ServiceClient

variable {K : Type} {client : RequestClient K} {s : ServiceClient K} {t : Conversation}

/-- The conversation is at the same place and has the same record, and the client holds its request
and no other. -/
structure Refines (client : RequestClient K) (s : ServiceClient K) (t : Conversation) : Prop where
  control : s.control = t.control.map Request.id
  record : s.record = t.record
  shows_ : client.table.Shows s.client t.control.request

theorem refines_start {k : K} (hk : client.table.pending k = []) :
    Refines client (start k) .start where
  control := rfl
  record := rfl
  shows_ := RequestTable.shows_none hk

theorem refines_iff : Refines client s t ↔
    ∃ k, s = ⟨k, t.control.map Request.id, t.record⟩ ∧ client.table.Shows k t.control.request := by
  constructor
  · rintro ⟨hcontrol, hrecord, hshows⟩
    exact ⟨s.client, by rw [← hcontrol, ← hrecord], hshows⟩
  · rintro ⟨k, rfl, hshows⟩
    exact ⟨rfl, rfl, hshows⟩

theorem Refines.pending (h : Refines client s t) : client.table.pending s.client = t.held :=
  h.shows_.pending

theorem cancelPendingRequests_eq (client : RequestClient K) (s : ServiceClient K) :
    s.cancelPendingRequests client =
      { s with
        client := (client.prunePendingRequests s.client).2
        record := s.record.returns (.cancelled (client.prunePendingRequests s.client).1) } := rfl

theorem dropRequestsOlderThan_eq (client : RequestClient K) (now maxAge : ℤ)
    (s : ServiceClient K) :
    s.dropRequestsOlderThan client now maxAge =
      { s with
        client := (client.pruneRequestsOlderThan (now - maxAge) (some []) s.client).2
        record := s.record.returns (.dropped
          ((client.pruneRequestsOlderThan (now - maxAge) (some []) s.client).1.2.getD [])) } := rfl

/-- **Requests settled** by any thread, or by the middleware. -/
theorem Refines.settled (h : Refines client s t) {k : K} {p : RequestId × SystemTime → Bool}
    {answer : Option SetBoolResponse} (hset : client.table.Settled s.client k p answer) :
    Refines client { s with client := k } (t.settle p answer) where
  control := by
    rw [h.control]
    exact (Control.map_map_eq (Request.id_settle p answer) t.control).symm
  record := h.record
  shows_ := by
    show client.table.Shows k (t.control.map (Request.settle p answer)).request
    rw [Control.request_map]
    exact h.shows_.settled hset

theorem Refines.recorded (h : Refines client s t) (r : CallRecord) :
    Refines client { s with record := r } { t with record := r } :=
  ⟨h.control, rfl, h.shows_⟩

theorem Refines.cancelPendingRequests (hkeeps : client.KeepsRequests) (h : Refines client s t) :
    Option.Rel (Refines client) (step client s .cancelPendingRequests)
      (Conversation.step client.brokenPromise t .cancelPendingRequests) := by
  obtain ⟨hcount, hset⟩ := hkeeps.pruned s.client
  apply Option.Rel.some
  rw [cancelPendingRequests_eq, hcount, h.pending, h.record]
  exact (h.settled hset).recorded _

theorem Refines.dropRequestsOlderThan (hkeeps : client.KeepsRequests) (h : Refines client s t)
    (now maxAge : ℤ) :
    Option.Rel (Refines client) (step client s (.dropRequestsOlderThan now maxAge))
      (Conversation.step client.brokenPromise t (.dropRequestsOlderThan now maxAge)) := by
  obtain ⟨hids, hset⟩ := hkeeps.prunedOlder (now - maxAge) (some []) s.client
  apply Option.Rel.some
  rw [dropRequestsOlderThan_eq, hids, pruneRequestsOlderThanImpl_eq, h.pending, h.record]
  exact (h.settled hset).recorded _

/-- **A step of the calling thread.** -/
theorem Refines.send (hkeeps : client.KeepsRequests) (h : Refines client s t)
    (answer : Except String (RequestId × SystemTime)) :
    Option.Rel (Refines client) (step client s (.send answer))
      (Conversation.step client.brokenPromise t (.send answer)) := by
  obtain ⟨k, rfl, hshows⟩ := refines_iff.mp h
  obtain ⟨control, record⟩ := t
  cases control with
  | idle => exact .none
  | waiting call request => exact .none
  | givingUp call request => exact .none
  | sending call state =>
    cases answer with
    | error what => exact .some ⟨rfl, rfl, hshows⟩
    | ok sent =>
      obtain ⟨id, time⟩ := sent
      -- nothing is held before a call has sent its request, so any id is unused
      have hnew : id ∉ (client.table.pending k).map Prod.fst := by
        rw [hshows.pending]
        exact List.not_mem_nil
      show Option.Rel _ (if id ∈ (client.table.pending k).map Prod.fst then none else _) _
      rw [if_neg hnew]
      exact .some ⟨rfl, rfl, hshows.sent rfl (hkeeps.sent call.method state id time k hnew)⟩

theorem Refines.wakeUp (h : Refines client s t) :
    Option.Rel (Refines client) (step client s .wakeUp)
      (Conversation.step client.brokenPromise t .wakeUp) := by
  obtain ⟨k, rfl, hshows⟩ := refines_iff.mp h
  obtain ⟨control, record⟩ := t
  cases control with
  | idle => exact .none
  | sending call state => exact .none
  | givingUp call request => exact .none
  | waiting call request =>
    have houtcome : client.table.outcome k request.id = request.outcome :=
      hshows.outcome request rfl
    obtain ⟨id, standing⟩ := request
    simp only [step, Conversation.step, Control.map, houtcome]
    cases standing with
    | waiting since => exact .some ⟨rfl, rfl, hshows⟩
    | settled answer => exact .some ⟨rfl, rfl, hshows.forget rfl⟩

theorem Refines.giveUp (hkeeps : client.KeepsRequests) (h : Refines client s t) :
    Option.Rel (Refines client) (step client s .giveUp)
      (Conversation.step client.brokenPromise t .giveUp) := by
  obtain ⟨k, rfl, hshows⟩ := refines_iff.mp h
  obtain ⟨control, record⟩ := t
  cases control with
  | idle => exact .none
  | sending call state => exact .none
  | waiting call request => exact .none
  | givingUp call request =>
    have hremoved := hshows.settled (hkeeps.removed request.id k)
    refine .some ⟨rfl, rfl, hremoved.forget ?_⟩
    -- the request is off the table, be it that it was settled just before
    show (request.settle (fun it => it.1 = request.id) none).pending = []
    rw [Request.pending_settle]
    obtain ⟨id, standing⟩ := request
    cases standing with
    | waiting since => simp [Request.pending]
    | settled answer => rfl

theorem Refines.step (hkeeps : client.KeepsRequests) (h : Refines client s t)
    (ev : ServiceClientEvent) :
    Option.Rel (Refines client) (step client s ev)
      (Conversation.step client.brokenPromise t ev) := by
  cases ev with
  | send answer => exact h.send hkeeps answer
  | wakeUp => exact h.wakeUp
  | giveUp => exact h.giveUp hkeeps
  | respond id response => exact .some (h.settled (hkeeps.answered id response s.client))
  | cancelPendingRequests => exact h.cancelPendingRequests hkeeps
  | dropRequestsOlderThan now maxAge => exact h.dropRequestsOlderThan hkeeps now maxAge
  | call call state ready =>
    obtain ⟨k, rfl, hshows⟩ := refines_iff.mp h
    obtain ⟨control, record⟩ := t
    cases control with
    | sending call state => exact .none
    | waiting call request => exact .none
    | givingUp call request => exact .none
    | idle =>
      simp only [ServiceClient.step, Conversation.step, Control.map]
      split
      · exact .some ⟨rfl, rfl, hshows⟩
      · exact .some ⟨rfl, rfl, hshows⟩

/-- **In every order of the steps** of a call, of responses, and of requests that other threads give
up on, the node's calls end as those of a conversation: each as the first thing that happens to its
own request has it, a response, an end without one, or the removal when the wait ended. The client
holds no request but that of the call under way, and none between calls. -/
theorem settled_alone (hkeeps : client.KeepsRequests) {k : K} (hk : client.table.pending k = [])
    (evs : List ServiceClientEvent) :
    Option.Rel
      (fun s t => s.record = t.record ∧ client.table.pending s.client = t.held ∧
        (s.control = .idle → client.table.pending s.client = []))
      (Runs.run (step client) (start k) evs)
      (Runs.run (Conversation.step client.brokenPromise) .start evs) := by
  have hrel : Option.Rel (Refines client) (Runs.run (step client) (start k) evs)
      (Runs.run (Conversation.step client.brokenPromise) .start evs) :=
    Runs.run_rel (C := fun _ _ => True) (fun s t ev h _ => h.step hkeeps ev)
      (fun pre ev w hpre hw => trivial) (refines_start hk)
  generalize Runs.run (step client) (start k) evs = s at hrel ⊢
  generalize Runs.run (Conversation.step client.brokenPromise) .start evs = t at hrel ⊢
  cases hrel with
  | none => exact .none
  | some h =>
    refine .some ⟨h.record, h.pending, fun hidle => ?_⟩
    obtain ⟨k, rfl, hshows⟩ := refines_iff.mp h
    rw [hshows.pending, ← RequestTable.held_none]
    exact congrArg RequestTable.held (Control.request_of_map_idle hidle)

end ServiceClient

-- ════════════════════════════════════════════════════════════════════════
-- A client
-- ════════════════════════════════════════════════════════════════════════

namespace RequestClient

/-- Requests in the order they were sent, latest first, and their futures. -/
abbrev Requests := PendingRequests × (RequestId → Option (Option SetBoolResponse))

def settle (p : RequestId × SystemTime → Bool) (answer : Option SetBoolResponse) (k : Requests) :
    Requests :=
  (k.1.filter fun it => !p it,
    fun id => if k.1.any fun it => it.1 = id && p it then some answer else k.2 id)

/-- A client as rclcpp documents its own. -/
def referenceClient : RequestClient Requests where
  table := ⟨Prod.fst, Prod.snd⟩
  brokenPromise := "std::future_error: Broken promise"
  asyncSendRequest _ _ id time k := ((id, time) :: k.1, fun id' => if id' = id then none else k.2 id')
  handleResponse id response := settle (fun it => it.1 = id) (some response)
  removePendingRequest id k := (k.1.any fun it => it.1 = id, settle (fun it => it.1 = id) none k)
  prunePendingRequests k := (k.1.length, settle (fun _ => true) none k)
  pruneRequestsOlderThan timePoint ids k :=
    let (count, _, ids) := pruneRequestsOlderThanImpl k.1 timePoint ids
    ((count, ids), settle (fun it => it.2 < timePoint) none k)

theorem settled_settle (p : RequestId × SystemTime → Bool) (answer : Option SetBoolResponse)
    (k : Requests) : referenceClient.table.Settled k (settle p answer k) p answer where
  pending := rfl
  settled := by
    intro it hit hp
    apply if_pos
    exact List.any_eq_true.mpr ⟨it, hit, by simp [hp]⟩
  others := by
    intro id hno
    apply if_neg
    rw [List.any_eq_true]
    rintro ⟨it, hit, heq⟩
    simp only [Bool.and_eq_true, decide_eq_true_eq] at heq
    rw [hno it hit heq.1] at heq
    cases heq.2

theorem referenceClient_keepsRequests : referenceClient.KeepsRequests where
  sent := fun _ _ _ _ _ _ => ⟨.refl _, if_pos rfl⟩
  answered := fun _ _ => settled_settle _ _
  removed := fun _ => settled_settle _ _
  pruned := fun k => ⟨rfl, settled_settle _ _ k⟩
  prunedOlder := fun _ _ k => ⟨rfl, settled_settle _ _ k⟩

end RequestClient

namespace ServiceClient

open StateCall RequestClient

/-- A response that comes too late, a request dropped for its age, and one that is answered. -/
def busyClient : List ServiceClientEvent :=
  [.call setStateWithTimeout true false, .send (.ok (41, 0)), .wakeUp, .respond 41 ⟨true, "late"⟩,
    .giveUp, .call setState true true, .send (.ok (42, 5)), .respond 41 ⟨true, "later"⟩,
    .dropRequestsOlderThan 20 10, .wakeUp, .call setStateWithCallback false true,
    .send (.ok (43, 30)), .dropRequestsOlderThan 35 10, .respond 43 ⟨true, "done"⟩,
    .cancelPendingRequests, .wakeUp]

theorem settled_alone_busyClient :
    Option.Rel
        (fun s t => s.record = t.record ∧ referenceClient.table.pending s.client = t.held ∧
          (s.control = .idle → referenceClient.table.pending s.client = []))
        (Runs.run (step referenceClient) (start ([], fun _ => none)) busyClient)
        (Runs.run (Conversation.step referenceClient.brokenPromise) .start busyClient) ∧
      (Runs.run (Conversation.step referenceClient.brokenPromise) .start busyClient).map
          Conversation.record =
        some ⟨true, "done",
          [.state (.ok false), .dropped [42], .state (.ok false), .dropped [], .cancelled 0,
            .state (.ok true)]⟩ :=
  ⟨settled_alone referenceClient_keepsRequests rfl busyClient, by decide⟩

end ServiceClient

end Rtest
