import Rtest.Calls.Fixtures

/-!
# Requests to a service

A request reaches a service in two ways: the executor calls the service's `handle_request`, a test
calls that of its mock. The mock goes through the raw pointer it was built with, and sends the
response itself; the executor's way asks the registry which mock to send it through.

What a service callback does is taken to be done to the state of the nodes: it creates, destroys and
looks up no objects of the registry.

## Main definitions

- `Serving.handleRequest` — the executor's way
- `Serving.mockHandleRequest` — the test's way

## Main results

- `Serving.same_way` — under the fixtures' discipline the two are the same
-/

namespace Rtest

open World

/-- The service callbacks of a program: what `any_callback_.dispatch` does for a service, a header
and a request to the state of the nodes, with the response unless it is deferred. -/
abbrev Dispatch (σ H Q R : Type) := EntityRef → σ → H → Q → σ × Option R

/-- A test program with the state of its nodes and the responses its mocks were told to send. -/
structure Serving (σ H R : Type) where
  world : World
  state : σ
  sent : List (MockRef × H × R)

inductive ServingEvent (H Q : Type) where
  | op (op : Op)
  | executor (e : EntityRef) (header : H) (request : Q)
  | test (m : MockRef) (header : H) (request : Q)

namespace Serving

variable {σ H Q R : Type} (dispatch : Dispatch σ H Q R)

/-- The living object at an address. -/
def objectAt (w : World) (a : Addr) : Option EntityRef :=
  (List.range w.entities.next).find? fun e => (w.entities.get? e).any fun obj => obj.this = a

/-- `Service::handle_request`, called with type-erased pointers. -/
def handleRequest (s : Serving σ H R) (e : EntityRef) (header : H) (request : Q) :
    Serving σ H R :=
  let (state, response) := dispatch e s.state header request
  let s := { s with state := state }
  match response with
  | none => s
  | some response =>
    match s.world.receiver e with
    | some m => { s with sent := s.sent ++ [(m, header, response)] }
    | none => s

/-- `ServiceMock::handle_request`; `none` if `service_` points at nothing that lives. -/
def mockHandleRequest (s : Serving σ H R) (m : MockRef) (header : H) (request : Q) :
    Option (Serving σ H R) :=
  (s.world.mocks.get? m).bind fun mock => (objectAt s.world mock.target).map fun e =>
    let (state, response) := dispatch e s.state header request
    let s := { s with state := state }
    match response with
    | none => s
    | some response => { s with sent := s.sent ++ [(m, header, response)] }

/-- Requests are made of living services, and through mocks of services that are held. A request
through a pointer to nothing has no outcome. -/
def step (s : Serving σ H R) : ServingEvent H Q → Option (Serving σ H R)
  | .op op => (s.world.step op).map fun w => { s with world := w }
  | .executor e header request =>
    if (s.world.entities.get? e).any fun obj => obj.kind = .service then
      some (s.handleRequest dispatch e header request)
    else none
  | .test m header request =>
    if (s.world.mocks.get? m).any fun mock => mock.kind = .service then
      s.mockHandleRequest dispatch m header request
    else none

/-- The executor's way for the service a mock was made for. -/
def asExecutor (w : World) : ServingEvent H Q → ServingEvent H Q
  | .test m header request =>
    match w.mocks.get? m with
    | some mock => .executor mock.createdFor header request
    | none => .test m header request
  | ev => ev

def start (state : σ) : Serving σ H R := ⟨World.init, state, []⟩

/-- The operations of the run keep the fixtures' discipline. -/
def Orderly (s : Serving σ H R) : ServingEvent H Q → Prop
  | .op op => World.Orderly s.world op
  | _ => True

variable {dispatch} {s s' : Serving σ H R} {ev : ServingEvent H Q} {w : World}

/-- Living objects have addresses of their own. -/
theorem objectAt_eq_some_iff (hi : Inv w) {a : Addr} {e : EntityRef} :
    objectAt w a = some e ↔ ∃ obj, w.entities.get? e = some obj ∧ obj.this = a := by
  have hany : ∀ e, ((w.entities.get? e).any fun obj => obj.this = a) = true ↔
      ∃ obj, w.entities.get? e = some obj ∧ obj.this = a := by
    intro e
    simp [Option.any_eq_true]
  constructor
  · intro h
    exact (hany e).mp (by simpa using List.find?_some h)
  · rintro ⟨obj, hobj, rfl⟩
    cases hfind : objectAt w obj.this with
    | none =>
      have hno := List.find?_eq_none.mp hfind e
        (List.mem_range.mpr (ObjectStore.lt_next_of_get? hobj))
      exact absurd ((hany e).mpr ⟨obj, hobj, rfl⟩) hno
    | some e' =>
      obtain ⟨obj', hobj', hthis⟩ := (hany e').mp (by simpa using List.find?_some hfind)
      rw [hi.addresses e' e obj' obj hobj' hobj hthis]

/-- The pointer of a mock that is connected leads to the service it was made for. -/
theorem objectAt_target (ht : Tidy w) (hconn : Connected w) {m : MockRef} {mock : Mock}
    (hmock : w.mocks.get? m = some mock) : objectAt w mock.target = some mock.createdFor := by
  obtain ⟨obj, hobj⟩ := ObjectStore.alive_iff.mp (hconn m mock hmock).1
  exact (objectAt_eq_some_iff ht.inv).mpr
    ⟨obj, hobj, (ht.mockInv.target m mock obj hmock hobj).1⟩

/-- What a request leaves of the world. -/
theorem world_handleRequest (s : Serving σ H R) (e : EntityRef) (header : H) (request : Q) :
    (s.handleRequest dispatch e header request).world = s.world := by
  simp only [handleRequest]
  split
  · rfl
  · split <;> rfl

/-- A mock that is connected hands a request on as the executor would. -/
theorem mockHandleRequest_eq (ht : Tidy s.world) (hconn : Connected s.world) {m : MockRef}
    {mock : Mock} (hmock : s.world.mocks.get? m = some mock) (header : H) (request : Q) :
    s.mockHandleRequest dispatch m header request =
      some (s.handleRequest dispatch mock.createdFor header request) := by
  have hrec : s.world.receiver mock.createdFor = some m :=
    (hconn.oneToOne ht mock.createdFor m).mpr ⟨mock, hmock, rfl⟩
  simp only [mockHandleRequest, hmock, Option.bind_some, objectAt_target ht hconn hmock,
    Option.map_some, handleRequest, hrec]

theorem step_test (dispatch : Dispatch σ H Q R) (ht : Tidy s.world) (hconn : Connected s.world)
    {m : MockRef} (header : H) (request : Q)
    (hmock : (s.world.mocks.get? m).any (fun mock => mock.kind = .service) = true) :
    ∃ s', s.step dispatch (.test m header request) = some s' ∧
      s.step dispatch (asExecutor s.world (.test m header request)) = some s' ∧
      s'.world = s.world := by
  obtain ⟨mock, hget, hkind⟩ := (Option.any_eq_true ..).mp hmock
  have hkind : mock.kind = .service := of_decide_eq_true hkind
  obtain ⟨obj, hobj⟩ := ObjectStore.alive_iff.mp (hconn m mock hget).1
  have hobjKind := (ht.mockInv.target m mock obj hget hobj).2
  refine ⟨s.handleRequest dispatch mock.createdFor header request, ?_, ?_,
    world_handleRequest s _ header request⟩
  · simp only [step, if_pos hmock, mockHandleRequest_eq ht hconn hget]
  · simp [asExecutor, hget, step, hobj, hobjKind, hkind]

/-- Whatever happens, the discipline keeps mocks connected. -/
theorem orderly_keeps (h : Tidy s.world ∧ Connected s.world) (hc : Orderly s ev)
    (hs : s.step dispatch ev = some s') : Tidy s'.world ∧ Connected s'.world := by
  cases ev with
  | op op =>
    simp only [step, Option.map_eq_some_iff] at hs
    obtain ⟨w, hw, rfl⟩ := hs
    exact orderly_step s.world op w h hc hw
  | executor e header request =>
    simp only [step] at hs
    split at hs
    · cases hs
      rwa [world_handleRequest]
    · cases hs
  | test m header request =>
    simp only [step] at hs
    split at hs
    · next hmock =>
      obtain ⟨u, hu, -, hworld⟩ := step_test dispatch h.1 h.2 header request hmock
      simp only [step, if_pos hmock] at hu
      rw [hs] at hu
      cases hu
      rwa [hworld]
    · cases hs

/-- **Two ways, one effect.** In every orderly run, whatever the callbacks do, a request made
through a mock never goes through a pointer to a dead service: it has the effect, on the nodes and
on what the mocks are told to send, of the same request made by the executor of the service the mock
was made for. -/
theorem same_way (dispatch : Dispatch σ H Q R) (state : σ) {evs : List (ServingEvent H Q)}
    (h : Runs.EachStep (step dispatch) Orderly (start state) evs) {pre : List (ServingEvent H Q)}
    {m : MockRef} {header : H} {request : Q} (hpre : pre ++ [.test m header request] <+: evs)
    {s : Serving σ H R} (hs : Runs.run (step dispatch) (start state) pre = some s)
    (hmock : (s.world.mocks.get? m).any (fun mock => mock.kind = .service) = true) :
    ∃ s', s.step dispatch (.test m header request) = some s' ∧
      s.step dispatch (asExecutor s.world (.test m header request)) = some s' := by
  have halways := Runs.always_of_eachStep
    (P := fun s : Serving σ H R => Tidy s.world ∧ Connected s.world)
    (fun _ _ _ h hc hs => orderly_keeps h hc hs) ⟨tidy_init, connected_init⟩ h
  obtain ⟨ht, hconn⟩ := halways pre s ((List.prefix_append pre _).trans hpre) hs
  obtain ⟨s', htest, hexecutor, -⟩ := step_test dispatch ht hconn header request hmock
  exact ⟨s', htest, hexecutor⟩

/-- A service that counts the requests and echoes them. -/
def echo : Dispatch Nat Nat String String := fun _ count _ request => (count + 1, some request)

def oneService : List (ServingEvent Nat String) :=
  [.op (.createNode ⟨1, 100, "/".toList, "node".toList⟩),
    .op (.createEntity .service 7 10 0 "/srv".toList),
    .op (.find .service 7 0 "srv".toList)]

theorem orderly_oneService :
    Runs.EachStep (step echo) Orderly (start 0) (oneService ++ [.test 0 5 "ping"]) := by
  rw [Runs.eachStep_iff_getElem]
  intro i ev s hev hs
  match i with
  | 0 => cases hev; trivial
  | 1 => cases hev; trivial
  | 2 => cases hev; exact nofun
  | 3 => cases hev; trivial

/-- Where the run stands before the request. -/
def oneServiceUp : Serving Nat Nat String :=
  (Runs.run (step echo) (start 0) oneService).getD (start 0)

theorem same_way_oneService : ∃ s', oneServiceUp.step echo (.test 0 5 "ping") = some s' ∧
    oneServiceUp.step echo (asExecutor oneServiceUp.world (.test 0 5 "ping")) = some s' :=
  same_way echo 0 orderly_oneService (List.prefix_refl _) rfl (by decide)

example : (oneServiceUp.step echo (.test 0 5 "ping")).map sent = some [(0, 5, "ping")] := by decide

end Serving

end Rtest
