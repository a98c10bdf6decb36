import Rtest.Foundations.Switchboard
import Rtest.Registry.Delivery

/-!
# What mocks record

Member functions of entities hand their calls to the mock attached at the entity's address, and
the mock records them. Seen from outside, entities are lines and mocks are stations: a `find*` call
connects the two, and the addresses do not show.

## Main definitions

- `Method`, `Publication`, `Call` — the member functions that ask for a mock
- `Session` — a test program and what its mocks have recorded
- `signal` — what an event is at the switchboard of entities and mocks

## Main results

- `Session.Refines.run` — a session runs as its switchboard does
- `received_exact` — what a mock records
-/

namespace Rtest

open World Switchboard StaticMocksRegistry

-- ════════════════════════════════════════════════════════════════════════
-- Calls
-- ════════════════════════════════════════════════════════════════════════

/-- The member functions that forward to a method of the attached mock. Overloads that forward to
different methods are told apart. -/
inductive Method where
  | publish
  | sendResponse
  | asyncSendRequest
  | asyncSendRequestWithCallback
  | asyncSendRequestWithCallbackAndRequest
  | removePendingRequest
  | prunePendingRequests
  | pruneRequestsOlderThan
  | serviceIsReady
  | waitForService
  | actionServerIsReady
  | asyncGetResult
  | asyncSendGoal
  | asyncCancelAllGoals
  | asyncCancelGoal
  | asyncCancelGoalsBefore
  | stopCallbacks
  | waitForActionServer
  deriving DecidableEq, Repr

/-- The class a method is a member of. -/
def Method.kind : Method → Kind
  | publish => .publisher
  | sendResponse => .service
  | asyncSendRequest | asyncSendRequestWithCallback | asyncSendRequestWithCallbackAndRequest
  | removePendingRequest | prunePendingRequests | pruneRequestsOlderThan | serviceIsReady
  | waitForService => .serviceClient
  | actionServerIsReady | asyncGetResult | asyncSendGoal | asyncCancelAllGoals | asyncCancelGoal
  | asyncCancelGoalsBefore | stopCallbacks | waitForActionServer => .actionClient

/-- What a member function answers where no mock is attached. -/
inductive Unattended where
  | nothing
  | throws (what : String)
  | returns (answer : Bool)
  | returnsZero
  | acts
  | resolved (content : String)
  deriving DecidableEq, Repr

/-- A ready future holds a null goal handle, a result that says `SUCCEEDED`, or an empty response;
`stop_callbacks` does the work itself. -/
def Method.unattended : Method → Unattended
  | publish | sendResponse => .nothing
  | asyncSendRequest | asyncSendRequestWithCallback | asyncSendRequestWithCallbackAndRequest =>
    .throws "No mock attached"
  | removePendingRequest | serviceIsReady | waitForService | actionServerIsReady => .returns false
  | prunePendingRequests | pruneRequestsOlderThan => .returnsZero
  | asyncGetResult => .resolved "SUCCEEDED"
  | asyncSendGoal => .resolved "nullptr"
  | asyncCancelAllGoals | asyncCancelGoal | asyncCancelGoalsBefore => .resolved "CancelResponse"
  | stopCallbacks => .acts
  | waitForActionServer => .returns true

variable {α : Type*}

/-- The overloads of `Publisher::publish`. A loaned message is valid as long as it holds one. -/
inductive Publication (α : Type*) where
  | uniquePtr (msg : α)
  | constRef (msg : α)
  | loaned (msg : Option α)
  | rclSerialized
  | serialized
  deriving DecidableEq, Repr

/-- The message `publish_` is called with, or what is thrown. -/
def Publication.message : Publication α → Except String α
  | uniquePtr msg => .ok msg
  | constRef msg => .ok msg
  | loaned none => .error "loaned message is not valid"
  | loaned (some msg) => .ok msg
  | rclSerialized => .error "Publisher::publish(rcl_serialized_message_t) is not implemented"
  | serialized => .error "Publisher::publish(SerializedMessage) is not implemented"

/-- A call on an entity. -/
inductive Call (α : Type*) where
  | publish (p : Publication α)
  | invoke (method : Method) (argument : α)
  deriving DecidableEq, Repr

def Call.kind : Call α → Kind
  | publish _ => .publisher
  | invoke method _ => method.kind

/-- What reaches the point where the mock is asked for. -/
def Call.forwarded : Call α → Except String (Method × α)
  | publish p => p.message.map fun msg => (.publish, msg)
  | invoke method a => .ok (method, a)

/-- How a call ends: thrown before a mock was asked for, answered by a mock or without one. -/
inductive Answer where
  | threw (what : String)
  | byMock (m : MockRef)
  | unattended (u : Unattended)
  deriving DecidableEq, Repr

-- ════════════════════════════════════════════════════════════════════════
-- Sessions
-- ════════════════════════════════════════════════════════════════════════

/-- A test program and what its mocks have recorded, in order. -/
structure Session (α : Type*) where
  world : World
  received : List (MockRef × Method × α)

inductive Event (α : Type*) where
  | op (op : Op)
  | call (e : EntityRef) (c : Call α)

namespace Session

/-- A process in which nothing has happened. -/
def start : Session α := ⟨World.init, []⟩

/-- A call on the entity `e`. -/
def call (s : Session α) (e : EntityRef) (c : Call α) : Answer × Session α :=
  match c.forwarded with
  | .error what => (.threw what, s)
  | .ok x =>
    match s.world.receiver e with
    | some m => (.byMock m, { s with received := s.received ++ [(m, x)] })
    | none => (.unattended x.1.unattended, s)

/-- A call is made on a living entity of its class. -/
def enabled (s : Session α) : Event α → Bool
  | .op op => s.world.enabled op
  | .call e c => (s.world.entities.get? e).any fun obj => obj.kind = c.kind

def act (s : Session α) : Event α → Session α
  | .op op => { s with world := s.world.act op }
  | .call e c => (s.call e c).2

def step (s : Session α) (ev : Event α) : Option (Session α) :=
  if s.enabled ev then some (s.act ev) else none

/-- What a mock has recorded. -/
def recorded (s : Session α) (m : MockRef) : List (Method × α) :=
  (s.received.filter fun call => call.1 = m).map Prod.snd

end Session

/-- The entity a `find*` call resolves to, with the mock it returns. -/
def World.handsOut (w : World) (k : Kind) (T : Interface) (n : NodeRef) (name : Name) :
    Option (EntityRef × MockRef) :=
  (w.nodes.get? n).bind fun node =>
    match (find k T node.controlBlock name w).1 with
    | .mock m => (resolve k node.controlBlock (findName k name) w).map fun e => (e, m)
    | _ => none

/-- What an event is at the switchboard of entities and mocks. -/
def signal (w : World) : Event α → Signal EntityRef MockRef (Method × α)
  | .op (.find k T n name) =>
    match w.handsOut k T n name with
    | some (e, m) => .connect e m
    | none => .idle
  | .op (.releaseMock m) => .hangUp m
  | .op (.destroyEntity e) => .leave e
  | .op .reset => .cut
  | .op _ => .idle
  | .call e c =>
    match c.forwarded with
    | .ok x => .send e x
    | .error _ => .idle

/-- The signals of a run. -/
def Session.signals (s : Session α) :
    List (Event α) → List (Signal EntityRef MockRef (Method × α))
  | [] => []
  | ev :: evs => signal s.world ev :: (s.act ev).signals evs

/-- The event ends what connects the entity to the mock. -/
def Event.ends (e : EntityRef) (m : MockRef) : Event α → Bool
  | .op (.releaseMock m') => m' = m
  | .op (.destroyEntity e') => e' = e
  | .op .reset => true
  | _ => false

/-- The call an event makes on the entity, if it gets as far as its mock. -/
def Event.callOn (e : EntityRef) : Event α → Option (Method × α)
  | .call e' c => if e' = e then c.forwarded.toOption else none
  | .op _ => none

-- ════════════════════════════════════════════════════════════════════════
-- What an operation does to the receivers
-- ════════════════════════════════════════════════════════════════════════

namespace World

variable {w w' : World} {op : Op}

/-- Every mock attached was made since the last reset. -/
def AttachedNow (w : World) : Prop :=
  ∀ a m mock, w.attachedMock a = some m → w.mocks.get? m = some mock →
    mock.round = w.history.resets

/-- What `receiver` depends on: that the mocks of living mockable entities are their own, and
were made since the last reset. -/
structure Tidy (w : World) : Prop where
  inv : Inv w
  mockInv : MockInv w
  own : AttachedAll Own w
  now : AttachedNow w

/-- Nothing dead is mistaken for something living: no mockable entity is created where a mock is
attached, and no mock that dies shares its target with one that is still associated. And a client
is looked up under its own type, which its `find*` function does not check. -/
def Meets (w : World) (op : Op) : Prop := FreshTarget w op ∧ DetachesOwn w op

theorem tidy_init : Tidy init where
  inv := inv_init
  mockInv := mockInv_init
  own := attachedAll_init
  now := by
    intro a m mock h
    cases h

theorem AttachedNow.step (hi : Inv w) (hm : MockInv w) (h : AttachedNow w)
    (hs : w.step op = some w') : AttachedNow w' := by
  intro a m mock hatt hmock
  cases mockStep_of_step hi hs with
  | still table next entities =>
    rw [table.attachedMock] at hatt
    rw [table.mocks] at hmock
    rw [table.resets]
    exact h a m mock hatt hmock
  | born table k T this n name hop obj hkind entities =>
    rw [table.attachedMock] at hatt
    rw [table.mocks] at hmock
    rw [table.resets]
    exact h a m mock hatt hmock
  | made k T n name hop node hn hk e hres obj hobj hkind hfree hT entities mocks table resets =>
    rw [resets]
    rw [mocks, ObjectStore.get?_alloc] at hmock
    split at hmock
    · cases hmock
      rfl
    · next hne =>
      rw [attachedMock_made hm mocks table] at hatt
      split at hatt
      · cases hatt
        exact absurd rfl hne
      · exact h a m mock hatt hmock
  | released m₀ hop mock₀ hmock₀ entities mocks table resets =>
    rw [resets]
    rw [mocks] at hmock
    rw [attachedMock_released hm hmock₀ mocks table] at hatt
    split at hatt
    · cases hatt
    · exact h a m mock hatt (ObjectStore.get?_of_free hmock)
  | reset hop entities mocks table resets =>
    obtain ⟨hget, -⟩ := attachedMock_eq_some_iff.mp hatt
    rw [table] at hget
    cases hget

theorem Tidy.step (h : Tidy w) (hc : FreshTarget w op) (hs : w.step op = some w') : Tidy w' where
  inv := inv_step w op w' h.inv hs
  mockInv := h.mockInv.step (mockStep_of_step h.inv hs)
  own := h.own.step h.inv h.mockInv (fun _ _ _ _ _ => ⟨rfl, rfl, rfl⟩)
    ((freshTarget_iff h.mockInv).mp hc) hs
  now := h.now.step h.inv h.mockInv hs

/-- The kind and the address of a living entity. -/
def place (w : World) (e : EntityRef) : Option (Kind × Addr) :=
  (w.entities.get? e).map fun obj => (obj.kind, obj.this)

theorem receiver_eq_place (e : EntityRef) : w.receiver e =
    (w.place e).bind fun p => if mockable p.1 then w.attachedMock p.2 else none := by
  rw [receiver, place]
  cases w.entities.get? e <;> rfl

theorem SameTable.receiver (h : SameTable w w') (hplace : w'.place = w.place) (e : EntityRef) :
    w'.receiver e = w.receiver e := by
  rw [receiver_eq_place, receiver_eq_place, hplace]
  simp only [h.attachedMock]

theorem Frame.receiver (h : Frame w w') (e : EntityRef) : w'.receiver e = w.receiver e := by
  refine h.sameTable.receiver ?_ e
  funext e
  rw [place, place, h.entities]

theorem Frame.next_mocks (h : Frame w w') : w'.mocks.next = w.mocks.next := by rw [h.mocks]

/-- A `find*` call that returns no mock attaches none. -/
theorem find_returns (k : Kind) (T : Interface) (node : NodeId) (name : Name) (w : World) :
    ((∀ m, (find k T node name w).1 ≠ .mock m) ∧ Frame w (find k T node name w).2) ∨
    ∃ e obj, k ≠ .subscription ∧ resolve k node (findName k name) w = some e ∧
      w.entities.get? e = some obj ∧ w.attachedMock obj.this = none ∧
      find k T node name w = makeMock k T e obj (lookup k node (findName k name) w).2 := by
  have hf := lookup_frame k node (findName k name) w
  by_cases hname : rejectsEmpty k = true → name ≠ []
  · by_cases hk : k = .subscription
    · subst hk
      left
      have hne : name ≠ [] := hname rfl
      cases hres : resolve .subscription node (findName .subscription name) w with
      | none =>
        rw [findSubscription_of_unresolved T hne hres]
        exact ⟨nofun, hf⟩
      | some e =>
        obtain ⟨-, obj, hobj⟩ := resolve_eq_some hres
        rw [findSubscription_of_resolve T hne hres hobj]
        refine ⟨fun m => ?_, hf⟩
        split <;> nofun
    · cases hres : resolve k node (findName k name) w with
      | none =>
        left
        rw [find_eq_findMock hk hname, findMock_of_unresolved _ hres]
        exact ⟨nofun, hf⟩
      | some e =>
        obtain ⟨-, obj, hobj⟩ := resolve_eq_some hres
        by_cases hno : (w.attachedMock obj.this).isSome = true ∨
            (obj.interface ≠ T ∧ unchecked k = false)
        · obtain ⟨o, hempty, ho⟩ := find_refused hname hk hres hobj hno
          left
          rw [ho]
          refine ⟨?_, hf⟩
          rintro m rfl
          cases hempty
        · simp only [not_or, not_and, Bool.not_eq_true, Option.isSome_eq_false_iff,
            Option.isNone_iff_eq_none, Bool.not_eq_false] at hno
          have hT : obj.interface = T ∨ unchecked k = true := or_iff_not_imp_left.mpr hno.2
          exact Or.inr ⟨e, obj, hk, rfl, hobj, hno.1, find_makes hname hk hres hobj hno.1 hT⟩
  · obtain ⟨hr, hnil⟩ := Classical.not_imp.mp hname
    have hnil : name = [] := not_not.mp hnil
    subst hnil
    left
    cases k <;> first | exact ⟨nofun, .refl w⟩ | simp [rejectsEmpty] at hr

/-- A `find*` operation hands out a new mock to an entity that had none, and connects the two; or
it hands out nothing and disturbs no one. -/
theorem handsOut_cases (hi : Inv w) (hm : MockInv w) {k : Kind} {T : Interface} {n : NodeRef}
    {name : Name} (hs : w.step (.find k T n name) = some w') :
    (w.handsOut k T n name = none ∧ w'.mocks.next = w.mocks.next ∧
      ∀ e, w'.receiver e = w.receiver e) ∨
    ∃ e, w.handsOut k T n name = some (e, w.mocks.next) ∧ w.receiver e = none ∧
      w'.mocks.next = w.mocks.next + 1 ∧
      ∀ e', w'.receiver e' = if e' = e then some w.mocks.next else w.receiver e' := by
  obtain ⟨hen, rfl⟩ := step_eq_some_iff.mp hs
  obtain ⟨node, hn⟩ := ObjectStore.alive_iff.mp hen
  have hact : w.act (.find k T n name) = (find k T node.controlBlock name w).2 := by
    simp only [act, hn]
  rw [hact]
  obtain ⟨hno, hf⟩ | ⟨e, obj, hk, hres, hobj, hfree, hmakes⟩ :=
    find_returns k T node.controlBlock name w
  · refine Or.inl ⟨?_, hf.next_mocks, hf.receiver⟩
    simp only [handsOut, hn, Option.bind_some]
  · have hf := lookup_frame k node.controlBlock (findName k name) w
    have hkind := resolve_kind hi hres hobj
    have hmockable : mockable obj.kind = true := by rw [hkind]; simpa [mockable] using hk
    obtain ⟨hent, hmocks, htable, -⟩ := makeMock_of_frame hf k T e obj
    rw [← hmakes] at hent hmocks htable
    refine Or.inr ⟨e, ?_, ?_, by rw [hmocks, ObjectStore.next_alloc], fun e' => ?_⟩
    · simp only [handsOut, hn, Option.bind_some, hmakes, makeMock, hf.mocks, hres, Option.map_some]
    · rw [receiver, hobj, Option.bind_some, if_pos hmockable, hfree]
    · rw [receiver, hent, receiver]
      simp only [attachedMock_made hm hmocks htable]
      split
      · next heq => rw [heq, hobj, Option.bind_some, if_pos hmockable, if_pos rfl]
      · next hne =>
        cases hobj' : w.entities.get? e' with
        | none => rfl
        | some obj' =>
          have hthis : obj'.this ≠ obj.this := fun h => hne (hi.addresses e' e obj' obj hobj' hobj h)
          simp only [Option.bind_some, if_neg hthis]

/-- The death of a mock leaves the other receivers alone. -/
theorem receiver_releaseMock (h : Tidy w) {m : MockRef} (hd : DetachesOwn w (.releaseMock m))
    (hs : w.step (.releaseMock m) = some w') (e : EntityRef) :
    w'.receiver e = if w.receiver e = some m then none else w.receiver e := by
  obtain ⟨hen, rfl⟩ := step_eq_some_iff.mp hs
  obtain ⟨mock, hmock⟩ := ObjectStore.alive_iff.mp hen
  have hact : w.act (.releaseMock m) =
      { w with mocks := w.mocks.free m, registry := w.registry.detachMock mock.target } := by
    simp only [act, releaseMock, hmock]
  have hplace : (w.act (.releaseMock m)).place e = w.place e := by
    rw [hact]
    rfl
  rw [receiver_eq_place, receiver_eq_place, hplace, hact]
  cases hp : w.place e with
  | none => simp
  | some p =>
    obtain ⟨k, a⟩ := p
    simp only [Option.bind_some]
    by_cases hk : mockable k = true
    · simp only [if_pos hk]
      rw [attachedMock_released h.mockInv hmock rfl (fun a => getMock_detachMock ..)]
      by_cases ha : a = mock.target
      · -- whatever stood here was the mock itself
        rw [if_pos ha]
        subst ha
        cases hatt : w.attachedMock mock.target with
        | none => simp
        | some m' =>
          suffices heq : m' = m by simp [heq]
          by_contra hne
          obtain ⟨obj, hobj, heq⟩ := Option.map_eq_some_iff.mp hp
          simp only [Prod.mk.injEq] at heq
          obtain ⟨rfl, hthis⟩ := heq
          obtain ⟨-, mock', hmock'⟩ := attachedMock_eq_some_iff.mp hatt
          have htarget := (attachedMock_eq_some_iff.mp hatt).1
          have hown := h.own e obj hobj hk m' mock' (by rw [hthis, hatt]) hmock'
          refine hd mock m' mock' obj hmock hne
            ⟨hmock', h.now _ m' mock' hatt hmock', by rw [hown.1, hobj]⟩ ?_
          exact h.mockInv.table _ m' mock' htarget hmock'
      · rw [if_neg ha, if_neg]
        intro hatt
        exact ha (h.mockInv.table a m mock (attachedMock_eq_some_iff.mp hatt).1 hmock).symm
    · simp [hk]

theorem next_mocks_releaseMock (w : World) (m : MockRef) :
    (w.releaseMock m).mocks.next = w.mocks.next := by
  rw [releaseMock]
  split
  · rfl
  · exact ObjectStore.next_free ..

theorem place_destroyEntity (e₀ e : EntityRef) :
    (w.destroyEntity e₀).place e = if e = e₀ then none else w.place e := by
  simp only [destroyEntity]
  split
  · next hnone =>
    split
    · next heq => rw [place, heq, hnone, Option.map_none]
    · rfl
  · simp only [place, ObjectStore.get?_free]
    split <;> rfl

theorem place_createEntity (k : Kind) (T : Interface) (this : Addr) (n : NodeRef) (node : Node)
    (name : Name) (e : EntityRef) : (w.createEntity k T this n node name).place e =
      if e = w.entities.next then some (k, this) else w.place e := by
  rw [place, entities_createEntity, ObjectStore.get?_alloc]
  split <;> rfl

theorem place_next : w.place w.entities.next = none := by
  rw [place, ObjectStore.get?_eq_none_of_next_le (Nat.le_refl _), Option.map_none]

theorem receiver_destroyEntity (e₀ e : EntityRef) :
    (w.destroyEntity e₀).receiver e = if e = e₀ then none else w.receiver e := by
  rw [receiver_eq_place, place_destroyEntity]
  split
  · rfl
  · have htable : SameTable w (w.destroyEntity e₀) := by
      simp only [destroyEntity]
      split
      · exact .refl w
      · refine ⟨rfl, ?_, rfl⟩
        simp only [removeLazyInit]
        split <;> rfl
    rw [receiver_eq_place]
    simp only [htable.attachedMock]

/-- A new entity finds no mock at its address. -/
theorem receiver_createEntity {k : Kind} {T : Interface} {this : Addr} {n : NodeRef} {name : Name}
    (hc : FreshTarget w (.createEntity k T this n name)) (node : Node) (e : EntityRef) :
    (w.createEntity k T this n node name).receiver e = w.receiver e := by
  rw [receiver_eq_place, place_createEntity, receiver_eq_place]
  simp only [(sameTable_createEntity k T this n node name w).attachedMock]
  split
  · next heq =>
    rw [heq, place_next, Option.bind_some, Option.bind_none]
    split
    · next hk => exact hc hk
    · rfl
  · rfl

theorem place_share (e₀ : EntityRef) : (w.act (.share e₀)).place = w.place := by
  funext e
  simp only [act, place, ObjectStore.get?_modify]
  split
  · rw [Option.map_map]
    rfl
  · rfl

end World

-- ════════════════════════════════════════════════════════════════════════
-- Sessions run as their switchboards
-- ════════════════════════════════════════════════════════════════════════

namespace Session

variable {s s' : Session α} {ev : Event α} {evs : List (Event α)}
  {b : Board EntityRef MockRef (Method × α)}

/-- The operations of the run mistake nothing dead for something living, and look clients up under
their own type. -/
def Meets (s : Session α) : Event α → Prop
  | .op op => s.world.Meets op
  | .call _ _ => True

/-- The board shows the session: who receives whose calls, and what has been recorded. -/
structure Refines (s : Session α) (b : Board EntityRef MockRef (Method × α)) : Prop where
  station : ∀ e, b.station e = s.world.receiver e
  seen : ∀ m ∈ b.seen, m < s.world.mocks.next
  heard : b.heard = s.received

theorem step_eq_some_iff : s.step ev = some s' ↔ s.enabled ev = true ∧ s.act ev = s' := by
  simp [step]

theorem refines_start : Refines (start : Session α) Board.empty where
  station := fun e => rfl
  seen := by intro m h; cases h
  heard := rfl

/-- An operation that makes no mock, given what it does to the receivers. -/
theorem Refines.of_receiver (h : Refines s b) {w' : World}
    {b' : Board EntityRef MockRef (Method × α)} (hstation : ∀ e, b'.station e = w'.receiver e)
    (hseen : b'.seen = b.seen) (hheard : b'.heard = b.heard)
    (hnext : w'.mocks.next = s.world.mocks.next) : Refines ⟨w', s.received⟩ b' where
  station := hstation
  seen := fun m hm => by rw [hnext]; exact h.seen m (by rwa [← hseen])
  heard := by rw [hheard, h.heard]

/-- Most operations change no receiver and make no mock. -/
theorem Refines.idle (h : Refines s b) {op : Op} {w' : World}
    (hrec : ∀ e, w'.receiver e = s.world.receiver e)
    (hnext : w'.mocks.next = s.world.mocks.next)
    (hsig : signal s.world (.op op : Event α) = .idle) :
    ∃ b', Switchboard.step b (signal s.world (.op op)) = some b' ∧
      Refines (⟨w', s.received⟩ : Session α) b' := by
  refine ⟨b, by rw [hsig]; rfl, h.of_receiver (fun e => ?_) rfl rfl hnext⟩
  rw [h.station, hrec]

theorem Refines.find (h : Refines s b) (ht : Tidy s.world) {k : Kind} {T : Interface} {n : NodeRef}
    {name : Name} {w' : World} (hs : s.world.step (.find k T n name) = some w') :
    ∃ b', Switchboard.step b (signal s.world (.op (.find k T n name))) = some b' ∧
      Refines (⟨w', s.received⟩ : Session α) b' := by
  obtain ⟨hnone, hnext, hrec⟩ | ⟨e, hsome, hfree, hnext, hrec⟩ :=
    handsOut_cases ht.inv ht.mockInv hs
  · exact h.idle hrec hnext (by simp only [signal, hnone])
  · have hsig : signal s.world (.op (.find k T n name) : Event α) =
        .connect e s.world.mocks.next := by simp only [signal, hsome]
    have hnew : s.world.mocks.next ∉ b.seen := fun hm => Nat.lt_irrefl _ (h.seen _ hm)
    refine ⟨Switchboard.act b (.connect e s.world.mocks.next), ?_, ?_⟩
    · rw [hsig]
      exact Switchboard.step_eq_some_iff.mpr
        ⟨by simp [Switchboard.enabled, h.station, hfree, hnew], rfl⟩
    · constructor
      · intro e'
        simp only [Switchboard.act, Function.update_apply, h.station, hrec]
      · intro m hm
        rw [hnext]
        obtain rfl | hm := List.mem_cons.mp hm
        · exact Nat.lt_succ_self _
        · exact Nat.lt_succ_of_lt (h.seen m hm)
      · exact h.heard

theorem Refines.op (h : Refines s b) (ht : Tidy s.world) {op : Op} (hc : s.world.Meets op)
    {w' : World} (hs : s.world.step op = some w') :
    ∃ b', Switchboard.step b (signal s.world (.op op)) = some b' ∧
      Refines (⟨w', s.received⟩ : Session α) b' := by
  obtain ⟨hen, hact⟩ := World.step_eq_some_iff.mp hs
  cases op with
  | createNode | destroyNode | destroyTimer | call =>
    subst hact
    exact h.idle (fun _ => rfl) rfl rfl
  | createEntity k T this n name =>
    simp only [World.enabled, Bool.and_eq_true] at hen
    obtain ⟨node, hn⟩ := ObjectStore.alive_iff.mp hen.1
    simp only [World.act, hn] at hact
    subst hact
    exact h.idle (receiver_createEntity hc.1 node)
      (by rw [(sameTable_createEntity k T this n node name s.world).mocks]) rfl
  | share e =>
    have htable : SameTable s.world w' := by
      rw [← hact]
      exact ⟨rfl, rfl, rfl⟩
    refine h.idle (htable.receiver ?_) (by rw [htable.mocks]) rfl
    rw [← hact, place_share]
  | destroyEntity e =>
    have hact : s.world.destroyEntity e = w' := hact
    refine ⟨_, rfl, h.of_receiver (fun e' => ?_) rfl rfl ?_⟩
    · rw [← hact, receiver_destroyEntity]
      simp only [signal, Switchboard.act, Function.update_apply, h.station]
    · rw [← hact]
      simp only [destroyEntity]
      split <;> rfl
  | createTimer n =>
    obtain ⟨node, hn⟩ := ObjectStore.alive_iff.mp hen
    simp only [World.act, hn] at hact
    subst hact
    exact h.idle (fun _ => rfl) rfl rfl
  | lookup k n name =>
    obtain ⟨node, hn⟩ := ObjectStore.alive_iff.mp hen
    simp only [World.act, hn] at hact
    subst hact
    have hf := lookup_frame k node.controlBlock name s.world
    exact h.idle hf.receiver hf.next_mocks rfl
  | find k T n name => exact h.find ht hs
  | releaseMock m =>
    refine ⟨_, rfl, h.of_receiver (fun e => ?_) rfl rfl ?_⟩
    · rw [receiver_releaseMock ht hc.2 hs]
      simp only [signal, Switchboard.act, h.station]
    · rw [← hact]
      exact next_mocks_releaseMock s.world m
  | reset =>
    subst hact
    refine ⟨_, rfl, h.of_receiver (fun e => ?_) rfl rfl rfl⟩
    symm
    rw [receiver_eq_place]
    have hnone : ∀ a, (s.world.act .reset).attachedMock a = none := fun _ => rfl
    simp only [hnone, ite_self]
    cases (s.world.act .reset).place e <;> rfl

theorem Refines.call (h : Refines s b) (e : EntityRef) (c : Call α) :
    ∃ b', Switchboard.step b (signal s.world (.call e c)) = some b' ∧
      Refines (s.call e c).2 b' := by
  simp only [signal, Session.call]
  cases c.forwarded with
  | error what => exact ⟨b, rfl, h⟩
  | ok x =>
    refine ⟨_, rfl, ?_⟩
    have hstation := h.station e
    cases hrec : s.world.receiver e with
    | none =>
      refine ⟨h.station, h.seen, ?_⟩
      simp [Switchboard.act, hstation, hrec, h.heard]
    | some m =>
      refine ⟨h.station, h.seen, ?_⟩
      simp [Switchboard.act, hstation, hrec, h.heard]

/-- A session whose operations meet the condition takes each step as its board takes the signal of
the step. -/
theorem Refines.step (h : Refines s b) (ht : Tidy s.world) (hc : s.Meets ev)
    (hs : s.step ev = some s') :
    Tidy s'.world ∧
      ∃ b', Switchboard.step b (signal s.world ev) = some b' ∧ Refines s' b' := by
  obtain ⟨hen, rfl⟩ := step_eq_some_iff.mp hs
  cases ev with
  | op op =>
    have hop : s.world.step op = some (s.world.act op) := World.step_eq_some_iff.mpr ⟨hen, rfl⟩
    exact ⟨ht.step hc.1 hop, h.op ht hc hop⟩
  | call e c =>
    refine ⟨?_, h.call e c⟩
    simp only [act, Session.call]
    split
    · exact ht
    · split <;> exact ht

/-- **Refinement.** A session runs as its switchboard does. -/
theorem Refines.run (h : Refines s b) (ht : Tidy s.world)
    (hc : Runs.EachStep Session.step Meets s evs) (hrun : Runs.run Session.step s evs = some s') :
    ∃ b', Runs.run Switchboard.step b (s.signals evs) = some b' ∧ Refines s' b' := by
  induction evs generalizing s b with
  | nil =>
    cases hrun
    exact ⟨b, rfl, h⟩
  | cons ev evs ih =>
    obtain ⟨u, hu, hrest⟩ := Runs.run_cons_eq_some_iff.mp hrun
    have hfirst : s.Meets ev := hc [] ev s (List.prefix_append [ev] evs) rfl
    obtain ⟨htu, c, hbc, huc⟩ := h.step ht hfirst hu
    obtain ⟨b', hrun', hs'⟩ := ih huc htu (hc.tail hu) hrest
    obtain ⟨-, rfl⟩ := step_eq_some_iff.mp hu
    refine ⟨b', ?_, hs'⟩
    rw [signals, Runs.run_cons, hbc, Option.bind_some, hrun']

theorem signals_append (s : Session α) {u : Session α} {pre : List (Event α)}
    (h : Runs.run Session.step s pre = some u) (post : List (Event α)) :
    s.signals (pre ++ post) = s.signals pre ++ u.signals post := by
  induction pre generalizing s with
  | nil =>
    cases h
    rfl
  | cons ev pre ih =>
    obtain ⟨v, hv, hrest⟩ := Runs.run_cons_eq_some_iff.mp h
    obtain ⟨-, rfl⟩ := step_eq_some_iff.mp hv
    rw [List.cons_append, signals, signals, ih _ hrest, List.cons_append]

theorem ends_signal (e : EntityRef) (m : MockRef) (w : World) (ev : Event α) :
    Switchboard.ends e m (signal w ev) = ev.ends e m := by
  cases ev with
  | op op =>
    cases op with
    | find k T n name =>
      simp only [signal]
      split <;> rfl
    | _ => rfl
  | call e' c =>
    simp only [signal]
    split <;> rfl

theorem sentOn_signal (e : EntityRef) (w : World) (ev : Event α) :
    sentOn e (signal w ev) = ev.callOn e := by
  cases ev with
  | op op =>
    cases op with
    | find k T n name =>
      simp only [signal]
      split <;> rfl
    | _ => rfl
  | call e' c =>
    simp only [signal, Event.callOn]
    split
    · next x heq => simp [sentOn, heq, Except.toOption]
    · next what heq => simp [sentOn, heq, Except.toOption]

/-- What ends a connection, and what is sent on it, shows in the events themselves. -/
theorem heard_signals (e : EntityRef) (m : MockRef) (s : Session α) (evs : List (Event α)) :
    Switchboard.heard e m (s.signals evs) =
      (evs.takeWhile fun ev => !ev.ends e m).filterMap (Event.callOn e) := by
  induction evs generalizing s with
  | nil => rfl
  | cons ev evs ih =>
    have hrest := ih (s.act ev)
    rw [heard] at hrest
    rw [signals, heard, List.takeWhile_cons, List.takeWhile_cons, ends_signal]
    split
    · rw [List.filterMap_cons, List.filterMap_cons, sentOn_signal, hrest]
    · rfl

end Session

/-- A publisher and its mock; the second message is published once the mock is gone. -/
def firstMessage : List (Event String) :=
  [.op (.createNode ⟨1, 100, "/".toList, "node".toList⟩),
    .op (.createEntity .publisher 7 10 0 "/topic".toList)]

def afterFind : List (Event String) :=
  [.call 0 (.publish (.constRef "one")), .op (.releaseMock 0),
    .call 0 (.publish (.uniquePtr "two"))]

/-- The session a run from a fresh process ends in. -/
def Session.after (evs : List (Event String)) : Session String :=
  (Runs.run Session.step .start evs).getD .start

theorem meets_firstMessage : Runs.EachStep Session.step Session.Meets .start
    (firstMessage ++ .op (.find .publisher 7 0 "topic".toList) :: afterFind) := by
  rw [Runs.eachStep_iff_getElem]
  intro i ev s hev hs
  match i with
  | 0 => cases hev; exact ⟨trivial, trivial⟩
  | 1 =>
    cases hev
    refine ⟨fun _ => ?_, trivial⟩
    have h := congrArg (Option.map fun s => s.world.attachedMock 10) hs
    exact (Option.some.inj h).symm
  | 2 => cases hev; exact ⟨nofun, trivial⟩
  | 3 => cases hev; trivial
  | 4 =>
    cases hev
    refine ⟨trivial, fun mock m' mock' obj hmock hne hh => ?_⟩
    -- there is one mock only
    have h := congrArg (Option.map fun s => s.world.mocks.next) hs
    have hnext : s.world.mocks.next = 1 := (Option.some.inj h).symm
    have hlt := ObjectStore.lt_next_of_get? hh.1
    rw [hnext] at hlt
    exact absurd (Nat.lt_one_iff.mp hlt) hne
  | 5 => cases hev; trivial

example : (afterFind.takeWhile fun ev => !ev.ends 0 0).filterMap (Event.callOn 0) =
    [(.publish, "one")] := by decide

end Rtest
