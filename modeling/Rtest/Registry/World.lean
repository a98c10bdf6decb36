import Rtest.Foundations.Runs
import Rtest.Registry.StaticMocksRegistry

/-!
# A test program and its registry

The system the registry lives in: nodes, entities, timers and mocks with their lifetimes, the
registry, and every operation of a test program that reaches it. Addresses and control blocks are
resources: `enabled` says when one may be given to a new object, and so when it may be given to
a second one.

`History` is not part of the program. It records what was handed to the registry, in order, so
that what the registry answers can be compared with it.

## Main definitions

- `World` — objects, registry, history
- `World.findPublisher` and its siblings — the `find*` functions of the mock headers
- `Op`, `World.enabled`, `World.act`, `World.step` — the operations and their effect
-/

namespace Rtest

open StaticMocksRegistry

/-- `MessageT`, `ServiceT` or `ActionT`, by its type index. -/
abbrev Interface := ℕ

/-- A node: its rcl handle (a control block and the address it manages) and its name. -/
structure Node where
  controlBlock : NodeId
  handle : Addr
  nodeNamespace : Name
  name : Name
  deriving DecidableEq, Repr

/-- `get_fully_qualified_name()`. -/
def Node.fullyQualifiedName (n : Node) : Name :=
  if n.nodeNamespace = ['/'] then '/' :: n.name else n.nodeNamespace ++ '/' :: n.name

/-- A publisher, subscription, service, client, action server or action client. `node` is the
node it was created by and `nodeId` the handle it keeps of it; `name` is what it registers under:
`get_topic_name()`, `service_name_` or `action_name_`. `shared` tells whether a `shared_ptr` owns
it already, which is what `shared_from_this()` asks. -/
structure Entity where
  kind : Kind
  interface : Interface
  this : Addr
  node : NodeRef
  nodeId : NodeId
  name : Name
  shared : Bool
  deriving DecidableEq, Repr

/-- `PublisherMock<T>`, `ServiceMock<T>` and so on: `kind` and `interface` are its type and
`target` the raw address it was built with. `createdFor` and `round` (the resets before it) are
history. -/
structure Mock where
  kind : Kind
  interface : Interface
  target : Addr
  createdFor : EntityRef
  round : ℕ
  deriving DecidableEq, Repr

/-- How an init callback ended. -/
inductive InitOutcome where
  | registered
  | badWeakPtr
  | useAfterFree
  deriving DecidableEq, Repr

/-- One call of a `register*` function for an entity, with the name it used as key. -/
structure Registration where
  kind : Kind
  node : NodeRef
  nodeId : NodeId
  name : Name
  entity : EntityRef
  deriving DecidableEq, Repr

/-- One call of `registerTimer`. -/
structure TimerRegistration where
  node : NodeRef
  nodeId : NodeId
  timer : TimerRef
  deriving DecidableEq, Repr

/-- What has happened: registrations and constructions of action entities since the last reset,
oldest first; every init callback ever invoked; the number of resets. -/
structure History where
  registrations : List Registration
  timerRegistrations : List TimerRegistration
  constructions : Kind → List EntityRef
  initCalls : List (EntityRef × InitOutcome)
  resets : ℕ

/-- `handles` are the rcl handles by control block: the node each was made for last. -/
structure World where
  nodes : ObjectStore Node
  handles : NodeId → Option (NodeRef × Node)
  entities : ObjectStore Entity
  timers : ObjectStore Unit
  mocks : ObjectStore Mock
  registry : StaticMocksRegistry
  history : History

/-- Why a `find*` call throws. -/
inductive FindError where
  | emptyTopicName
  | otherServiceType (T : Interface)
  | invalidActionType
  deriving DecidableEq, Repr

/-- The exception's type and `what()`. -/
def FindError.what (prettyName : Interface → String) : FindError → String × String
  | emptyTopicName => ("std::invalid_argument", "Topic name must not be empty")
  | otherServiceType T => ("std::runtime_error",
      "Attempt to create ServiceMock for a different service type than: " ++ prettyName T)
  | invalidActionType => ("std::invalid_argument",
      "ActionServerMock error: server is type with invalid ActionT type")

/-- What a `find*` call ends in. `alreadyAttached` and `notFound` are the two ways it returns a
null pointer. -/
inductive FindOutcome where
  | mock (m : MockRef)
  | subscription (e : EntityRef)
  | alreadyAttached
  | notFound
  | threw (error : FindError)
  deriving DecidableEq, Repr

/-- The call hands out neither a mock nor a subscription. -/
def FindOutcome.isEmpty : FindOutcome → Bool
  | mock _ | subscription _ => false
  | _ => true

namespace World

/-- A process in which nothing has been created. -/
def init : World :=
  { nodes := .empty, handles := fun _ => none, entities := .empty, timers := .empty
    mocks := .empty
    registry := .empty
    history := ⟨[], [], fun _ => [], [], 0⟩ }

-- ════════════════════════════════════════════════════════════════════════
-- Registering an entity
-- ════════════════════════════════════════════════════════════════════════

/-- The `register*` function for a kind. -/
def registerFor {α : Type} (k : Kind) (entities : ObjectStore α) (node : NodeId) (name : Name)
    (e : WeakPtr) (reg : StaticMocksRegistry) : StaticMocksRegistry :=
  match k with
  | .publisher => registerPublisher entities node name e reg
  | .subscription => registerSubscription entities node name e reg
  | .service => registerService entities node name e reg
  | .serviceClient => registerServiceClient entities node name e reg
  | .actionServer => registerActionServer entities node name e reg
  | .actionClient => registerActionClient entities node name e reg

/-- The key a name is registered under. -/
def registerName : Kind → Name → Name
  | .service, name | .serviceClient, name => skipSlash name
  | _, name => name

/-- `post_init_setup` of the entity `e`. -/
def postInitSetup (e : EntityRef) (obj : Entity) (w : World) : World :=
  { w with
    registry := registerFor obj.kind w.entities obj.nodeId obj.name (some e) w.registry
    history := { w.history with registrations := w.history.registrations ++
      [⟨obj.kind, obj.node, obj.nodeId, registerName obj.kind obj.name, e⟩] } }

/-- Invoke the init callback of a pending action entity: `this->post_init_setup()`, whose
`shared_from_this()` throws before anything is registered if nothing shares the object yet. -/
def initCallback (e : EntityRef) (w : World) : InitOutcome × World :=
  let invoked (outcome : InitOutcome) (w : World) : World :=
    { w with history :=
        { w.history with initCalls := w.history.initCalls ++ [(e, outcome)] } }
  match w.entities.get? e with
  | none => (.useAfterFree, invoked .useAfterFree w)
  | some obj =>
    if obj.shared then (.registered, invoked .registered (postInitSetup e obj w))
    else (.badWeakPtr, invoked .badWeakPtr w)

/-- The loop of `tryLazyInit` with `it` between the two parts of the vector: an entry whose
callback returns is erased, one whose callback throws is passed over. -/
def tryLazyInitLoop (passed : List LazyInitEntry) :
    List LazyInitEntry → World → List LazyInitEntry × World
  | [], w => (passed, w)
  | it :: rest, w =>
    match initCallback it.initCallback w with
    | (.registered, w) => tryLazyInitLoop passed rest w
    | (_, w) => tryLazyInitLoop (passed ++ [it]) rest w

/-- `tryLazyInit`. -/
def tryLazyInit (k : Kind) (w : World) : World :=
  let (pending, w) := tryLazyInitLoop [] (w.registry.lazyInit k) w
  { w with
    registry := { w.registry with lazyInit := Function.update w.registry.lazyInit k pending } }

-- ════════════════════════════════════════════════════════════════════════
-- Looking up an entity
-- ════════════════════════════════════════════════════════════════════════

/-- The `get*` function for a kind. -/
def getFor (k : Kind) (node : NodeId) (name : Name) (reg : StaticMocksRegistry) :
    WeakPtr × StaticMocksRegistry :=
  match k with
  | .publisher => getPublisher node name reg
  | .subscription => getSubscription node name reg
  | .service => getService node name reg
  | .serviceClient => getServiceClient node name reg
  | .actionServer => getActionServer node name reg
  | .actionClient => getActionClient node name reg

@[simp] theorem getFor_eq (k : Kind) (node : NodeId) (name : Name) (reg : StaticMocksRegistry) :
    getFor k node name reg = reg.getUnder k node name := by
  cases k <;> rfl

/-- A call of the `get*` function for a kind; those for actions first serve the pending
entities. -/
def lookup (k : Kind) (node : NodeId) (name : Name) (w : World) : WeakPtr × World :=
  let w := if k.isAction then tryLazyInit k w else w
  let found := getFor k node name w.registry
  (found.1, { w with registry := found.2 })

/-- `getMock(ptr).lock()`. -/
def attachedMock (w : World) (ptr : Addr) : Option MockRef := w.mocks.lock (w.registry.getMock ptr)

/-- How a `find*` function checks that the entity was created for the type asked for: by a
`dynamic_cast` of the entity, by one in the mock's constructor, which throws, or not. -/
inductive TypeCheck where
  | castFirst
  | throwing (error : FindError)
  | unchecked
  deriving DecidableEq, Repr

/-- `std::make_shared<Mock>(entity)` and `attachMock(entity, mock)`. -/
def makeMock (k : Kind) (T : Interface) (e : EntityRef) (obj : Entity) (w : World) :
    FindOutcome × World :=
  (.mock w.mocks.next,
    { w with
      mocks := w.mocks.alloc ⟨k, T, obj.this, e, w.history.resets⟩
      registry := w.registry.attachMock obj.this (some w.mocks.next) })

/-- What the five `find*` functions that return a mock share. -/
def findMock (k : Kind) (check : TypeCheck) (T : Interface) (node : NodeId) (name : Name)
    (w : World) : FindOutcome × World :=
  let (base, w) := lookup k node name w
  match w.entities.lock base with
  | none => (.notFound, w)
  | some e =>
    match w.entities.get? e with
    | none => (.notFound, w)
    | some obj =>
      if check = .castFirst ∧ obj.interface ≠ T then (.notFound, w)
      else if (w.attachedMock obj.this).isSome then (.alreadyAttached, w)
      else
        match check with
        | .throwing error =>
          if obj.interface ≠ T then (.threw error, w) else makeMock k T e obj w
        | _ => makeMock k T e obj w

/-- `findPublisher` and `findSubscription` put a slash before a name that has none. -/
def prefixSlash : Name → Name
  | '/' :: name => '/' :: name
  | name => '/' :: name

section Find

variable (T : Interface) (node : NodeId) (name : Name) (w : World)

def findPublisher : FindOutcome × World :=
  if name = [] then (.threw .emptyTopicName, w)
  else findMock .publisher .castFirst T node (prefixSlash name) w

/-- The subscription itself is returned, cast to `Subscription<T>`; there is no mock. -/
def findSubscription : FindOutcome × World :=
  if name = [] then (.threw .emptyTopicName, w)
  else
    let (base, w) := lookup .subscription node (prefixSlash name) w
    match w.entities.lock base with
    | none => (.notFound, w)
    | some e =>
      if (w.entities.get? e).any fun obj => obj.interface = T then (.subscription e, w)
      else (.notFound, w)

def findService : FindOutcome × World :=
  findMock .service (.throwing (.otherServiceType T)) T node (skipSlash name) w

def findServiceClient : FindOutcome × World :=
  findMock .serviceClient .unchecked T node (skipSlash name) w

def findActionServer : FindOutcome × World :=
  findMock .actionServer (.throwing .invalidActionType) T node name w

def findActionClient : FindOutcome × World :=
  findMock .actionClient .unchecked T node name w

end Find

/-- The `find*` function for a kind. -/
def find (k : Kind) (T : Interface) (node : NodeId) (name : Name) (w : World) :
    FindOutcome × World :=
  match k with
  | .publisher => findPublisher T node name w
  | .subscription => findSubscription T node name w
  | .service => findService T node name w
  | .serviceClient => findServiceClient T node name w
  | .actionServer => findActionServer T node name w
  | .actionClient => findActionClient T node name w

-- ════════════════════════════════════════════════════════════════════════
-- Births, deaths, reset
-- ════════════════════════════════════════════════════════════════════════

/-- Create a node, with an rcl handle of its own. -/
def createNode (node : Node) (w : World) : World :=
  { w with
    nodes := w.nodes.alloc node
    handles := Function.update w.handles node.controlBlock (some (w.nodes.next, node)) }

/-- Create an entity on the node `n`. A publisher, subscription, service or service client is made
by `make_shared` and set up at once; the constructor of an action entity only puts it on the
pending list. -/
def createEntity (k : Kind) (T : Interface) (this : Addr) (n : NodeRef) (node : Node) (name : Name)
    (w : World) : World :=
  let e := w.entities.next
  let obj : Entity := ⟨k, T, this, n, node.controlBlock, name, !k.isAction⟩
  let w := { w with entities := w.entities.alloc obj }
  if k.isAction then
    { w with
      registry := w.registry.registerLazyInit k ⟨this, node.fullyQualifiedName, name, e⟩
      history := { w.history with
        constructions :=
          Function.update w.history.constructions k (w.history.constructions k ++ [e]) } }
  else postInitSetup e obj w

/-- Destroy an entity. `~Server()` and `~Client()` of the action headers take it off the pending
list; the other destructors leave the registry alone. -/
def destroyEntity (e : EntityRef) (w : World) : World :=
  match w.entities.get? e with
  | none => w
  | some obj =>
    { w with
      entities := w.entities.free e
      registry := if obj.kind.isAction then w.registry.removeLazyInit obj.kind obj.this
        else w.registry }

/-- Create a timer and register it: `create_timer`, `create_wall_timer`. -/
def createTimer (n : NodeRef) (node : Node) (w : World) : World :=
  { w with
    timers := w.timers.alloc ()
    registry := w.registry.registerTimer node.controlBlock (some w.timers.next)
    history := { w.history with timerRegistrations := w.history.timerRegistrations ++
      [⟨n, node.controlBlock, w.timers.next⟩] } }

/-- Release the last reference to a mock: its destructor detaches whatever is attached at the
address it was built with. -/
def releaseMock (m : MockRef) (w : World) : World :=
  match w.mocks.get? m with
  | none => w
  | some mock =>
    { w with mocks := w.mocks.free m, registry := w.registry.detachMock mock.target }

/-- `reset()`, as at the end of every test suite. -/
def reset (w : World) : World :=
  { w with
    registry := w.registry.reset
    history := { w.history with
      registrations := [], timerRegistrations := [], constructions := fun _ => []
      resets := w.history.resets + 1 } }

end World

-- ════════════════════════════════════════════════════════════════════════
-- The operations of a test program
-- ════════════════════════════════════════════════════════════════════════

/-- What a test program can do next. -/
inductive Op where
  | createNode (node : Node)
  | destroyNode (n : NodeRef)
  | createEntity (k : Kind) (T : Interface) (this : Addr) (n : NodeRef) (name : Name)
  | share (e : EntityRef)
  | destroyEntity (e : EntityRef)
  | createTimer (n : NodeRef)
  | destroyTimer (t : TimerRef)
  | lookup (k : Kind) (n : NodeRef) (name : Name)
  | find (k : Kind) (T : Interface) (n : NodeRef) (name : Name)
  | releaseMock (m : MockRef)
  | call (e : EntityRef)
  | reset
  deriving DecidableEq, Repr

namespace World

/-- When an operation is possible: its objects are alive, and what it allocates is free. The
control block of a node is free once nothing refers to it: neither a live node nor a key of the
registry. An action entity shares ownership of its node, so the node is not destroyed before it. -/
def enabled (w : World) : Op → Bool
  | .createNode node =>
    (w.nodes.all fun other => other.controlBlock ≠ node.controlBlock) &&
      !w.registry.keeps node.controlBlock
  | .destroyNode n =>
    w.nodes.alive n && w.entities.all fun obj => !(obj.kind.isAction && obj.node = n)
  | .createEntity _ _ this n _ => w.nodes.alive n && w.entities.all fun obj => obj.this ≠ this
  | .share e => w.entities.alive e
  | .destroyEntity e => w.entities.alive e
  | .createTimer n => w.nodes.alive n
  | .destroyTimer t => w.timers.alive t
  | .lookup _ n _ => w.nodes.alive n
  | .find _ _ n _ => w.nodes.alive n
  | .releaseMock m => w.mocks.alive m
  | .call e => w.entities.alive e
  | .reset => true

/-- What an operation does. -/
def act (w : World) : Op → World
  | .createNode node => w.createNode node
  | .destroyNode n => { w with nodes := w.nodes.free n }
  | .createEntity k T this n name =>
    match w.nodes.get? n with
    | some node => w.createEntity k T this n node name
    | none => w
  | .share e => { w with entities := w.entities.modify e fun obj => { obj with shared := true } }
  | .destroyEntity e => w.destroyEntity e
  | .createTimer n =>
    match w.nodes.get? n with
    | some node => w.createTimer n node
    | none => w
  | .destroyTimer t => { w with timers := w.timers.free t }
  | .lookup k n name =>
    match w.nodes.get? n with
    | some node => (w.lookup k node.controlBlock name).2
    | none => w
  | .find k T n name =>
    match w.nodes.get? n with
    | some node => (w.find k T node.controlBlock name).2
    | none => w
  | .releaseMock m => w.releaseMock m
  -- a call on an entity asks for its mock and changes nothing itself
  | .call _ => w
  | .reset => w.reset

/-- One operation of a test program. -/
def step (w : World) (op : Op) : Option World := if w.enabled op then some (w.act op) else none

/-- `w` is reached from a fresh process by some run. -/
def Reachable (w : World) : Prop := ∃ ops, Runs.run step init ops = some w

/-- The world a run from a fresh process ends in. -/
def after (ops : List Op) : World := (Runs.run step init ops).getD init

theorem run_after {ops : List Op} (h : (Runs.run step init ops).isSome = true) :
    Runs.run step init ops = some (after ops) := by
  obtain ⟨w, hw⟩ := Option.isSome_iff_exists.mp h
  rw [after, hw]
  rfl

end World

end Rtest
