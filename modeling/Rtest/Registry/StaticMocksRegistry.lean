import Std.Data.ExtTreeMap
import Mathlib.Data.Char
import Mathlib.Logic.Function.Basic
import Rtest.Foundations.ObjectStore

/-!
# The static registry

`StaticMocksRegistry`: the maps through which a test finds what a node has created. Every
`std::map` of the source is an ordered map here, a `weak_ptr` is a `WeakPtr`, and a node is known
by the control block of its rcl handle, which is what `std::owner_less` compares.

The six maps looked up by name differ only in the kind of entity they hold, so they are one
member indexed by `Kind`; likewise the two lists of pending action entities.

## Main definitions

- `StaticMocksRegistry` and its operations, under the source's names
- `StaticMocksRegistry.slot` — what the registry holds under a kind, a node and a name
-/

open Std (ExtTreeMap)

namespace Rtest

/-- A `std::string`, as its characters. -/
abbrev Name := List Char

/-- A raw object address. -/
abbrev Addr := ℕ

/-- The control block of a node's rcl handle: all that `NodeId`, compared by `owner_less`,
distinguishes. -/
abbrev NodeId := ℕ

/-- The identities of objects (their births, not their addresses). -/
abbrev EntityRef := ℕ
@[inherit_doc EntityRef] abbrev MockRef := ℕ
@[inherit_doc EntityRef] abbrev TimerRef := ℕ
@[inherit_doc EntityRef] abbrev NodeRef := ℕ

/-- The kinds of entity the registry looks up by name. -/
inductive Kind where
  | publisher
  | subscription
  | service
  | serviceClient
  | actionServer
  | actionClient
  deriving DecidableEq, Repr

namespace Kind

/-- Every kind. -/
def all : List Kind :=
  [publisher, subscription, service, serviceClient, actionServer, actionClient]

theorem mem_all (k : Kind) : k ∈ all := by
  cases k <;> decide

/-- Action servers and clients, which register lazily. -/
def isAction : Kind → Bool
  | actionServer | actionClient => true
  | _ => false

end Kind

/-- The entities of one node and kind, by name: `TopicToPublishersMapT` and its siblings. -/
abbrev Entries := ExtTreeMap Name WeakPtr compare

/-- `NodeRegistry<EntriesT>`. -/
abbrev NodeRegistry (ε : Type) := ExtTreeMap NodeId ε compare

/-- A pending action entity. The callback captures the object's `this`, so it is the callback of
one object's lifetime: `initCallback` is that object. -/
structure LazyInitEntry where
  rawPtr : Addr
  nodeName : Name
  actionName : Name
  initCallback : EntityRef
  deriving DecidableEq, Repr

/-- The registry. `entityRegistry` stands for `publishersRegistry_`, `subscriptionsRegistry_`,
`servicesRegistry_`, `serviceClientsRegistry_`, `actionServersRegistry_` and
`actionClientsRegistry_`; `lazyInit` for `lazy_init_action_servers_` and
`lazy_init_action_clients_` (and is empty at the other kinds). -/
structure StaticMocksRegistry where
  entityRegistry : Kind → NodeRegistry Entries
  timersRegistry : NodeRegistry (List WeakPtr)
  mockRegistry : ExtTreeMap Addr WeakPtr compare
  lazyInit : Kind → List LazyInitEntry

namespace StaticMocksRegistry

/-- The registry of a fresh process. -/
def empty : StaticMocksRegistry :=
  { entityRegistry := fun _ => ∅, timersRegistry := ∅, mockRegistry := ∅, lazyInit := fun _ => [] }

-- ════════════════════════════════════════════════════════════════════════
-- The two private templates
-- ════════════════════════════════════════════════════════════════════════

/-- `registerEntity`: take the slot unless its holder is alive. `reg[topicName]` builds a missing
entry as an empty weak pointer. -/
def registerEntity {α : Type} (entities : ObjectStore α) (reg : Entries) (topicName : Name)
    (e : WeakPtr) : Entries :=
  let reg := reg.insertIfNew topicName none
  if (entities.lock (reg.getD topicName none)).isNone then reg.insert topicName e else reg

/-- `findEntity`: the mapped value, or a default-constructed one. -/
def findEntity {κ β : Type} [Ord κ] [Std.TransOrd κ] [Inhabited β]
    (reg : ExtTreeMap κ β compare) (key : κ) : β :=
  match reg[key]? with
  | some it => it
  | none => default

-- ════════════════════════════════════════════════════════════════════════
-- Registration and lookup by name
-- ════════════════════════════════════════════════════════════════════════

/-- `registerEntity(xRegistry_[node], name, e)`. -/
def registerUnder {α : Type} (k : Kind) (entities : ObjectStore α) (node : NodeId) (name : Name)
    (e : WeakPtr) (reg : StaticMocksRegistry) : StaticMocksRegistry :=
  let forNode := (reg.entityRegistry k).getD node ∅
  { reg with entityRegistry := Function.update reg.entityRegistry k <|
      (reg.entityRegistry k).insert node (registerEntity entities forNode name e) }

/-- `findEntity(xRegistry_[node], name)`; the subscript leaves an entry for the node behind. -/
def getUnder (k : Kind) (node : NodeId) (name : Name) (reg : StaticMocksRegistry) :
    WeakPtr × StaticMocksRegistry :=
  (findEntity ((reg.entityRegistry k).getD node ∅) name,
    { reg with entityRegistry := Function.update reg.entityRegistry k <|
        (reg.entityRegistry k).insertIfNew node ∅ })

/-- One leading slash is skipped: `namePtr++` in `registerService` and `registerServiceClient`,
`serviceName.erase(0, 1)` in `findService` and `findServiceClient`. -/
def skipSlash : Name → Name
  | '/' :: name => name
  | name => name

section Members

variable {α : Type} (entities : ObjectStore α) (node : NodeId) (name : Name) (e : WeakPtr)
  (reg : StaticMocksRegistry)

def registerPublisher := registerUnder .publisher entities node name e reg
def registerSubscription := registerUnder .subscription entities node name e reg
def registerService := registerUnder .service entities node (skipSlash name) e reg
def registerServiceClient := registerUnder .serviceClient entities node (skipSlash name) e reg
def registerActionServer := registerUnder .actionServer entities node name e reg
def registerActionClient := registerUnder .actionClient entities node name e reg

def getPublisher := getUnder .publisher node name reg
def getSubscription := getUnder .subscription node name reg
def getService := getUnder .service node name reg
def getServiceClient := getUnder .serviceClient node name reg

/-- The end of `getActionServer`, after the pending servers have been served. -/
def getActionServer := getUnder .actionServer node name reg

/-- The end of `getActionClient`, after the pending clients have been served. -/
def getActionClient := getUnder .actionClient node name reg

end Members

-- ════════════════════════════════════════════════════════════════════════
-- Timers
-- ════════════════════════════════════════════════════════════════════════

/-- `registerTimer`. -/
def registerTimer (node : NodeId) (timer : WeakPtr) (reg : StaticMocksRegistry) :
    StaticMocksRegistry :=
  { reg with timersRegistry :=
      reg.timersRegistry.insert node (reg.timersRegistry.getD node [] ++ [timer]) }

/-- `getTimers`. -/
def getTimers (node : NodeId) (reg : StaticMocksRegistry) : List WeakPtr :=
  findEntity reg.timersRegistry node

/-- `detail::findTimers`: the registered timers that can still be locked. -/
def findTimers {τ : Type} (timers : ObjectStore τ) (node : NodeId) (reg : StaticMocksRegistry) :
    List TimerRef :=
  (reg.getTimers node).filterMap timers.lock

-- ════════════════════════════════════════════════════════════════════════
-- The mock table
-- ════════════════════════════════════════════════════════════════════════

/-- `getMock`. -/
def getMock (ptr : Addr) (reg : StaticMocksRegistry) : WeakPtr :=
  match reg.mockRegistry[ptr]? with
  | some it => it
  | none => none

/-- `attachMock`. -/
def attachMock (ptr : Addr) (mock : WeakPtr) (reg : StaticMocksRegistry) : StaticMocksRegistry :=
  { reg with mockRegistry := reg.mockRegistry.insert ptr mock }

/-- `detachMock`: the entry at the address is erased, whichever mock it is for. -/
def detachMock (ptr : Addr) (reg : StaticMocksRegistry) : StaticMocksRegistry :=
  match reg.mockRegistry[ptr]? with
  | some _ => { reg with mockRegistry := reg.mockRegistry.erase ptr }
  | none => reg

-- ════════════════════════════════════════════════════════════════════════
-- Pending action entities, reset
-- ════════════════════════════════════════════════════════════════════════

/-- `registerLazyInitServer` and `registerLazyInitClient`. -/
def registerLazyInit (k : Kind) (entry : LazyInitEntry) (reg : StaticMocksRegistry) :
    StaticMocksRegistry :=
  { reg with lazyInit := Function.update reg.lazyInit k (reg.lazyInit k ++ [entry]) }

/-- `removeLazyInitServer` and `removeLazyInitClient`. -/
def removeLazyInit (k : Kind) (rawPtr : Addr) (reg : StaticMocksRegistry) : StaticMocksRegistry :=
  { reg with lazyInit := Function.update reg.lazyInit k <|
      (reg.lazyInit k).filter fun entry => entry.rawPtr ≠ rawPtr }

/-- `reset`. -/
def reset (_reg : StaticMocksRegistry) : StaticMocksRegistry := empty

/-- Whether some key of the registry is a weak reference to this control block. -/
def keeps (reg : StaticMocksRegistry) (node : NodeId) : Bool :=
  (Kind.all.any fun k => (reg.entityRegistry k).contains node) || reg.timersRegistry.contains node

/-- What the registry holds under a kind, a node and a name. -/
def slot (k : Kind) (node : NodeId) (name : Name) (reg : StaticMocksRegistry) : WeakPtr :=
  findEntity ((reg.entityRegistry k).getD node ∅) name

-- ════════════════════════════════════════════════════════════════════════
-- What the operations do to slots, keys and the mock table
-- ════════════════════════════════════════════════════════════════════════

theorem findEntity_eq_getD {κ β : Type} [Ord κ] [Std.TransOrd κ] [Inhabited β]
    (reg : ExtTreeMap κ β compare) (key : κ) : findEntity reg key = reg.getD key default := by
  rw [findEntity, ExtTreeMap.getD_eq_getD_getElem?]
  cases reg[key]? <;> rfl

/-- The entry a subscript leaves behind reads like a missing one. -/
theorem getD_insertIfNew_fallback {κ β : Type} [Ord κ] [Std.TransOrd κ] [Std.LawfulEqOrd κ]
    (reg : ExtTreeMap κ β compare) (key key' : κ) (d : β) :
    (reg.insertIfNew key d).getD key' d = reg.getD key' d := by
  rw [ExtTreeMap.getD_insertIfNew]
  split
  · next h =>
    obtain rfl := Std.LawfulEqOrd.eq_of_compare h.1
    rw [ExtTreeMap.getD_eq_fallback h.2]
  · rfl

theorem getD_insert_eq {κ β : Type} [Ord κ] [Std.TransOrd κ] [Std.LawfulEqOrd κ] [DecidableEq κ]
    (reg : ExtTreeMap κ β compare) (key key' : κ) (v d : β) :
    (reg.insert key v).getD key' d = if key' = key then v else reg.getD key' d := by
  rw [ExtTreeMap.getD_insert]
  by_cases h : key' = key
  · simp [h]
  · have hc : compare key key' ≠ .eq := fun hc => h (Std.LawfulEqOrd.eq_of_compare hc).symm
    rw [if_neg hc, if_neg h]

/-- A registration changes the entry of its own name only, and that one only when its holder
cannot be locked. -/
theorem findEntity_registerEntity {α : Type} (entities : ObjectStore α) (reg : Entries)
    (topicName : Name) (e : WeakPtr) (name : Name) :
    findEntity (registerEntity entities reg topicName e) name =
      if name = topicName ∧ entities.lock (findEntity reg topicName) = none then e
      else findEntity reg name := by
  have hdefault : (default : WeakPtr) = none := rfl
  simp only [findEntity_eq_getD, registerEntity, hdefault, Option.isNone_iff_eq_none,
    getD_insertIfNew_fallback]
  split
  · next hl => simp [getD_insert_eq, getD_insertIfNew_fallback, hl]
  · next hl => simp [getD_insertIfNew_fallback, hl]

/-- What a registration leaves in every slot. -/
theorem slot_registerUnder {α : Type} (k : Kind) (entities : ObjectStore α) (node : NodeId)
    (name : Name) (e : WeakPtr) (reg : StaticMocksRegistry) (k' : Kind) (node' : NodeId)
    (name' : Name) :
    (reg.registerUnder k entities node name e).slot k' node' name' =
      if (k' = k ∧ node' = node ∧ name' = name) ∧ entities.lock (reg.slot k node name) = none then e
      else reg.slot k' node' name' := by
  simp only [slot, registerUnder]
  by_cases hk : k' = k
  · subst hk
    rw [Function.update_self, getD_insert_eq]
    by_cases hn : node' = node
    · subst hn
      simp [findEntity_registerEntity]
    · simp [hn]
  · simp [hk]

@[simp] theorem getUnder_fst (k : Kind) (node : NodeId) (name : Name) (reg : StaticMocksRegistry) :
    (reg.getUnder k node name).1 = reg.slot k node name := rfl

/-- A lookup changes no slot. -/
@[simp] theorem slot_getUnder (k : Kind) (node : NodeId) (name : Name) (reg : StaticMocksRegistry)
    (k' : Kind) (node' : NodeId) (name' : Name) :
    (reg.getUnder k node name).2.slot k' node' name' = reg.slot k' node' name' := by
  simp only [slot, getUnder]
  by_cases hk : k' = k
  · subst hk
    rw [Function.update_self, getD_insertIfNew_fallback]
  · rw [Function.update_of_ne hk]

theorem keeps_iff {reg : StaticMocksRegistry} {node : NodeId} :
    reg.keeps node = true ↔ (∃ k, node ∈ reg.entityRegistry k) ∨ node ∈ reg.timersRegistry := by
  simp [keeps, Kind.mem_all]

theorem mem_registerUnder {α : Type} (k : Kind) (entities : ObjectStore α) (node : NodeId)
    (name : Name) (e : WeakPtr) (reg : StaticMocksRegistry) (k' : Kind) (node' : NodeId) :
    node' ∈ (reg.registerUnder k entities node name e).entityRegistry k' ↔
      (k' = k ∧ node' = node) ∨ node' ∈ reg.entityRegistry k' := by
  simp only [registerUnder]
  by_cases hk : k' = k
  · subst hk
    simp [ExtTreeMap.mem_insert, @eq_comm _ node' node]
  · simp [hk]

/-- A lookup forgets no node. -/
theorem mem_getUnder_of_mem (k : Kind) (node : NodeId) (name : Name) (reg : StaticMocksRegistry)
    (k' : Kind) (node' : NodeId) (h : node' ∈ reg.entityRegistry k') :
    node' ∈ (reg.getUnder k node name).2.entityRegistry k' := by
  simp only [getUnder]
  by_cases hk : k' = k
  · subst hk
    rw [Function.update_self, ExtTreeMap.mem_insertIfNew]
    exact Or.inr h
  · rwa [Function.update_of_ne hk]

@[simp] theorem getMock_attachMock (ptr : Addr) (mock : WeakPtr) (reg : StaticMocksRegistry)
    (p : Addr) :
    (reg.attachMock ptr mock).getMock p = if p = ptr then mock else reg.getMock p := by
  simp only [getMock, attachMock, ExtTreeMap.getElem?_insert]
  by_cases hp : p = ptr
  · simp [hp]
  · simp [hp, Ne.symm hp]

@[simp] theorem getMock_detachMock (ptr : Addr) (reg : StaticMocksRegistry) (p : Addr) :
    (reg.detachMock ptr).getMock p = if p = ptr then none else reg.getMock p := by
  simp only [detachMock]
  by_cases hp : p = ptr
  · subst hp
    cases h : reg.mockRegistry[p]? <;> simp [getMock, h]
  · cases reg.mockRegistry[ptr]? <;> simp [getMock, hp, Ne.symm hp, ExtTreeMap.getElem?_erase]

theorem detachMock_frame (ptr : Addr) (reg : StaticMocksRegistry) :
    (reg.detachMock ptr).entityRegistry = reg.entityRegistry ∧
      (reg.detachMock ptr).timersRegistry = reg.timersRegistry ∧
      (reg.detachMock ptr).lazyInit = reg.lazyInit := by
  unfold detachMock
  split <;> exact ⟨rfl, rfl, rfl⟩

theorem getTimers_registerTimer (node : NodeId) (timer : WeakPtr) (reg : StaticMocksRegistry)
    (node' : NodeId) :
    (reg.registerTimer node timer).getTimers node' =
      if node' = node then reg.getTimers node ++ [timer] else reg.getTimers node' := by
  have hdefault : (default : List WeakPtr) = [] := rfl
  simp only [getTimers, registerTimer, findEntity_eq_getD, getD_insert_eq, hdefault]

end StaticMocksRegistry

end Rtest
