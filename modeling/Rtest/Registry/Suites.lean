import Rtest.Foundations.ShiftedStore
import Rtest.Registry.MockTable

/-!
# Test suites

There is one registry for the whole process, and `MockRegistryCleaner` resets it whenever a test
suite has ended. Nodes, entities, timers and mocks of earlier suites may live on, as those of a
static fixture do. A suite that touches only what it creates itself cannot tell: it runs as the
first suite of a fresh process would, up to the identities of the objects.

## Main definitions

- `Op.moved` — the operation of a suite that starts later
- `World.Like` — a world looks, to the suite that runs in it, as that of a fresh process

## Main results

- `World.suite_as_first` — what a suite finds is what it would find as the first
-/

namespace Rtest

open ObjectStore StaticMocksRegistry

/-- How many objects were built, and how many resets made, before a suite. -/
structure Births where
  nodes : ℕ
  entities : ℕ
  timers : ℕ
  mocks : ℕ
  resets : ℕ
  deriving DecidableEq, Repr

def World.births (w : World) : Births :=
  ⟨w.nodes.next, w.entities.next, w.timers.next, w.mocks.next, w.history.resets⟩

section Moved

variable (b : Births)

def Entity.moved (obj : Entity) : Entity := { obj with node := obj.node + b.nodes }

def Mock.moved (mock : Mock) : Mock :=
  { mock with createdFor := mock.createdFor + b.entities, round := mock.round + b.resets }

def LazyInitEntry.moved (entry : LazyInitEntry) : LazyInitEntry :=
  { entry with initCallback := entry.initCallback + b.entities }

/-- The operation in a suite that starts later; the objects it names are the suite's own. -/
def Op.moved : Op → Op
  | .createNode node => .createNode node
  | .destroyNode n => .destroyNode (n + b.nodes)
  | .createEntity k T this n name => .createEntity k T this (n + b.nodes) name
  | .share e => .share (e + b.entities)
  | .destroyEntity e => .destroyEntity (e + b.entities)
  | .createTimer n => .createTimer (n + b.nodes)
  | .destroyTimer t => .destroyTimer (t + b.timers)
  | .lookup k n name => .lookup k (n + b.nodes) name
  | .find k T n name => .find k T (n + b.nodes) name
  | .releaseMock m => .releaseMock (m + b.mocks)
  | .call e => .call (e + b.entities)
  | .reset => .reset

def FindOutcome.moved : FindOutcome → FindOutcome
  | .mock m => .mock (m + b.mocks)
  | .subscription e => .subscription (e + b.entities)
  | outcome => outcome

end Moved

-- ════════════════════════════════════════════════════════════════════════
-- The registry of a suite
-- ════════════════════════════════════════════════════════════════════════

/-- Whatever a registry is asked, the answers are those of `reg₀`, moved. -/
structure RegistryLike (b : Births) (reg reg₀ : StaticMocksRegistry) : Prop where
  slot : ∀ k node name, reg.slot k node name = up b.entities (reg₀.slot k node name)
  key : ∀ k node, node ∈ reg.entityRegistry k ↔ node ∈ reg₀.entityRegistry k
  timers : ∀ node, reg.getTimers node = (reg₀.getTimers node).map (up b.timers)
  timerKey : ∀ node, node ∈ reg.timersRegistry ↔ node ∈ reg₀.timersRegistry
  mock : ∀ a, reg.getMock a = up b.mocks (reg₀.getMock a)
  lazyInit : ∀ k, reg.lazyInit k = (reg₀.lazyInit k).map (LazyInitEntry.moved b)

namespace RegistryLike

variable {b : Births} {reg reg₀ : StaticMocksRegistry}

theorem empty (b : Births) : RegistryLike b .empty .empty where
  slot := by
    intro k node name
    have hnone : StaticMocksRegistry.empty.slot k node name = none := by
      simp [StaticMocksRegistry.slot, StaticMocksRegistry.empty, findEntity_eq_getD]
      rfl
    rw [hnone, up_none]
  key := fun _ _ => Iff.rfl
  timers := by
    intro node
    have hnil : StaticMocksRegistry.empty.getTimers node = [] := by
      simp [getTimers, StaticMocksRegistry.empty, findEntity_eq_getD]
      rfl
    rw [hnil, List.map_nil]
  timerKey := fun _ => Iff.rfl
  mock := by
    intro a
    have hnone : StaticMocksRegistry.empty.getMock a = none := by
      simp [getMock, StaticMocksRegistry.empty]
    rw [hnone, up_none]
  lazyInit := fun _ => rfl

theorem keeps (h : RegistryLike b reg reg₀) (node : NodeId) : reg.keeps node = reg₀.keeps node := by
  rw [Bool.eq_iff_iff, keeps_iff, keeps_iff]
  simp only [h.key, h.timerKey]

theorem registerUnder (h : RegistryLike b reg reg₀) {α β : Type} {f : α → β}
    {entities : ObjectStore β} {entities₀ : ObjectStore α}
    (hent : Shifted b.entities f entities entities₀) (k : Kind) (node : NodeId) (name : Name)
    (e : WeakPtr) :
    RegistryLike b (reg.registerUnder k entities node name (up b.entities e))
      (reg₀.registerUnder k entities₀ node name e) where
  slot := by
    intro k' node' name'
    simp only [slot_registerUnder, h.slot, hent.lock, up_eq_none_iff]
    split <;> rfl
  key := by
    intro k' node'
    simp only [mem_registerUnder, h.key]
  timers := h.timers
  timerKey := h.timerKey
  mock := h.mock
  lazyInit := h.lazyInit

theorem getUnder (h : RegistryLike b reg reg₀) (k : Kind) (node : NodeId) (name : Name) :
    (reg.getUnder k node name).1 = up b.entities (reg₀.getUnder k node name).1 ∧
      RegistryLike b (reg.getUnder k node name).2 (reg₀.getUnder k node name).2 := by
  refine ⟨h.slot k node name, ?_, fun k' node' => ?_, h.timers, h.timerKey, h.mock, h.lazyInit⟩
  · intro k' node' name'
    rw [slot_getUnder, slot_getUnder, h.slot]
  · simp only [StaticMocksRegistry.getUnder]
    by_cases hk : k' = k
    · subst hk
      rw [Function.update_self, Function.update_self, Std.ExtTreeMap.mem_insertIfNew,
        Std.ExtTreeMap.mem_insertIfNew, h.key]
    · rw [Function.update_of_ne hk, Function.update_of_ne hk, h.key]

theorem registerTimer (h : RegistryLike b reg reg₀) (node : NodeId) (t : WeakPtr) :
    RegistryLike b (reg.registerTimer node (up b.timers t)) (reg₀.registerTimer node t) where
  slot := h.slot
  key := h.key
  timers := by
    intro node'
    simp only [getTimers_registerTimer, h.timers]
    split <;> simp
  timerKey := by
    intro node'
    simp only [StaticMocksRegistry.registerTimer, Std.ExtTreeMap.mem_insert, h.timerKey]
  mock := h.mock
  lazyInit := h.lazyInit

theorem attachMock (h : RegistryLike b reg reg₀) (a : Addr) (m : WeakPtr) :
    RegistryLike b (reg.attachMock a (up b.mocks m)) (reg₀.attachMock a m) where
  slot := h.slot
  key := h.key
  timers := h.timers
  timerKey := h.timerKey
  mock := by
    intro a'
    simp only [getMock_attachMock, h.mock]
    split <;> rfl
  lazyInit := h.lazyInit

theorem detachMock (h : RegistryLike b reg reg₀) (a : Addr) :
    RegistryLike b (reg.detachMock a) (reg₀.detachMock a) := by
  obtain ⟨hent, htim, hlazy⟩ := detachMock_frame a reg
  obtain ⟨hent₀, htim₀, hlazy₀⟩ := detachMock_frame a reg₀
  refine ⟨fun k node name => ?_, fun k node => ?_, fun node => ?_, fun node => ?_, fun a' => ?_,
    fun k => ?_⟩
  · simp only [StaticMocksRegistry.slot, hent, hent₀]
    exact h.slot k node name
  · rw [hent, hent₀, h.key]
  · simp only [getTimers, htim, htim₀]
    exact h.timers node
  · rw [htim, htim₀, h.timerKey]
  · simp only [getMock_detachMock, h.mock]
    split <;> rfl
  · rw [hlazy, hlazy₀, h.lazyInit]

/-- The pending entities of one kind are replaced. -/
theorem withLazyInit (h : RegistryLike b reg reg₀) (k : Kind) (pending : List LazyInitEntry) :
    RegistryLike b
      { reg with lazyInit := Function.update reg.lazyInit k (pending.map (.moved b)) }
      { reg₀ with lazyInit := Function.update reg₀.lazyInit k pending } where
  slot := h.slot
  key := h.key
  timers := h.timers
  timerKey := h.timerKey
  mock := h.mock
  lazyInit := by
    intro k'
    by_cases hk : k' = k
    · subst hk
      simp only [Function.update_self]
    · simp only [Function.update_of_ne hk, h.lazyInit]

theorem registerLazyInit (h : RegistryLike b reg reg₀) (k : Kind) (entry : LazyInitEntry) :
    RegistryLike b (reg.registerLazyInit k (entry.moved b)) (reg₀.registerLazyInit k entry) := by
  have hnew := h.withLazyInit k (reg₀.lazyInit k ++ [entry])
  rwa [List.map_append, ← h.lazyInit] at hnew

theorem removeLazyInit (h : RegistryLike b reg reg₀) (k : Kind) (a : Addr) :
    RegistryLike b (reg.removeLazyInit k a) (reg₀.removeLazyInit k a) := by
  have hpending : (reg.lazyInit k).filter (fun entry => decide (entry.rawPtr ≠ a)) =
      ((reg₀.lazyInit k).filter fun entry => decide (entry.rawPtr ≠ a)).map (.moved b) := by
    rw [h.lazyInit, List.filter_map]
    rfl
  rw [StaticMocksRegistry.removeLazyInit, hpending]
  exact h.withLazyInit k _

end RegistryLike

-- ════════════════════════════════════════════════════════════════════════
-- The world of a suite
-- ════════════════════════════════════════════════════════════════════════

namespace World

/-- To a suite that began after `b`, the world `w` looks as `w₀`. -/
structure Like (b : Births) (w w₀ : World) : Prop where
  nodes : Shifted b.nodes id w.nodes w₀.nodes
  entities : Shifted b.entities (Entity.moved b) w.entities w₀.entities
  timers : Shifted b.timers id w.timers w₀.timers
  mocks : Shifted b.mocks (Mock.moved b) w.mocks w₀.mocks
  registry : RegistryLike b w.registry w₀.registry
  resets : w.history.resets = w₀.history.resets + b.resets

variable {b : Births} {w w₀ v : World}

/-- A suite that begins after a reset begins like the first. -/
theorem like_reset (w : World) : Like w.reset.births w.reset init where
  nodes := shifted_next _ _
  entities := shifted_next _ _
  timers := shifted_next _ _
  mocks := shifted_next _ _
  registry := .empty _
  resets := (Nat.zero_add _).symm

namespace Like

theorem withRegistry (h : Like b w w₀) {reg reg₀ : StaticMocksRegistry}
    (hreg : RegistryLike b reg reg₀) {history history₀ : History}
    (hresets : history.resets = w.history.resets) (hresets₀ : history₀.resets = w₀.history.resets) :
    Like b { w with registry := reg, history := history }
      { w₀ with registry := reg₀, history := history₀ } where
  nodes := h.nodes
  entities := h.entities
  timers := h.timers
  mocks := h.mocks
  registry := hreg
  resets := by rw [hresets, hresets₀, h.resets]

theorem postInitSetup (h : Like b w w₀) (e : EntityRef) (obj : Entity) :
    Like b (postInitSetup (e + b.entities) (obj.moved b) w) (postInitSetup e obj w₀) := by
  rw [World.postInitSetup, World.postInitSetup, registerFor_eq, registerFor_eq]
  exact h.withRegistry (h.registry.registerUnder h.entities obj.kind obj.nodeId _ (some e)) rfl rfl

theorem logInit (h : Like b w w₀) (e e₀ : EntityRef) (outcome : InitOutcome) :
    Like b (World.logInit e outcome w) (World.logInit e₀ outcome w₀) :=
  h.withRegistry h.registry rfl rfl

theorem initCallback (h : Like b w w₀) (e : EntityRef) :
    (initCallback (e + b.entities) w).1 = (initCallback e w₀).1 ∧
      Like b (World.initCallback (e + b.entities) w).2 (World.initCallback e w₀).2 := by
  have hget := h.entities.get? e
  simp only [World.initCallback, hget]
  cases w₀.entities.get? e with
  | none => exact ⟨rfl, h.logInit _ _ _⟩
  | some obj =>
    simp only [Option.map_some, Entity.moved]
    split
    · exact ⟨rfl, (h.postInitSetup e obj).logInit _ _ _⟩
    · exact ⟨rfl, h.logInit _ _ _⟩

theorem tryLazyInitLoop (h : Like b w w₀) (rest passed : List LazyInitEntry) :
    (tryLazyInitLoop (passed.map (.moved b)) (rest.map (.moved b)) w).1 =
        (World.tryLazyInitLoop passed rest w₀).1.map (.moved b) ∧
      Like b (World.tryLazyInitLoop (passed.map (.moved b)) (rest.map (.moved b)) w).2
        (World.tryLazyInitLoop passed rest w₀).2 := by
  induction rest generalizing passed w w₀ with
  | nil => exact ⟨rfl, h⟩
  | cons it rest ih =>
    obtain ⟨houtcome, hnext⟩ := h.initCallback it.initCallback
    simp only [List.map_cons, World.tryLazyInitLoop]
    have hit : (it.moved b).initCallback = it.initCallback + b.entities := rfl
    rw [hit]
    generalize World.initCallback (it.initCallback + b.entities) w = r at houtcome hnext ⊢
    generalize World.initCallback it.initCallback w₀ = r₀ at houtcome hnext ⊢
    obtain ⟨outcome, u⟩ := r
    obtain ⟨outcome₀, u₀⟩ := r₀
    obtain rfl : outcome = outcome₀ := houtcome
    have hpassed := ih hnext (passed ++ [it])
    rw [List.map_append] at hpassed
    cases outcome with
    | registered => exact ih hnext passed
    | badWeakPtr => exact hpassed
    | useAfterFree => exact hpassed

theorem tryLazyInit (h : Like b w w₀) (k : Kind) :
    Like b (tryLazyInit k w) (World.tryLazyInit k w₀) := by
  obtain ⟨hpending, hworld⟩ := h.tryLazyInitLoop (w₀.registry.lazyInit k) []
  rw [← h.registry.lazyInit] at hpending hworld
  simp only [World.tryLazyInit]
  rw [List.map_nil] at hpending hworld
  rw [hpending]
  exact hworld.withRegistry (hworld.registry.withLazyInit k _) rfl rfl

theorem lookup (h : Like b w w₀) (k : Kind) (node : NodeId) (name : Name) :
    (lookup k node name w).1 = up b.entities (World.lookup k node name w₀).1 ∧
      Like b (World.lookup k node name w).2 (World.lookup k node name w₀).2 := by
  have hserved : Like b (if k.isAction then World.tryLazyInit k w else w)
      (if k.isAction then World.tryLazyInit k w₀ else w₀) := by
    split
    · exact h.tryLazyInit k
    · exact h
  simp only [World.lookup, getFor_eq]
  obtain ⟨hfound, hreg⟩ := hserved.registry.getUnder k node name
  exact ⟨hfound, hserved.withRegistry hreg rfl rfl⟩

theorem attachedMock (h : Like b w w₀) (a : Addr) :
    w.attachedMock a = up b.mocks (w₀.attachedMock a) := by
  rw [World.attachedMock, World.attachedMock, h.registry.mock, h.mocks.lock]

theorem makeMock (h : Like b w w₀) (k : Kind) (T : Interface) (e : EntityRef) (obj : Entity) :
    (makeMock k T (e + b.entities) (obj.moved b) w).1 = (World.makeMock k T e obj w₀).1.moved b ∧
      Like b (World.makeMock k T (e + b.entities) (obj.moved b) w).2
        (World.makeMock k T e obj w₀).2 := by
  have hmock : (⟨k, T, obj.this, e + b.entities, w.history.resets⟩ : Mock) =
      Mock.moved b ⟨k, T, obj.this, e, w₀.history.resets⟩ := by
    rw [Mock.moved, h.resets]
  have hnext : some w.mocks.next = up b.mocks (some w₀.mocks.next) := by rw [h.mocks.next]; rfl
  refine ⟨by rw [World.makeMock, h.mocks.next]; rfl, ?_⟩
  simp only [World.makeMock, Entity.moved]
  rw [hmock, hnext]
  exact ⟨h.nodes, h.entities, h.timers, h.mocks.alloc _, h.registry.attachMock _ _, h.resets⟩

/-- What two calls end in, and the worlds they leave. -/
def Alike (b : Births) (r r₀ : FindOutcome × World) : Prop := r.1 = r₀.1.moved b ∧ Like b r.2 r₀.2

theorem findMock (h : Like b w w₀) (k : Kind) (check : TypeCheck) (T : Interface) (node : NodeId)
    (name : Name) :
    Alike b (findMock k check T node name w) (World.findMock k check T node name w₀) := by
  obtain ⟨hfound, hserved⟩ := h.lookup k node name
  simp only [World.findMock]
  generalize World.lookup k node name w = r at hfound hserved ⊢
  generalize World.lookup k node name w₀ = r₀ at hfound hserved ⊢
  obtain ⟨base, u⟩ := r
  obtain ⟨base₀, u₀⟩ := r₀
  dsimp only at hfound hserved ⊢
  rw [hfound, hserved.entities.lock]
  cases u₀.entities.lock base₀ with
  | none => exact ⟨rfl, hserved⟩
  | some e =>
    simp only [up_some, hserved.entities.get?]
    cases u₀.entities.get? e with
    | none => exact ⟨rfl, hserved⟩
    | some obj =>
      have hattached : (u.attachedMock obj.this).isSome = (u₀.attachedMock obj.this).isSome := by
        rw [hserved.attachedMock, up, Option.isSome_map]
      have hinterface : (obj.moved b).interface = obj.interface := rfl
      have hthis : (obj.moved b).this = obj.this := rfl
      simp only [Option.map_some, hinterface, hthis, hattached]
      split
      · exact ⟨rfl, hserved⟩
      · split
        · exact ⟨rfl, hserved⟩
        · cases check with
          | throwing error =>
            dsimp only
            split
            · exact ⟨rfl, hserved⟩
            · exact hserved.makeMock k T e obj
          | castFirst => exact hserved.makeMock k T e obj
          | unchecked => exact hserved.makeMock k T e obj

theorem findSubscription (h : Like b w w₀) (T : Interface) (node : NodeId) (name : Name) :
    Alike b (findSubscription T node name w) (World.findSubscription T node name w₀) := by
  simp only [World.findSubscription]
  split
  · exact ⟨rfl, h⟩
  · obtain ⟨hfound, hserved⟩ := h.lookup .subscription node (prefixSlash name)
    generalize World.lookup .subscription node (prefixSlash name) w = r at hfound hserved ⊢
    generalize World.lookup .subscription node (prefixSlash name) w₀ = r₀ at hfound hserved ⊢
    rw [hfound, hserved.entities.lock]
    cases r₀.2.entities.lock r₀.1 with
    | none => exact ⟨rfl, hserved⟩
    | some e =>
      simp only [up_some, hserved.entities.get?, Option.any_map]
      have hinterface : ∀ obj : Entity, (obj.moved b).interface = obj.interface := fun _ => rfl
      simp only [hinterface]
      split
      · exact ⟨rfl, hserved⟩
      · exact ⟨rfl, hserved⟩

/-- **A `find*` call** ends in the same, moved. -/
theorem find (h : Like b w w₀) (k : Kind) (T : Interface) (node : NodeId) (name : Name) :
    Alike b (find k T node name w) (World.find k T node name w₀) := by
  cases k with
  | publisher =>
    simp only [World.find, World.findPublisher]
    split
    · exact ⟨rfl, h⟩
    · exact h.findMock ..
  | subscription => exact h.findSubscription T node name
  | service => exact h.findMock ..
  | serviceClient => exact h.findMock ..
  | actionServer => exact h.findMock ..
  | actionClient => exact h.findMock ..

theorem createEntity (h : Like b w w₀) (k : Kind) (T : Interface) (this : Addr) (n : NodeRef)
    (node : Node) (name : Name) :
    Like b (createEntity k T this (n + b.nodes) node name w)
      (World.createEntity k T this n node name w₀) := by
  have hnew := h.entities.alloc ⟨k, T, this, n, node.controlBlock, name, !k.isAction⟩
  have hworld : Like b
      { w with
        entities := w.entities.alloc ⟨k, T, this, n + b.nodes, node.controlBlock, name, !k.isAction⟩ }
      { w₀ with
        entities := w₀.entities.alloc ⟨k, T, this, n, node.controlBlock, name, !k.isAction⟩ } :=
    ⟨h.nodes, hnew, h.timers, h.mocks, h.registry, h.resets⟩
  simp only [World.createEntity, h.entities.next]
  split
  · exact hworld.withRegistry (h.registry.registerLazyInit k
      ⟨this, node.fullyQualifiedName, name, w₀.entities.next⟩) rfl rfl
  · exact hworld.postInitSetup w₀.entities.next
      ⟨k, T, this, n, node.controlBlock, name, !k.isAction⟩

theorem destroyEntity (h : Like b w w₀) (e : EntityRef) :
    Like b (destroyEntity (e + b.entities) w) (World.destroyEntity e w₀) := by
  simp only [World.destroyEntity, h.entities.get?]
  cases w₀.entities.get? e with
  | none => exact h
  | some obj =>
    refine ⟨h.nodes, h.entities.free e, h.timers, h.mocks, ?_, h.resets⟩
    simp only [Option.map_some, Entity.moved]
    split
    · exact h.registry.removeLazyInit _ _
    · exact h.registry

theorem releaseMock (h : Like b w w₀) (m : MockRef) :
    Like b (releaseMock (m + b.mocks) w) (World.releaseMock m w₀) := by
  simp only [World.releaseMock, h.mocks.get?]
  cases w₀.mocks.get? m with
  | none => exact h
  | some mock =>
    exact ⟨h.nodes, h.entities, h.timers, h.mocks.free m, h.registry.detachMock _, h.resets⟩

theorem createTimer (h : Like b w w₀) (n : NodeRef) (node : Node) :
    Like b (createTimer (n + b.nodes) node w) (World.createTimer n node w₀) := by
  have hnext : some w.timers.next = up b.timers (some w₀.timers.next) := by rw [h.timers.next]; rfl
  simp only [World.createTimer]
  rw [hnext]
  exact ⟨h.nodes, h.entities, h.timers.alloc (), h.mocks, h.registry.registerTimer _ _, h.resets⟩

/-- An operation on a node that lives. -/
theorem onNode (h : Like b w w₀) (n : NodeRef) {f f₀ : Node → World}
    (hf : ∀ node, Like b (f node) (f₀ node)) :
    Like b (match w.nodes.get? (n + b.nodes) with | some node => f node | none => w)
      (match w₀.nodes.get? n with | some node => f₀ node | none => w₀) := by
  rw [h.nodes.get?]
  cases w₀.nodes.get? n with
  | none => exact h
  | some node => exact hf node

/-- **One operation** does the same. -/
theorem act (h : Like b w w₀) (op : Op) : Like b (w.act (op.moved b)) (w₀.act op) := by
  cases op with
  | createNode node =>
    exact ⟨h.nodes.alloc node, h.entities, h.timers, h.mocks, h.registry, h.resets⟩
  | destroyNode n => exact ⟨h.nodes.free n, h.entities, h.timers, h.mocks, h.registry, h.resets⟩
  | createEntity k T this n name => exact h.onNode n fun node => h.createEntity k T this n node name
  | share e =>
    exact ⟨h.nodes, h.entities.modify e fun _ => rfl, h.timers, h.mocks, h.registry, h.resets⟩
  | destroyEntity e => exact h.destroyEntity e
  | createTimer n => exact h.onNode n fun node => h.createTimer n node
  | destroyTimer t => exact ⟨h.nodes, h.entities, h.timers.free t, h.mocks, h.registry, h.resets⟩
  | lookup k n name => exact h.onNode n fun node => (h.lookup k node.controlBlock name).2
  | find k T n name => exact h.onNode n fun node => (h.find k T node.controlBlock name).2
  | releaseMock m => exact h.releaseMock m
  | call e => exact h
  | reset =>
    refine ⟨h.nodes, h.entities, h.timers, h.mocks, .empty b, ?_⟩
    show w.history.resets + 1 = w₀.history.resets + 1 + b.resets
    rw [h.resets]
    omega

/-- What a later suite can do, the first could. -/
theorem enabled_of (h : Like b w w₀) {op : Op} (hen : w.enabled (op.moved b) = true) :
    w₀.enabled op = true := by
  cases op with
  | createNode node =>
    simp only [Op.moved, enabled, Bool.and_eq_true, h.registry.keeps] at hen ⊢
    exact ⟨h.nodes.all_of (fun _ => rfl) hen.1, hen.2⟩
  | destroyNode n =>
    simp only [Op.moved, enabled, Bool.and_eq_true, h.nodes.alive] at hen ⊢
    exact ⟨hen.1, h.entities.all_of (fun _ => by simp [Entity.moved]) hen.2⟩
  | createEntity k T this n name =>
    simp only [Op.moved, enabled, Bool.and_eq_true, h.nodes.alive] at hen ⊢
    exact ⟨hen.1, h.entities.all_of (fun _ => rfl) hen.2⟩
  | share e | destroyEntity e | call e =>
    simpa only [Op.moved, enabled, h.entities.alive] using hen
  | createTimer n | lookup _ n _ | find _ _ n _ =>
    simpa only [Op.moved, enabled, h.nodes.alive] using hen
  | destroyTimer t => simpa only [Op.moved, enabled, h.timers.alive] using hen
  | releaseMock m => simpa only [Op.moved, enabled, h.mocks.alive] using hen
  | reset => rfl

end Like

/-- Of the nodes and entities of earlier suites none lives. -/
structure Clean (b : Births) (w : World) : Prop where
  nodes : Vacant b.nodes w.nodes
  entities : Vacant b.entities w.entities

/-- Where nothing is left over, nothing is in the way. -/
theorem Like.enabled_eq (h : Like b w w₀) (hc : Clean b w) (op : Op) :
    w.enabled (op.moved b) = w₀.enabled op := by
  cases op with
  | createNode node =>
    simp only [Op.moved, enabled, h.registry.keeps]
    rw [h.nodes.all_eq hc.nodes fun _ => rfl]
    rfl
  | destroyNode n =>
    have hother : ∀ obj : Entity,
        (!((obj.moved b).kind.isAction && decide ((obj.moved b).node = n + b.nodes))) =
          !(obj.kind.isAction && decide (obj.node = n)) := by simp [Entity.moved]
    simp only [Op.moved, enabled, h.nodes.alive]
    rw [h.entities.all_eq hc.entities hother]
  | createEntity k T this n name =>
    simp only [Op.moved, enabled, h.nodes.alive]
    rw [h.entities.all_eq hc.entities fun _ => rfl]
    rfl
  | share e | destroyEntity e | call e => simp only [Op.moved, enabled, h.entities.alive]
  | createTimer n | lookup _ n _ | find _ _ n _ => simp only [Op.moved, enabled, h.nodes.alive]
  | destroyTimer t => simp only [Op.moved, enabled, h.timers.alive]
  | releaseMock m => simp only [Op.moved, enabled, h.mocks.alive]
  | reset => rfl

/-- A `find*` call builds no node and no entity. -/
theorem objects_find (k : Kind) (T : Interface) (node : NodeId) (name : Name) (w : World) :
    (find k T node name w).2.nodes = w.nodes ∧ (find k T node name w).2.entities = w.entities := by
  have hframe := lookup_frame k node (findName k name) w
  obtain h | h | ⟨e, obj, -, -, -, -, -, -, h⟩ := find_cases k T node name w
  · rw [h]
    exact ⟨rfl, rfl⟩
  · rw [h]
    exact ⟨hframe.nodes, hframe.entities⟩
  · rw [h]
    exact ⟨hframe.nodes, hframe.entities⟩

/-- An operation brings nothing back to life. -/
theorem Clean.act (hc : Clean b w) (h : Like b w w₀) (op : Op) : Clean b (w.act op) := by
  have hnodes : b.nodes ≤ w.nodes.next := by
    rw [h.nodes.next]
    exact Nat.le_add_left ..
  have hentities : b.entities ≤ w.entities.next := by
    rw [h.entities.next]
    exact Nat.le_add_left ..
  cases op with
  | createNode node => exact ⟨hc.nodes.alloc hnodes node, hc.entities⟩
  | destroyNode n => exact ⟨hc.nodes.free n, hc.entities⟩
  | createEntity k T this n name =>
    simp only [World.act]
    split
    · next node _ =>
      refine ⟨?_, by rw [entities_createEntity]; exact hc.entities.alloc hentities _⟩
      simp only [World.createEntity]
      split <;> exact hc.nodes
    · exact hc
  | share e => exact ⟨hc.nodes, hc.entities.modify e _⟩
  | destroyEntity e =>
    simp only [World.act, World.destroyEntity]
    split
    · exact hc
    · exact ⟨hc.nodes, hc.entities.free e⟩
  | createTimer n =>
    simp only [World.act]
    split <;> exact ⟨hc.nodes, hc.entities⟩
  | destroyTimer t => exact ⟨hc.nodes, hc.entities⟩
  | lookup k n name =>
    simp only [World.act]
    split
    · next node _ =>
      have hframe := lookup_frame k node.controlBlock name w
      exact ⟨hframe.nodes ▸ hc.nodes, hframe.entities ▸ hc.entities⟩
    · exact hc
  | find k T n name =>
    simp only [World.act]
    split
    · next node _ =>
      obtain ⟨hn, he⟩ := objects_find k T node.controlBlock name w
      exact ⟨hn ▸ hc.nodes, he ▸ hc.entities⟩
    · exact hc
  | releaseMock m =>
    simp only [World.act, World.releaseMock]
    split <;> exact ⟨hc.nodes, hc.entities⟩
  | call e => exact hc
  | reset => exact ⟨hc.nodes, hc.entities⟩

/-- **A run** of a later suite is one of the first. -/
theorem Like.run (h : Like b w w₀) {ops : List Op}
    (hrun : Runs.run step w (ops.map (.moved b)) = some v) :
    ∃ v₀, Runs.run step w₀ ops = some v₀ ∧ Like b v v₀ := by
  induction ops generalizing w w₀ with
  | nil =>
    cases hrun
    exact ⟨w₀, rfl, h⟩
  | cons op ops ih =>
    rw [List.map_cons] at hrun
    obtain ⟨u, hu, hrest⟩ := Runs.run_cons_eq_some_iff.mp hrun
    obtain ⟨hen, rfl⟩ := step_eq_some_iff.mp hu
    obtain ⟨v₀, hv₀, hlike⟩ := ih (h.act op) hrest
    have hstep : w₀.step op = some (w₀.act op) := step_eq_some_iff.mpr ⟨h.enabled_of hen, rfl⟩
    exact ⟨v₀, by rw [Runs.run_cons, hstep, Option.bind_some, hv₀], hlike⟩

theorem Like.isSome_run (h : Like b w w₀) (hc : Clean b w) (ops : List Op) :
    (Runs.run step w (ops.map (.moved b))).isSome = (Runs.run step w₀ ops).isSome := by
  induction ops generalizing w w₀ with
  | nil => rfl
  | cons op ops ih =>
    rw [List.map_cons, Runs.run_cons, Runs.run_cons, step, step, h.enabled_eq hc]
    split
    · exact ih (h.act op) (hc.act h _)
    · rfl

theorem Like.receiver (h : Like b w w₀) (e : EntityRef) :
    w.receiver (e + b.entities) = up b.mocks (w₀.receiver e) := by
  rw [World.receiver, World.receiver, h.entities.get?]
  cases w₀.entities.get? e with
  | none => rfl
  | some obj =>
    simp only [Option.map_some, Option.bind_some, Entity.moved]
    split
    · exact h.attachedMock obj.this
    · rfl

theorem Like.findTimers (h : Like b w w₀) (node : NodeId) :
    w.registry.findTimers w.timers node =
      (w₀.registry.findTimers w₀.timers node).map (· + b.timers) := by
  rw [StaticMocksRegistry.findTimers, StaticMocksRegistry.findTimers, h.registry.timers,
    List.filterMap_map, List.map_filterMap]
  congr 1
  funext p
  exact h.timers.lock p

/-- **Every suite is the first.** Whatever happened before a reset and whatever is left of it, a
suite that names only what it creates finds in the registry what it would find as the first suite
of a process: its `find*` calls end alike, the same mocks receive its calls, the same timers are
listed. And it can do all that the first could, if no node and no entity is left over. -/
theorem suite_as_first (w : World) (ops : List Op) :
    (∀ v, Runs.run step w.reset (ops.map (.moved w.reset.births)) = some v →
      ∃ v₀, Runs.run step init ops = some v₀ ∧
        (∀ k T node name, (find k T node name v).1 =
          (find k T node name v₀).1.moved w.reset.births) ∧
        (∀ e, v.receiver (e + w.entities.next) = up w.mocks.next (v₀.receiver e)) ∧
        ∀ node, v.registry.findTimers v.timers node =
          (v₀.registry.findTimers v₀.timers node).map (· + w.timers.next)) ∧
    ((∀ n, w.nodes.get? n = none) → (∀ e, w.entities.get? e = none) →
      (Runs.run step w.reset (ops.map (.moved w.reset.births))).isSome =
        (Runs.run step init ops).isSome) := by
  constructor
  · intro v hv
    obtain ⟨v₀, hv₀, h⟩ := (like_reset w).run hv
    exact ⟨v₀, hv₀, fun k T node name => (h.find k T node name).1, h.receiver, h.findTimers⟩
  · intro hnodes hentities
    exact (like_reset w).isSome_run ⟨fun n _ => hnodes n, fun e _ => hentities e⟩ ops

/-- A node with a publisher whose mock is held. -/
def publisherSuite (this : Addr) : List Op :=
  [.createNode ⟨this, this, "/".toList, "node".toList⟩,
    .createEntity .publisher 7 this 0 "/topic".toList,
    .find .publisher 7 0 "/topic".toList]

/-- All that such a suite leaves is destroyed. -/
def publisherSuiteEnded (this : Addr) : List Op :=
  publisherSuite this ++ [.releaseMock 0, .destroyEntity 0, .destroyNode 0]

/-- The suite is run again: while the first node, publisher and mock still live, and, at the same
addresses, once they are gone. -/
theorem suite_as_first_again :
    (∃ v v₀, Runs.run step (after (publisherSuite 10)).reset
        ((publisherSuite 11).map (.moved (after (publisherSuite 10)).reset.births)) = some v ∧
      Runs.run step init (publisherSuite 11) = some v₀ ∧
      v.receiver 1 = up 1 (v₀.receiver 0) ∧ v₀.receiver 0 = some 0) ∧
    (Runs.run step (after (publisherSuiteEnded 10)).reset
      ((publisherSuite 10).map
        (.moved (after (publisherSuiteEnded 10)).reset.births))).isSome = true := by
  constructor
  · obtain ⟨v, hv⟩ := Option.isSome_iff_exists.mp (show (Runs.run step
      (after (publisherSuite 10)).reset ((publisherSuite 11).map
        (.moved (after (publisherSuite 10)).reset.births))).isSome = true by decide)
    obtain ⟨v₀, hv₀, -, hreceiver, -⟩ :=
      (suite_as_first (after (publisherSuite 10)) (publisherSuite 11)).1 v hv
    refine ⟨v, v₀, hv, hv₀, hreceiver 0, ?_⟩
    have hfirst : (Runs.run step init (publisherSuite 11)).map (receiver · 0) = some (some 0) := by
      decide
    rw [hv₀] at hfirst
    exact Option.some.inj hfirst
  · have hgone : (after (publisherSuiteEnded 10)).nodes.births = [none] ∧
        (after (publisherSuiteEnded 10)).entities.births = [none] := by decide
    rw [(suite_as_first (after (publisherSuiteEnded 10)) (publisherSuite 10)).2
      (fun n => by rw [ObjectStore.get?, hgone.1]; cases n <;> rfl)
      (fun e => by rw [ObjectStore.get?, hgone.2]; cases e <;> rfl)]
    decide

end World

end Rtest
