import Rtest.Registry.World

/-!
# What the operations change

One spec lemma for each function of `World`, so that no later proof unfolds one. A lookup, and
with it the first half of every `find*` call, only registers: `Frame` lists what it leaves alone,
and `lookup_keeps` is the induction over the pending entities it serves.
-/

namespace Rtest.World

open StaticMocksRegistry

variable {w w' w'' : World} {k : Kind}

/-- Registering under a kind is `registerUnder` with that kind's key. -/
theorem registerFor_eq {α : Type} (k : Kind) (entities : ObjectStore α) (node : NodeId)
    (name : Name) (e : WeakPtr) (reg : StaticMocksRegistry) :
    registerFor k entities node name e reg =
      reg.registerUnder k entities node (registerName k name) e := by
  cases k <;> rfl

/-- `w'` has the objects of `w`, its mock table, its timers and its pending history. -/
structure Frame (w w' : World) : Prop where
  nodes : w'.nodes = w.nodes
  entities : w'.entities = w.entities
  timers : w'.timers = w.timers
  mocks : w'.mocks = w.mocks
  mockRegistry : w'.registry.mockRegistry = w.registry.mockRegistry
  timersRegistry : w'.registry.timersRegistry = w.registry.timersRegistry
  timerRegistrations : w'.history.timerRegistrations = w.history.timerRegistrations
  constructions : w'.history.constructions = w.history.constructions
  resets : w'.history.resets = w.history.resets

theorem Frame.refl (w : World) : Frame w w := ⟨rfl, rfl, rfl, rfl, rfl, rfl, rfl, rfl, rfl⟩

theorem Frame.trans (h : Frame w w') (h' : Frame w' w'') : Frame w w'' where
  nodes := h'.nodes.trans h.nodes
  entities := h'.entities.trans h.entities
  timers := h'.timers.trans h.timers
  mocks := h'.mocks.trans h.mocks
  mockRegistry := h'.mockRegistry.trans h.mockRegistry
  timersRegistry := h'.timersRegistry.trans h.timersRegistry
  timerRegistrations := h'.timerRegistrations.trans h.timerRegistrations
  constructions := h'.constructions.trans h.constructions
  resets := h'.resets.trans h.resets

theorem Frame.attachedMock (h : Frame w w') (ptr : Addr) :
    w'.attachedMock ptr = w.attachedMock ptr := by
  simp only [World.attachedMock, getMock, h.mocks, h.mockRegistry]

/-- The init callback of `e` would register it. -/
def initSucceeds (w : World) (e : EntityRef) : Bool := (w.entities.get? e).any (·.shared)

/-- The outcome of the init callback of `e`, and the record of it. -/
def logInit (e : EntityRef) (outcome : InitOutcome) (w : World) : World :=
  { w with history :=
      { w.history with initCalls := w.history.initCalls ++ [(e, outcome)] } }

theorem initCallback_of_get? {e : EntityRef} {obj : Entity} (h : w.entities.get? e = some obj) :
    initCallback e w =
      if obj.shared then (.registered, logInit e .registered (postInitSetup e obj w))
      else (.badWeakPtr, logInit e .badWeakPtr w) := by
  simp [initCallback, h, logInit]

theorem initCallback_of_dead {e : EntityRef} (h : w.entities.get? e = none) :
    initCallback e w = (.useAfterFree, logInit e .useAfterFree w) := by
  simp [initCallback, h, logInit]

theorem initCallback_registered_iff {e : EntityRef} :
    (initCallback e w).1 = .registered ↔ w.initSucceeds e = true := by
  cases h : w.entities.get? e with
  | none => simp [initCallback_of_dead h, initSucceeds, h]
  | some obj =>
    rw [initCallback_of_get? h]
    cases hs : obj.shared <;> simp [initSucceeds, h, hs]

/-- Setting an entity up registers it under the key of its kind. -/
theorem registry_postInitSetup (e : EntityRef) (obj : Entity) (w : World) :
    (postInitSetup e obj w).registry =
      w.registry.registerUnder obj.kind w.entities obj.nodeId (registerName obj.kind obj.name)
        (some e) :=
  registerFor_eq ..

theorem slot_postInitSetup (e : EntityRef) (obj : Entity) (w : World) (k : Kind) (node : NodeId)
    (name : Name) :
    (postInitSetup e obj w).registry.slot k node name =
      if (k = obj.kind ∧ node = obj.nodeId ∧ name = registerName obj.kind obj.name) ∧
        w.entities.lock
          (w.registry.slot obj.kind obj.nodeId (registerName obj.kind obj.name)) = none then some e
      else w.registry.slot k node name := by
  rw [registry_postInitSetup, slot_registerUnder]

@[simp] theorem lazyInit_postInitSetup (e : EntityRef) (obj : Entity) (w : World) :
    (postInitSetup e obj w).registry.lazyInit = w.registry.lazyInit := by
  rw [registry_postInitSetup]
  rfl

theorem postInitSetup_frame (e : EntityRef) (obj : Entity) (w : World) :
    Frame w (postInitSetup e obj w) := by
  constructor <;> simp [postInitSetup, registerFor_eq, registerUnder]

theorem initCallback_frame (e : EntityRef) (w : World) : Frame w (initCallback e w).2 := by
  cases h : w.entities.get? e with
  | none =>
    rw [initCallback_of_dead h]
    exact ⟨rfl, rfl, rfl, rfl, rfl, rfl, rfl, rfl, rfl⟩
  | some obj =>
    rw [initCallback_of_get? h]
    have hf := postInitSetup_frame e obj w
    split
    · exact ⟨hf.nodes, hf.entities, hf.timers, hf.mocks, hf.mockRegistry, hf.timersRegistry,
        hf.timerRegistrations, hf.constructions, hf.resets⟩
    · exact ⟨rfl, rfl, rfl, rfl, rfl, rfl, rfl, rfl, rfl⟩

theorem initCallback_lazyInit (e : EntityRef) (w : World) :
    (initCallback e w).2.registry.lazyInit = w.registry.lazyInit := by
  cases h : w.entities.get? e with
  | none => rw [initCallback_of_dead h]; rfl
  | some obj =>
    rw [initCallback_of_get? h]
    split
    · exact lazyInit_postInitSetup e obj w
    · rfl

/-- The world after the init callbacks of these entries, in order. -/
def serve (pending : List LazyInitEntry) (w : World) : World :=
  pending.foldl (fun w it => (initCallback it.initCallback w).2) w

theorem serve_frame (pending : List LazyInitEntry) (w : World) : Frame w (serve pending w) := by
  induction pending generalizing w with
  | nil => exact Frame.refl w
  | cons it rest ih => exact (initCallback_frame it.initCallback w).trans (ih _)

theorem serve_lazyInit (pending : List LazyInitEntry) (w : World) :
    (serve pending w).registry.lazyInit = w.registry.lazyInit := by
  induction pending generalizing w with
  | nil => rfl
  | cons it rest ih => exact (ih _).trans (initCallback_lazyInit it.initCallback w)

/-- Init callbacks share no entity, so whether one succeeds is known before the loop. -/
theorem initSucceeds_frame (h : Frame w w') (e : EntityRef) :
    w'.initSucceeds e = w.initSucceeds e := by
  simp only [initSucceeds, h.entities]

/-- The loop serves every entry in order and keeps those whose callback throws. -/
theorem tryLazyInitLoop_eq (passed rest : List LazyInitEntry) (w : World) :
    tryLazyInitLoop passed rest w =
      (passed ++ rest.filter (fun it => !w.initSucceeds it.initCallback), serve rest w) := by
  induction rest generalizing passed w with
  | nil => simp [tryLazyInitLoop, serve]
  | cons it rest ih =>
    have hfilter : ∀ it' : LazyInitEntry,
        (initCallback it.initCallback w).2.initSucceeds it'.initCallback =
          w.initSucceeds it'.initCallback :=
      fun it' => initSucceeds_frame (initCallback_frame it.initCallback w) _
    have hreg := @initCallback_registered_iff w it.initCallback
    rcases hcall : initCallback it.initCallback w with ⟨outcome, w₁⟩
    simp only [hcall] at hfilter hreg
    have hserve : serve (it :: rest) w = serve rest w₁ := by simp [serve, hcall]
    cases outcome with
    | registered =>
      have hs : w.initSucceeds it.initCallback = true := hreg.mp rfl
      simp [tryLazyInitLoop, hcall, ih, hfilter, hs, hserve]
    | badWeakPtr | useAfterFree =>
      have hs : w.initSucceeds it.initCallback = false := by
        rw [Bool.eq_false_iff]
        exact fun hs => by simpa using hreg.mpr hs
      simp [tryLazyInitLoop, hcall, ih, hfilter, hs, hserve]

/-- Keep the pending entries whose callback would throw. -/
def dropServed (k : Kind) (w : World) : World :=
  { w with registry := { w.registry with
      lazyInit := Function.update w.registry.lazyInit k <|
        (w.registry.lazyInit k).filter fun it => !w.initSucceeds it.initCallback } }

/-- `tryLazyInit` serves the pending entities and keeps those that are not shared yet. -/
theorem tryLazyInit_eq (k : Kind) (w : World) :
    tryLazyInit k w = dropServed k (serve (w.registry.lazyInit k) w) := by
  simp [tryLazyInit, tryLazyInitLoop_eq, dropServed, serve_lazyInit,
    initSucceeds_frame (serve_frame (w.registry.lazyInit k) w)]

theorem tryLazyInit_frame (k : Kind) (w : World) : Frame w (tryLazyInit k w) := by
  have h := serve_frame (w.registry.lazyInit k) w
  rw [tryLazyInit_eq]
  exact ⟨h.nodes, h.entities, h.timers, h.mocks, h.mockRegistry, h.timersRegistry,
    h.timerRegistrations, h.constructions, h.resets⟩

theorem lookup_frame (k : Kind) (node : NodeId) (name : Name) (w : World) :
    Frame w (lookup k node name w).2 := by
  have h := tryLazyInit_frame k w
  simp only [lookup, getFor_eq]
  split
  · exact ⟨h.nodes, h.entities, h.timers, h.mocks, h.mockRegistry, h.timersRegistry,
      h.timerRegistrations, h.constructions, h.resets⟩
  · exact ⟨rfl, rfl, rfl, rfl, rfl, rfl, rfl, rfl, rfl⟩

/-- A lookup returns what the registry holds once the pending entities are served. -/
theorem lookup_fst (k : Kind) (node : NodeId) (name : Name) (w : World) :
    (lookup k node name w).1 = (lookup k node name w).2.registry.slot k node name := by
  simp only [lookup, getFor_eq, slot_getUnder]
  rfl

/-- **Induction over a lookup.** It registers pending entities, records their callbacks, drops
the served entries and leaves an entry for the node: what each of these keeps, a lookup keeps. -/
theorem lookup_keeps {P : World → Prop} (k : Kind) (node : NodeId) (name : Name)
    (hreg : ∀ it ∈ w.registry.lazyInit k, ∀ u obj, Frame w u →
      u.registry.lazyInit = w.registry.lazyInit → u.entities.get? it.initCallback = some obj →
      obj.shared = true → P u → P (postInitSetup it.initCallback obj u))
    (hlog : ∀ u e outcome, P u → P (logInit e outcome u))
    (hdrop : ∀ u, P u → P (dropServed k u))
    (hget : ∀ u, P u → P { u with registry := (u.registry.getUnder k node name).2 })
    (h : P w) : P (lookup k node name w).2 := by
  have hserve : ∀ pending u, (∀ it ∈ pending, it ∈ w.registry.lazyInit k) → Frame w u →
      u.registry.lazyInit = w.registry.lazyInit → P u → P (serve pending u) := by
    intro pending
    induction pending with
    | nil => exact fun u _ _ _ hu => hu
    | cons it rest ih =>
      intro u hmem hf hlazy hu
      refine ih _ (fun it' h' => hmem it' (List.mem_cons_of_mem it h'))
        (hf.trans (initCallback_frame it.initCallback u))
        ((initCallback_lazyInit it.initCallback u).trans hlazy) ?_
      change P (initCallback it.initCallback u).2
      cases hobj : u.entities.get? it.initCallback with
      | none =>
        rw [initCallback_of_dead hobj]
        exact hlog _ _ _ hu
      | some obj =>
        rw [initCallback_of_get? hobj]
        split
        · next hs =>
          exact hlog _ _ _ (hreg it (hmem it List.mem_cons_self) u obj hf hlazy hobj hs hu)
        · exact hlog _ _ _ hu
  simp only [lookup, getFor_eq]
  apply hget
  split
  · rw [tryLazyInit_eq]
    exact hdrop _ (hserve _ _ (fun _ hit => hit) (Frame.refl w) rfl h)
  · exact h

/-- The key a name is looked up under. -/
def findName : Kind → Name → Name
  | .publisher, name | .subscription, name => prefixSlash name
  | .service, name | .serviceClient, name => skipSlash name
  | _, name => name

/-- The mockable kinds whose `find*` function does not check the type it is asked for. -/
def unchecked : Kind → Bool
  | .serviceClient | .actionClient => true
  | _ => false

/-- The entity a lookup resolves to. -/
def resolve (k : Kind) (node : NodeId) (name : Name) (w : World) : Option EntityRef :=
  (lookup k node name w).2.entities.lock (lookup k node name w).1

theorem resolve_eq_some {node : NodeId} {name : Name} {e : EntityRef}
    (h : resolve k node name w = some e) :
    (lookup k node name w).2.registry.slot k node name = some e ∧
      ∃ obj, w.entities.get? e = some obj := by
  rw [resolve, lookup_fst, ObjectStore.lock_eq_some_iff] at h
  refine ⟨h.1, ObjectStore.alive_iff.mp ?_⟩
  rw [← (lookup_frame k node name w).entities]
  exact h.2

/-- How the `find*` function of a kind checks the type it is asked for. -/
def typeCheck (k : Kind) (T : Interface) : TypeCheck :=
  match k with
  | .publisher | .subscription => .castFirst
  | .service => .throwing (.otherServiceType T)
  | .actionServer => .throwing .invalidActionType
  | .serviceClient | .actionClient => .unchecked

/-- `findPublisher` and `findSubscription` refuse the empty name, the others do not. -/
def rejectsEmpty : Kind → Bool
  | .publisher | .subscription => true
  | _ => false

section FindMock

variable {T : Interface} {node : NodeId} {name : Name} {e : EntityRef} {obj : Entity}

theorem find_eq_findMock (hk : k ≠ .subscription) (hname : rejectsEmpty k = true → name ≠ []) :
    find k T node name w = findMock k (typeCheck k T) T node (findName k name) w := by
  cases k with
  | publisher => simp [find, findPublisher, hname rfl, typeCheck, findName]
  | subscription => exact absurd rfl hk
  | service | serviceClient | actionServer | actionClient => rfl

theorem findMock_of_unresolved (check : TypeCheck) (h : resolve k node name w = none) :
    findMock k check T node name w = (.notFound, (lookup k node name w).2) := by
  rw [resolve] at h
  simp [findMock, h]

/-- What a `find*` call does once the lookup has resolved to the entity `e`. -/
theorem findMock_of_resolve (check : TypeCheck) (h : resolve k node name w = some e)
    (hobj : w.entities.get? e = some obj) :
    findMock k check T node name w =
      if check = .castFirst ∧ obj.interface ≠ T then (.notFound, (lookup k node name w).2)
      else if (w.attachedMock obj.this).isSome then
        (.alreadyAttached, (lookup k node name w).2)
      else
        match check with
        | .throwing error =>
          if obj.interface ≠ T then (.threw error, (lookup k node name w).2)
          else makeMock k T e obj (lookup k node name w).2
        | _ => makeMock k T e obj (lookup k node name w).2 := by
  have hf := lookup_frame k node name w
  rw [resolve] at h
  simp only [findMock, h]
  rw [hf.entities, hobj]
  cases check <;> simp only [hf.attachedMock]

/-- A `find*` call that meets a live mock, or a type its function checks for, only looks up. -/
theorem find_refused (hname : rejectsEmpty k = true → name ≠ []) (hk : k ≠ .subscription)
    (h : resolve k node (findName k name) w = some e) (hobj : w.entities.get? e = some obj)
    (hno : (w.attachedMock obj.this).isSome = true ∨ (obj.interface ≠ T ∧ unchecked k = false)) :
    ∃ o : FindOutcome, o.isEmpty = true ∧
      find k T node name w = (o, (lookup k node (findName k name) w).2) := by
  rw [find_eq_findMock hk hname, findMock_of_resolve _ h hobj]
  by_cases hT : obj.interface = T
  · have hm : (w.attachedMock obj.this).isSome = true := by simpa [hT] using hno
    exact ⟨.alreadyAttached, rfl, by simp [hT, hm]⟩
  · by_cases hm : (w.attachedMock obj.this).isSome = true
    · cases k <;> simp [typeCheck, hT, hm, FindOutcome.isEmpty]
    · have hu : unchecked k = false := (hno.resolve_left hm).2
      cases k <;> simp_all [typeCheck, FindOutcome.isEmpty, unchecked]

/-- A `find*` call that meets neither makes a mock and attaches it. -/
theorem find_makes (hname : rejectsEmpty k = true → name ≠ []) (hk : k ≠ .subscription)
    (h : resolve k node (findName k name) w = some e) (hobj : w.entities.get? e = some obj)
    (hm : w.attachedMock obj.this = none) (hT : obj.interface = T ∨ unchecked k = true) :
    find k T node name w = makeMock k T e obj (lookup k node (findName k name) w).2 := by
  rw [find_eq_findMock hk hname, findMock_of_resolve _ h hobj]
  rcases hT with hT | hT
  · cases k <;> simp [typeCheck, hT, hm]
  · cases k <;> simp_all [typeCheck, unchecked]

theorem findSubscription_of_unresolved (T : Interface) {node : NodeId} {name : Name}
    (hname : name ≠ []) (hres : resolve .subscription node (findName .subscription name) w = none) :
    find .subscription T node name w =
      (.notFound, (lookup .subscription node (findName .subscription name) w).2) := by
  rw [resolve] at hres
  simp only [findName] at hres
  simp only [find, findSubscription, if_neg hname, findName, hres]

theorem findSubscription_of_resolve (T : Interface) {node : NodeId} {name : Name} {e : EntityRef}
    {obj : Entity} (hname : name ≠ [])
    (hres : resolve .subscription node (findName .subscription name) w = some e)
    (hobj : w.entities.get? e = some obj) :
    find .subscription T node name w =
      (if obj.interface = T then .subscription e else .notFound,
        (lookup .subscription node (findName .subscription name) w).2) := by
  have hf := lookup_frame .subscription node (prefixSlash name) w
  have hres : w.entities.lock (lookup .subscription node (prefixSlash name) w).1 = some e := by
    rw [← hf.entities]
    exact hres
  simp only [find, findSubscription, if_neg hname, findName, hf.entities, hres, hobj,
    Option.any_some, decide_eq_true_eq]
  split <;> rfl

/-- A `findSubscription` call only looks up. -/
theorem findSubscription_snd (hname : name ≠ []) :
    (findSubscription T node name w).2 =
      (lookup .subscription node (findName .subscription name) w).2 := by
  simp only [findSubscription, if_neg hname, findName]
  split
  · rfl
  · split <;> rfl

/-- **Every `find*` call** leaves the world alone, or does what its lookup does, or makes a mock
for the live entity it resolved to, which has none attached and, where the function checks, the
type asked for. -/
theorem find_cases (k : Kind) (T : Interface) (node : NodeId) (name : Name) (w : World) :
    (find k T node name w).2 = w ∨
    (find k T node name w).2 = (lookup k node (findName k name) w).2 ∨
    ∃ e obj, k ≠ .subscription ∧ (rejectsEmpty k = true → name ≠ []) ∧
      resolve k node (findName k name) w = some e ∧ w.entities.get? e = some obj ∧
      w.attachedMock obj.this = none ∧ (obj.interface = T ∨ unchecked k = true) ∧
      find k T node name w = makeMock k T e obj (lookup k node (findName k name) w).2 := by
  by_cases hname : rejectsEmpty k = true → name ≠ []
  · by_cases hk : k = .subscription
    · subst hk
      exact Or.inr (Or.inl (findSubscription_snd (hname rfl)))
    · cases hres : resolve k node (findName k name) w with
      | none =>
        rw [find_eq_findMock hk hname, findMock_of_unresolved _ hres]
        exact Or.inr (Or.inl rfl)
      | some e =>
        obtain ⟨-, obj, hobj⟩ := resolve_eq_some hres
        by_cases hno : (w.attachedMock obj.this).isSome = true ∨
            (obj.interface ≠ T ∧ unchecked k = false)
        · obtain ⟨o, -, ho⟩ := find_refused hname hk hres hobj hno
          rw [ho]
          exact Or.inr (Or.inl rfl)
        · simp only [not_or, not_and, Bool.not_eq_true, Option.isSome_eq_false_iff,
            Option.isNone_iff_eq_none, Bool.not_eq_false] at hno
          have hT : obj.interface = T ∨ unchecked k = true := by
            by_cases hT : obj.interface = T
            · exact Or.inl hT
            · exact Or.inr (hno.2 hT)
          exact Or.inr (Or.inr ⟨e, obj, hk, hname, rfl, hobj, hno.1, hT,
            find_makes hname hk hres hobj hno.1 hT⟩)
  · obtain ⟨hr, hnil⟩ := Classical.not_imp.mp hname
    have hnil : name = [] := not_not.mp hnil
    subst hnil
    left
    cases k <;> first | rfl | simp [rejectsEmpty] at hr

end FindMock

theorem entities_createEntity (k : Kind) (T : Interface) (this : Addr) (n : NodeRef) (node : Node)
    (name : Name) (w : World) : (w.createEntity k T this n node name).entities =
      w.entities.alloc ⟨k, T, this, n, node.controlBlock, name, !k.isAction⟩ := by
  simp only [createEntity]
  split <;> rfl

end Rtest.World
