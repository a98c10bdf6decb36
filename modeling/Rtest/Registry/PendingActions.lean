import Rtest.Registry.Invariant

/-!
# Pending action entities

An action server or client cannot register in its constructor, where nothing owns it yet, so it
leaves a callback behind that the next lookup of its kind invokes. The list of callbacks is at
every point the list of the entities still waiting, and no callback runs on a dead entity or once
too often.

## Main definitions

- `World.awaiting` — the living entities constructed since the last reset and not yet registered
- `World.initOutcome` — how the init callback of an entity would end
-/

namespace Rtest.World

open StaticMocksRegistry

variable {w w' : World} {k : Kind}

/-- Some lookup, or the constructor, has registered the entity since the last reset. -/
def registered (w : World) (e : EntityRef) : Bool :=
  w.history.registrations.any fun r => r.entity = e

/-- The living entities of a kind constructed since the last reset that are not registered. -/
def awaiting (w : World) (k : Kind) : List EntityRef :=
  (w.history.constructions k).filter fun e => w.entities.alive e && !w.registered e

/-- How the init callback of `e` would end. -/
def initOutcome (w : World) (e : EntityRef) : InitOutcome :=
  match w.entities.get? e with
  | none => .useAfterFree
  | some obj => if obj.shared then .registered else .badWeakPtr

theorem initCallback_initCalls (e : EntityRef) (w : World) :
    (initCallback e w).2.history.initCalls = w.history.initCalls ++ [(e, w.initOutcome e)] := by
  cases h : w.entities.get? e with
  | none => simp [initCallback_of_dead h, initOutcome, h, logInit]
  | some obj =>
    rw [initCallback_of_get? h]
    cases hs : obj.shared <;> simp [initOutcome, h, hs, logInit, postInitSetup]

/-- The registration the init callback of `e` makes, if it makes one. -/
def initRegistration (w : World) (e : EntityRef) : Option Registration :=
  ((w.entities.get? e).filter (·.shared)).map (registrationOf e)

theorem initCallback_registrations (e : EntityRef) (w : World) :
    (initCallback e w).2.history.registrations =
      w.history.registrations ++ (w.initRegistration e).toList := by
  cases h : w.entities.get? e with
  | none => simp [initCallback_of_dead h, initRegistration, h, logInit]
  | some obj =>
    rw [initCallback_of_get? h]
    cases hs : obj.shared <;>
      simp [initRegistration, h, hs, logInit, postInitSetup, registrationOf, Option.filter]

theorem serve_initCalls (pending : List LazyInitEntry) (w : World) :
    (serve pending w).history.initCalls = w.history.initCalls ++
      pending.map fun it => (it.initCallback, w.initOutcome it.initCallback) := by
  induction pending generalizing w with
  | nil => simp [serve]
  | cons it rest ih =>
    have hf := initCallback_frame it.initCallback w
    have hrest : ∀ e, (initCallback it.initCallback w).2.initOutcome e = w.initOutcome e := by
      intro e
      simp only [initOutcome, hf.entities]
    have hserve : serve (it :: rest) w = serve rest (initCallback it.initCallback w).2 := rfl
    simp [hserve, ih, initCallback_initCalls, hrest]

theorem serve_registrations (pending : List LazyInitEntry) (w : World) :
    (serve pending w).history.registrations = w.history.registrations ++
      pending.filterMap fun it => w.initRegistration it.initCallback := by
  induction pending generalizing w with
  | nil => simp [serve]
  | cons it rest ih =>
    have hf := initCallback_frame it.initCallback w
    have hrest : ∀ e, (initCallback it.initCallback w).2.initRegistration e =
        w.initRegistration e := by
      intro e
      simp only [initRegistration, hf.entities]
    have hserve : serve (it :: rest) w = serve rest (initCallback it.initCallback w).2 := rfl
    rw [hserve, ih, initCallback_registrations]
    cases h : w.initRegistration it.initCallback <;> simp [hrest, h]

/-- What a lookup does to the pending lists and the record of callbacks: nothing if its kind
registers at once. -/
theorem lookup_pending (k : Kind) (node : NodeId) (name : Name) (w : World) :
    let pending := if k.isAction then w.registry.lazyInit k else []
    (lookup k node name w).2.history.initCalls = w.history.initCalls ++
        pending.map (fun it => (it.initCallback, w.initOutcome it.initCallback)) ∧
      (lookup k node name w).2.history.registrations = w.history.registrations ++
        pending.filterMap (fun it => w.initRegistration it.initCallback) ∧
      (k.isAction = true → (lookup k node name w).2.registry.lazyInit k =
        (w.registry.lazyInit k).filter fun it => !w.initSucceeds it.initCallback) ∧
      ∀ k', (k' = k → k.isAction = false) →
        (lookup k node name w).2.registry.lazyInit k' = w.registry.lazyInit k' := by
  simp only [lookup, getFor_eq]
  by_cases hk : k.isAction = true
  · have hsucc : ∀ e, (serve (w.registry.lazyInit k) w).initSucceeds e = w.initSucceeds e :=
      initSucceeds_frame (serve_frame _ w)
    simp only [hk, if_true, tryLazyInit_eq]
    refine ⟨serve_initCalls _ w, serve_registrations _ w, fun _ => ?_, fun k' hk' => ?_⟩
    · simp [getUnder, dropServed, serve_lazyInit, hsucc]
    · have hne : k' ≠ k := fun h => by simpa [hk] using hk' h
      simp [getUnder, dropServed, serve_lazyInit, hne]
  · simp only [hk, Bool.false_eq_true, if_false]
    refine ⟨by simp, by simp, fun h => absurd h (by simp), fun k' _ => rfl⟩

/-- The pending lists and the record of init callbacks, in every state a run passes. -/
structure PendingInv (w : World) : Prop where
  listed : ∀ k, (w.registry.lazyInit k).map (·.initCallback) = w.awaiting k
  built : ∀ k, ∀ e ∈ w.history.constructions k, e < w.entities.next ∧
    ∀ obj, w.entities.get? e = some obj → obj.kind = k
  once : ∀ k, (w.history.constructions k).Nodup
  calledBorn : ∀ c ∈ w.history.initCalls, c.1 < w.entities.next
  calledAlive : ∀ c ∈ w.history.initCalls, c.2 ≠ .useAfterFree
  spent : ∀ c ∈ w.history.initCalls, c.2 = .registered →
    ∀ k, ∀ it ∈ w.registry.lazyInit k, it.initCallback ≠ c.1
  succeedOnce : w.history.initCalls.Pairwise fun c c' => c.2 = .registered → c'.1 ≠ c.1

theorem pendingInv_init : PendingInv init where
  listed := fun _ => rfl
  built := by intro k e h; cases h
  once := fun _ => List.nodup_nil
  calledBorn := by intro c h; cases h
  calledAlive := by intro c h; cases h
  spent := by intro c h; cases h
  succeedOnce := List.Pairwise.nil

/-- Only the lives, kinds and births of entities, their registrations and constructions, the
pending lists and the record of callbacks matter. -/
theorem PendingInv.congr (hp : PendingInv w) (hnext : w.entities.next ≤ w'.entities.next)
    (hget : ∀ e < w.entities.next, ∀ obj, w'.entities.get? e = some obj →
      ∃ old, w.entities.get? e = some old ∧ old.kind = obj.kind)
    (halive : ∀ e < w.entities.next, w'.entities.alive e = w.entities.alive e)
    (hregs : ∀ e < w.entities.next, w'.registered e = w.registered e)
    (hcons : w'.history.constructions = w.history.constructions)
    (hlazy : w'.registry.lazyInit = w.registry.lazyInit)
    (hcalls : w'.history.initCalls = w.history.initCalls) : PendingInv w' where
  listed := by
    intro k
    rw [hlazy, hp.listed, awaiting, awaiting, hcons]
    apply List.filter_congr
    intro e he
    have hborn := (hp.built k e he).1
    rw [halive e hborn, hregs e hborn]
  built := by
    intro k e he
    rw [hcons] at he
    obtain ⟨hborn, hkind⟩ := hp.built k e he
    refine ⟨Nat.lt_of_lt_of_le hborn hnext, fun obj hobj => ?_⟩
    obtain ⟨old, hold, hsame⟩ := hget e hborn obj hobj
    rw [← hsame]
    exact hkind old hold
  once := by
    intro k
    rw [hcons]
    exact hp.once k
  calledBorn := by
    intro c hc
    rw [hcalls] at hc
    exact Nat.lt_of_lt_of_le (hp.calledBorn c hc) hnext
  calledAlive := by
    rw [hcalls]
    exact hp.calledAlive
  spent := by
    rw [hcalls, hlazy]
    exact hp.spent
  succeedOnce := by
    rw [hcalls]
    exact hp.succeedOnce

theorem initRegistration_any (w : World) (e x : EntityRef) :
    (w.initRegistration e).any (fun r => r.entity = x) = (decide (e = x) && w.initSucceeds e) := by
  cases h : w.entities.get? e with
  | none => simp [initRegistration, initSucceeds, h]
  | some obj =>
    cases hs : obj.shared <;>
      simp [initRegistration, initSucceeds, h, hs, registrationOf, Option.filter]

/-- After a lookup the registered entities are those from before and the pending ones it served. -/
theorem registered_lookup (k : Kind) (node : NodeId) (name : Name) (w : World) (x : EntityRef) :
    (lookup k node name w).2.registered x = (w.registered x ||
      (if k.isAction then w.registry.lazyInit k else []).any
        fun it => decide (it.initCallback = x) && w.initSucceeds it.initCallback) := by
  obtain ⟨-, hregs, -, -⟩ := lookup_pending k node name w
  rw [registered, hregs, List.any_append, List.any_filterMap, registered]
  congr 2
  funext it
  rw [← initRegistration_any]
  cases w.initRegistration it.initCallback <;> rfl

/-- A lookup of a kind stops the wait of the entities it registers. -/
theorem awaiting_lookup_self (hp : PendingInv w) (hk : k.isAction = true) (node : NodeId)
    (name : Name) : (lookup k node name w).2.awaiting k =
      (w.awaiting k).filter fun e => !w.initSucceeds e := by
  have hf := lookup_frame k node name w
  have hregd := registered_lookup k node name w
  simp only [hk, if_true] at hregd
  rw [awaiting, awaiting, hf.constructions, List.filter_filter, hf.entities]
  apply List.filter_congr
  intro e he
  rw [hregd]
  cases ha : w.entities.alive e with
  | false => simp
  | true =>
    cases hr : w.registered e with
    | true => simp
    | false =>
      have hwaits : e ∈ w.awaiting k := List.mem_filter.mpr ⟨he, by simp [ha, hr]⟩
      rw [← hp.listed k, List.mem_map] at hwaits
      obtain ⟨it, hit, rfl⟩ := hwaits
      have hany : (w.registry.lazyInit k).any (fun it' =>
          decide (it'.initCallback = it.initCallback) && w.initSucceeds it'.initCallback) =
            w.initSucceeds it.initCallback := by
        rw [Bool.eq_iff_iff, List.any_eq_true]
        constructor
        · rintro ⟨it', -, h⟩
          simp only [Bool.and_eq_true, decide_eq_true_eq] at h
          rw [← h.1]
          exact h.2
        · intro h
          exact ⟨it, hit, by simpa using h⟩
      simp [hany]

theorem awaiting_lookup_other (hi : Inv w) (hp : PendingInv w) {k' : Kind} (hkk : k' ≠ k)
    (node : NodeId) (name : Name) : (lookup k node name w).2.awaiting k' = w.awaiting k' := by
  have hf := lookup_frame k node name w
  rw [awaiting, awaiting, hf.constructions, hf.entities]
  apply List.filter_congr
  intro e he
  have hnone : (if k.isAction then w.registry.lazyInit k else []).any (fun it =>
      decide (it.initCallback = e) && w.initSucceeds it.initCallback) = false := by
    rw [List.any_eq_false]
    intro it hit
    have hit : it ∈ w.registry.lazyInit k := by
      split at hit
      · exact hit
      · cases hit
    have hne : it.initCallback ≠ e := by
      rintro rfl
      obtain ⟨-, obj, hobj, hkind, -⟩ := hi.pending k it hit
      exact hkk (((hp.built k' _ he).2 obj hobj).symm.trans hkind)
    simp [hne]
  rw [registered_lookup, hnone, Bool.or_false]

/-- A callback on the list runs on a living object, and registers it if it is shared. -/
theorem Inv.initOutcome_pending (hi : Inv w) {it : LazyInitEntry}
    (hit : it ∈ w.registry.lazyInit k) :
    w.initOutcome it.initCallback =
      if w.initSucceeds it.initCallback then .registered else .badWeakPtr := by
  obtain ⟨-, obj, hobj, -⟩ := hi.pending k it hit
  simp [initOutcome, initSucceeds, hobj]

/-- An entity waits on the list of its own kind only. -/
theorem Inv.pending_kind (hi : Inv w) {k' : Kind} {it it' : LazyInitEntry}
    (hit : it ∈ w.registry.lazyInit k) (hit' : it' ∈ w.registry.lazyInit k')
    (heq : it.initCallback = it'.initCallback) : k = k' := by
  obtain ⟨-, obj, hobj, hkind, -⟩ := hi.pending k it hit
  obtain ⟨-, obj', hobj', hkind', -⟩ := hi.pending k' it' hit'
  rw [heq, hobj'] at hobj
  cases hobj
  exact hkind.symm.trans hkind'

/-- The init callbacks a lookup invokes are those of the entities that wait. -/
theorem mem_initCalls_lookup (hi : Inv w) (hk : k.isAction = true) (node : NodeId) (name : Name)
    {c : EntityRef × InitOutcome} (hc : c ∈ (lookup k node name w).2.history.initCalls) :
    c ∈ w.history.initCalls ∨ ∃ it ∈ w.registry.lazyInit k, c = (it.initCallback,
      if w.initSucceeds it.initCallback then .registered else .badWeakPtr) := by
  obtain ⟨hcalls, -⟩ := lookup_pending k node name w
  simp only [hk, if_true] at hcalls
  rw [hcalls, List.mem_append, List.mem_map] at hc
  obtain hc | ⟨it, hit, rfl⟩ := hc
  · exact Or.inl hc
  · exact Or.inr ⟨it, hit, by rw [hi.initOutcome_pending hit]⟩

theorem pendingInv_lookup_action (hi : Inv w) (hp : PendingInv w) (hk : k.isAction = true)
    (node : NodeId) (name : Name) : PendingInv (lookup k node name w).2 := by
  have hf := lookup_frame k node name w
  obtain ⟨hcalls, -, hkept, hothers⟩ := lookup_pending k node name w
  simp only [hk, if_true] at hcalls
  have hkept := hkept hk
  have hothers : ∀ k', k' ≠ k →
      (lookup k node name w).2.registry.lazyInit k' = w.registry.lazyInit k' :=
    fun k' hne => hothers k' (fun h => absurd h hne)
  have hcalled := fun c hc => @mem_initCalls_lookup w k hi hk node name c hc
  constructor
  case listed =>
    intro k'
    by_cases hkk : k' = k
    · subst hkk
      rw [hkept, awaiting_lookup_self hp hk, ← hp.listed k', List.filter_map]
      rfl
    · rw [hothers k' hkk, hp.listed k', awaiting_lookup_other hi hp hkk]
  case built =>
    rw [hf.constructions, hf.entities]
    exact hp.built
  case once =>
    rw [hf.constructions]
    exact hp.once
  case calledBorn =>
    intro c hc
    rw [hf.entities]
    rcases hcalled c hc with hc | ⟨it, hit, rfl⟩
    · exact hp.calledBorn c hc
    · obtain ⟨-, obj, hobj, -⟩ := hi.pending k it hit
      exact ObjectStore.lt_next_of_get? hobj
  case calledAlive =>
    intro c hc
    rcases hcalled c hc with hc | ⟨it, -, rfl⟩
    · exact hp.calledAlive c hc
    · cases w.initSucceeds it.initCallback <;> simp
  case spent =>
    intro c hc hdone k' it hit
    have hbefore : it ∈ w.registry.lazyInit k' := by
      by_cases hkk : k' = k
      · subst hkk
        rw [hkept] at hit
        exact List.mem_of_mem_filter hit
      · rwa [hothers k' hkk] at hit
    rcases hcalled c hc with hc | ⟨it', hit', rfl⟩
    · exact hp.spent c hc hdone k' it hbefore
    · -- an entry that was served is not kept
      intro heq
      obtain rfl := hi.pending_kind hbefore hit' heq
      rw [hkept, List.mem_filter, heq] at hit
      have hwaits : w.initSucceeds it'.initCallback = false := by simpa using hit.2
      simp [hwaits] at hdone
  case succeedOnce =>
    rw [hcalls, List.pairwise_append]
    refine ⟨hp.succeedOnce, ?_, ?_⟩
    · -- within one drain no entity is called twice
      have hnodup : ((w.registry.lazyInit k).map (·.initCallback)).Nodup := by
        rw [hp.listed k]
        exact (hp.once k).filter _
      rw [List.Nodup, List.pairwise_map] at hnodup
      rw [List.pairwise_map]
      exact hnodup.imp fun hne _ heq => hne heq.symm
    · intro c hc c' hc' hdone
      obtain ⟨it, hit, rfl⟩ := List.mem_map.mp hc'
      exact hp.spent c hc hdone k it hit

theorem pendingInv_lookup (hi : Inv w) (hp : PendingInv w) (k : Kind) (node : NodeId)
    (name : Name) : PendingInv (lookup k node name w).2 := by
  by_cases hk : k.isAction = true
  · exact pendingInv_lookup_action hi hp hk node name
  · obtain ⟨hcalls, hregs, -, hlazy⟩ := lookup_pending k node name w
    have hf := lookup_frame k node name w
    simp only [hk, Bool.false_eq_true, if_false, List.map_nil, List.filterMap_nil,
      List.append_nil] at hcalls hregs
    refine hp.congr ?_ ?_ ?_ ?_ hf.constructions ?_ hcalls
    · rw [hf.entities]
    · intro e _ obj hobj
      rw [hf.entities] at hobj
      exact ⟨obj, hobj, rfl⟩
    · intro e _
      rw [hf.entities]
    · intro e _
      rw [registered, hregs]
      rfl
    · funext k'
      exact hlazy k' (fun _ => by simpa using hk)

theorem pendingInv_find (hi : Inv w) (hp : PendingInv w) (k : Kind) (T : Interface)
    (node : NodeId) (name : Name) : PendingInv (find k T node name w).2 := by
  have hl := pendingInv_lookup hi hp k node (findName k name)
  rcases find_cases k T node name w with h | h | ⟨e, obj, -, -, -, -, -, -, h⟩
  · rw [h]
    exact hp
  · rw [h]
    exact hl
  · rw [h]
    exact { hl with }

theorem alive_createEntity {e : EntityRef} (he : e < w.entities.next) (T : Interface) (this : Addr)
    (n : NodeRef) (node : Node) (name : Name) :
    (w.createEntity k T this n node name).entities.alive e = w.entities.alive e := by
  have hne : e ≠ w.entities.next := Nat.ne_of_lt he
  simp [entities_createEntity, hne]

theorem get?_createEntity {e : EntityRef} (he : e < w.entities.next) (T : Interface) (this : Addr)
    (n : NodeRef) (node : Node) (name : Name) :
    (w.createEntity k T this n node name).entities.get? e = w.entities.get? e := by
  have hne : e ≠ w.entities.next := Nat.ne_of_lt he
  rw [entities_createEntity, ObjectStore.get?_alloc, if_neg hne]

/-- The constructor of an action entity puts it last on its kind's list and does nothing else. -/
theorem createEntity_action (hk : k.isAction = true) (T : Interface) (this : Addr) (n : NodeRef)
    (node : Node) (name : Name) (w : World) :
    (w.createEntity k T this n node name).registry.lazyInit = Function.update w.registry.lazyInit k
        (w.registry.lazyInit k ++ [⟨this, node.fullyQualifiedName, name, w.entities.next⟩]) ∧
      (w.createEntity k T this n node name).history.constructions = Function.update
        w.history.constructions k (w.history.constructions k ++ [w.entities.next]) ∧
      (w.createEntity k T this n node name).history.registrations = w.history.registrations ∧
      (w.createEntity k T this n node name).history.initCalls = w.history.initCalls := by
  unfold createEntity
  rw [if_pos hk]
  exact ⟨rfl, rfl, rfl, rfl⟩

/-- The newborn action entity waits last; the others wait as before. -/
theorem awaiting_createEntity (hi : Inv w) (hp : PendingInv w) (hk : k.isAction = true)
    (T : Interface) (this : Addr) (n : NodeRef) (node : Node) (name : Name) (k' : Kind) :
    (w.createEntity k T this n node name).awaiting k' =
      w.awaiting k' ++ if k' = k then [w.entities.next] else [] := by
  obtain ⟨-, hcons, hregs, -⟩ := createEntity_action hk T this n node name w
  have hregd : (w.createEntity k T this n node name).registered = w.registered := by
    funext e
    rw [registered, hregs, registered]
  have hold : (w.history.constructions k').filter (fun e =>
      (w.createEntity k T this n node name).entities.alive e && !w.registered e) =
        w.awaiting k' := by
    apply List.filter_congr
    intro e he
    rw [alive_createEntity (hp.built k' e he).1]
  rw [awaiting, hregd, hcons]
  by_cases hkk : k' = k
  · subst hkk
    have hunregistered : w.registered w.entities.next = false := by
      rw [registered, List.any_eq_false]
      intro r hr
      have hlt := hi.born r hr
      simpa using Nat.ne_of_lt hlt
    have hnewborn : (w.createEntity k' T this n node name).entities.alive w.entities.next =
        true := by
      simp [entities_createEntity]
    rw [Function.update_self, List.filter_append, hold]
    simp [hnewborn, hunregistered]
  · rw [Function.update_of_ne hkk, hold, if_neg hkk, List.append_nil]

theorem pendingInv_createEntity_action (hi : Inv w) (hp : PendingInv w) (hk : k.isAction = true)
    (T : Interface) (this : Addr) (n : NodeRef) (node : Node) (name : Name) :
    PendingInv (w.createEntity k T this n node name) := by
  obtain ⟨hlazy, hcons, -, hcalls⟩ := createEntity_action hk T this n node name w
  have hnext : (w.createEntity k T this n node name).entities.next = w.entities.next + 1 := by
    rw [entities_createEntity, ObjectStore.next_alloc]
  constructor
  case listed =>
    intro k'
    rw [awaiting_createEntity hi hp hk, hlazy, ← hp.listed k']
    by_cases hkk : k' = k
    · subst hkk
      simp
    · simp [hkk]
  case built =>
    intro k' e he
    have hcases : e ∈ w.history.constructions k' ∨ (k' = k ∧ e = w.entities.next) := by
      rw [hcons] at he
      by_cases hkk : k' = k
      · subst hkk
        simpa using he
      · rw [Function.update_of_ne hkk] at he
        exact Or.inl he
    rw [hnext]
    rcases hcases with he | ⟨rfl, rfl⟩
    · obtain ⟨hborn, hkind⟩ := hp.built k' e he
      rw [get?_createEntity hborn]
      exact ⟨Nat.lt_succ_of_lt hborn, hkind⟩
    · refine ⟨Nat.lt_succ_self _, fun obj hobj => ?_⟩
      rw [entities_createEntity, ObjectStore.get?_alloc_next] at hobj
      cases hobj
      rfl
  case once =>
    intro k'
    rw [hcons]
    by_cases hkk : k' = k
    · subst hkk
      rw [Function.update_self, List.nodup_append]
      refine ⟨hp.once k', by simp, ?_⟩
      intro e he e' he'
      rw [List.mem_singleton.mp he']
      exact Nat.ne_of_lt (hp.built k' e he).1
    · rw [Function.update_of_ne hkk]
      exact hp.once k'
  case calledBorn =>
    intro c hc
    rw [hcalls] at hc
    rw [hnext]
    exact Nat.lt_succ_of_lt (hp.calledBorn c hc)
  case calledAlive =>
    rw [hcalls]
    exact hp.calledAlive
  case spent =>
    intro c hc hdone k' it hit
    rw [hcalls] at hc
    rw [hlazy] at hit
    by_cases hkk : k' = k
    · subst hkk
      rw [Function.update_self, List.mem_append, List.mem_singleton] at hit
      rcases hit with hit | rfl
      · exact hp.spent c hc hdone k' it hit
      · exact Nat.ne_of_gt (hp.calledBorn c hc)
    · rw [Function.update_of_ne hkk] at hit
      exact hp.spent c hc hdone k' it hit
  case succeedOnce =>
    rw [hcalls]
    exact hp.succeedOnce

theorem pendingInv_createEntity (hi : Inv w) (hp : PendingInv w) (k : Kind) (T : Interface)
    (this : Addr) (n : NodeRef) (node : Node) (name : Name) :
    PendingInv (w.createEntity k T this n node name) := by
  by_cases hk : k.isAction = true
  · exact pendingInv_createEntity_action hi hp hk T this n node name
  · have hw' : w.createEntity k T this n node name =
        postInitSetup w.entities.next ⟨k, T, this, n, node.controlBlock, name, !k.isAction⟩
          { w with entities :=
            (w.entities.alloc ⟨k, T, this, n, node.controlBlock, name, !k.isAction⟩) } := by
      simp only [createEntity, hk, if_false, Bool.false_eq_true]
    refine hp.congr ?_ ?_ (fun e he => alive_createEntity he ..) ?_ ?_ ?_ ?_
    · simp [entities_createEntity]
    · intro e he obj hobj
      rw [get?_createEntity he] at hobj
      exact ⟨obj, hobj, rfl⟩
    · intro e he
      have hne : w.entities.next ≠ e := Nat.ne_of_gt he
      rw [hw']
      simp [registered, postInitSetup, hne]
    · rw [hw']
      rfl
    · rw [hw', lazyInit_postInitSetup]
    · rw [hw']
      rfl

/-- The entry a destructor removes by its address is the entity's own. -/
theorem lazyInit_destroyEntity (hi : Inv w) (e : EntityRef) (k : Kind) :
    (w.destroyEntity e).registry.lazyInit k =
      (w.registry.lazyInit k).filter fun it => it.initCallback ≠ e := by
  have hself : ∀ it ∈ w.registry.lazyInit k, ∀ obj, w.entities.get? e = some obj →
      (it.initCallback = e ↔ obj.kind = k ∧ it.rawPtr = obj.this) := by
    intro it hit obj hobj
    obtain ⟨-, other, hother, hkind, hthis⟩ := hi.pending k it hit
    constructor
    · rintro rfl
      rw [hobj] at hother
      cases hother
      exact ⟨hkind, hthis.symm⟩
    · rintro ⟨-, hptr⟩
      exact hi.addresses _ e other obj hother hobj (hthis.trans hptr)
  have hnone : (∀ obj, w.entities.get? e = some obj → obj.kind = k → k.isAction = false) →
      (w.registry.lazyInit k).filter (fun it => it.initCallback ≠ e) = w.registry.lazyInit k := by
    intro hno
    rw [List.filter_eq_self]
    intro it hit
    obtain ⟨hk, obj, hobj, hkind, -⟩ := hi.pending k it hit
    have hne : it.initCallback ≠ e := by
      rintro rfl
      rw [hno obj hobj hkind] at hk
      cases hk
    simpa using hne
  simp only [destroyEntity]
  split
  · next hdead =>
    refine (hnone fun obj hobj => ?_).symm
    rw [hdead] at hobj
    cases hobj
  · next obj hobj =>
    split
    · simp only [removeLazyInit]
      by_cases hkk : k = obj.kind
      · subst hkk
        rw [Function.update_self]
        apply List.filter_congr
        intro it hit
        have := hself it hit obj hobj
        simp [this]
      · rw [Function.update_of_ne hkk]
        refine (List.filter_eq_self.mpr fun it hit => ?_).symm
        have := hself it hit obj hobj
        simp [this, Ne.symm hkk]
    · next hact =>
      refine (hnone fun obj' hobj' hkind => ?_).symm
      rw [hobj] at hobj'
      cases hobj'
      rw [← hkind]
      simpa using hact

theorem pendingInv_destroyEntity (hi : Inv w) (hp : PendingInv w) (e : EntityRef) :
    PendingInv (w.destroyEntity e) := by
  cases hobj : w.entities.get? e with
  | none =>
    simp only [destroyEntity, hobj]
    exact hp
  | some obj =>
    have hent : (w.destroyEntity e).entities = w.entities.free e := by
      simp only [destroyEntity, hobj]
    have hhist : (w.destroyEntity e).history = w.history := by
      simp only [destroyEntity, hobj]
    refine { listed := ?_, built := ?_, once := ?_, calledBorn := ?_, calledAlive := ?_,
             spent := ?_, succeedOnce := ?_ }
    · intro k
      have hfilter : (w.destroyEntity e).awaiting k = (w.awaiting k).filter (· ≠ e) := by
        rw [awaiting, awaiting, hhist, hent, List.filter_filter]
        apply List.filter_congr
        intro e' _
        have hregd : (w.destroyEntity e).registered e' = w.registered e' := by
          rw [registered, hhist]
          rfl
        rw [hregd, ObjectStore.alive_free, Bool.and_assoc]
      rw [lazyInit_destroyEntity hi, hfilter, ← hp.listed k, List.filter_map]
      rfl
    · intro k e' he'
      rw [hhist] at he'
      obtain ⟨hborn, hkind⟩ := hp.built k e' he'
      rw [hent, ObjectStore.next_free]
      refine ⟨hborn, fun obj' hobj' => ?_⟩
      exact hkind obj' (ObjectStore.get?_of_free hobj')
    · rw [hhist]
      exact hp.once
    · rw [hhist, hent, ObjectStore.next_free]
      exact hp.calledBorn
    · rw [hhist]
      exact hp.calledAlive
    · intro c hc hdone k it hit
      rw [hhist] at hc
      rw [lazyInit_destroyEntity hi] at hit
      exact hp.spent c hc hdone k it (List.mem_of_mem_filter hit)
    · rw [hhist]
      exact hp.succeedOnce

theorem pendingInv_step (w : World) (op : Op) (w' : World) (h : Inv w ∧ PendingInv w)
    (hs : w.step op = some w') : Inv w' ∧ PendingInv w' := by
  obtain ⟨hi, hp⟩ := h
  refine ⟨inv_step w op w' hi hs, ?_⟩
  obtain ⟨hen, rfl⟩ := step_eq_some_iff.mp hs
  cases op with
  | createNode node => exact { hp with }
  | destroyNode n => exact { hp with }
  | createEntity k T this n name =>
    simp only [act]
    split
    · exact pendingInv_createEntity hi hp ..
    · exact hp
  | share e =>
    refine hp.congr (by simp [act]) ?_ (fun _ _ => ObjectStore.alive_modify ..) (fun _ _ => rfl) rfl
      rfl rfl
    intro e' _ obj hobj
    have hobj : (w.entities.modify e fun obj => { obj with shared := true }).get? e' = some obj :=
      hobj
    obtain ⟨old, hold, rfl | ⟨-, rfl⟩⟩ := ObjectStore.get?_of_modify hobj <;>
      exact ⟨_, hold, rfl⟩
  | destroyEntity e => exact pendingInv_destroyEntity hi hp e
  | createTimer n =>
    simp only [act]
    split
    · exact { hp with }
    · exact hp
  | destroyTimer t => exact { hp with }
  | lookup k n name =>
    simp only [act]
    split
    · exact pendingInv_lookup hi hp ..
    · exact hp
  | find k T n name =>
    simp only [act]
    split
    · exact pendingInv_find hi hp ..
    · exact hp
  | releaseMock m =>
    simp only [act, releaseMock]
    split
    · exact hp
    · next mock hmock =>
      obtain ⟨-, -, hlazy⟩ := detachMock_frame mock.target w.registry
      exact hp.congr (Nat.le_refl _) (fun _ _ obj hobj => ⟨obj, hobj, rfl⟩) (fun _ _ => rfl)
        (fun _ _ => rfl) rfl hlazy rfl
  | call e => exact hp
  | reset =>
    exact
      { listed := fun _ => rfl
        built := by intro k e he; cases he
        once := fun _ => List.nodup_nil
        calledBorn := hp.calledBorn
        calledAlive := hp.calledAlive
        spent := by intro c _ _ k it hit; cases hit
        succeedOnce := hp.succeedOnce }

theorem Reachable.pendingInv (h : Reachable w) : PendingInv w := by
  obtain ⟨ops, hrun⟩ := h
  exact (Runs.run_invariant pendingInv_step ⟨inv_init, pendingInv_init⟩ hrun).2

/-- What a program may rely on: the pending list of a kind is, in order and without duplicates, the
list of its living entities constructed since the last reset and not registered; a lookup of the
kind invokes each of their callbacks once, in that order, registers those that are shared, keeps
the others in order and leaves the other lists alone; no callback was ever invoked for a destroyed
entity, or again after it had succeeded. -/
structure PendingSpec (w : World) : Prop where
  waiting : ∀ k, (w.registry.lazyInit k).map (·.initCallback) = w.awaiting k ∧ (w.awaiting k).Nodup
  lookups : ∀ k node name, k.isAction = true →
    let w' := (lookup k node name w).2
    w'.history.initCalls = w.history.initCalls ++ (w.awaiting k).map (fun e =>
        (e, if w.initSucceeds e then .registered else .badWeakPtr)) ∧
      w'.history.registrations.map (·.entity) =
        w.history.registrations.map (·.entity) ++ (w.awaiting k).filter w.initSucceeds ∧
      w'.registry.lazyInit k =
        (w.registry.lazyInit k).filter (fun it => !w.initSucceeds it.initCallback) ∧
      ∀ k', k' ≠ k → w'.registry.lazyInit k' = w.registry.lazyInit k'
  noDeadCall : ∀ c ∈ w.history.initCalls, c.2 ≠ .useAfterFree
  noSecondCall : w.history.initCalls.Pairwise fun c c' => c.2 = .registered → c'.1 ≠ c.1

/-- **Pending action entities** are neither lost, duplicated nor initialised once dead, in every
run. -/
theorem pending_actions (h : Reachable w) : PendingSpec w := by
  have hi := h.inv
  have hp := h.pendingInv
  refine ⟨fun k => ⟨hp.listed k, (hp.once k).filter _⟩, ?_, hp.calledAlive, hp.succeedOnce⟩
  intro k node name hk
  obtain ⟨hcalls, hregs, hkept, hothers⟩ := lookup_pending k node name w
  simp only [hk, if_true] at hcalls hregs
  refine ⟨?_, ?_, hkept hk, fun k' hne => hothers k' (fun heq => absurd heq hne)⟩
  · rw [hcalls, ← hp.listed k, List.map_map]
    congr 1
    apply List.map_congr_left
    intro it hit
    simp [hi.initOutcome_pending hit]
  · have hentity : ∀ e, (w.initRegistration e).map (·.entity) =
        if w.initSucceeds e then some e else none := by
      intro e
      cases hobj : w.entities.get? e with
      | none => simp [initRegistration, initSucceeds, hobj]
      | some obj =>
        cases hs : obj.shared <;>
          simp [initRegistration, initSucceeds, hobj, hs, registrationOf, Option.filter]
    rw [hregs, List.map_append, List.map_filterMap, ← hp.listed k]
    congr 1
    rw [List.filter_map, ← List.filterMap_eq_filter, List.map_filterMap]
    congr 1
    funext it
    rw [hentity]
    cases hs : w.initSucceeds it.initCallback <;> simp [Option.guard, hs]

/-- Two action servers are constructed, one of them is shared and registered by a lookup, and the
other is destroyed. -/
def serveOneAction : List Op :=
  [.createNode ⟨1, 100, "/".toList, "node".toList⟩,
    .createEntity .actionServer 7 10 0 "/dock".toList,
    .createEntity .actionServer 7 20 0 "/undock".toList,
    .share 0,
    .lookup .actionServer 0 "/undock".toList,
    .destroyEntity 1]

theorem pending_serveOneAction : PendingSpec (after serveOneAction) :=
  pending_actions ⟨serveOneAction, run_after (by decide)⟩

end Rtest.World
