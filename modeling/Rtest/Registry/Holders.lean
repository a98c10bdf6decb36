import Mathlib.Data.List.Find
import Rtest.Registry.Candidates

/-!
# Who holds a slot

Every slot has a holder, the living entity in it, or is free. A lookup gives a free slot to the
pending entity that is first in line for it, of those that can register.

## Main definitions

- `World.holder` — the living entity a slot holds
- `World.nextInLine` — the pending entity that is first in line for a slot
-/

namespace Rtest.World

open StaticMocksRegistry

variable {w : World} {k : Kind} {id : NodeId} {name : Name}

-- ════════════════════════════════════════════════════════════════════════
-- What a lookup does to the slots
-- ════════════════════════════════════════════════════════════════════════

/-- The living entity a slot holds. -/
def holder (w : World) (k : Kind) (id : NodeId) (name : Name) : Option EntityRef :=
  w.entities.lock (w.registry.slot k id name)

/-- The entity is one of this node and name. -/
def onKey (w : World) (id : NodeId) (name : Name) (e : EntityRef) : Bool :=
  (w.entities.get? e).any fun obj => obj.nodeId = id ∧ obj.name = name

/-- The init callback of the entity would register it under this key. -/
def registersUnder (w : World) (k : Kind) (id : NodeId) (name : Name) (e : EntityRef) : Bool :=
  (w.entities.get? e).any fun obj =>
    obj.shared && decide (k = obj.kind ∧ id = obj.nodeId ∧ name = registerName obj.kind obj.name)

/-- The pending entity that is first in line for a slot. -/
def nextInLine (w : World) (k : Kind) (id : NodeId) (name : Name) : Option LazyInitEntry :=
  (w.registry.lazyInit k).find? fun it => w.onKey id name it.initCallback

/-- The first that meets one condition is the first that meets two, if it meets the other. -/
theorem find?_and_of_find? {α : Type} {l : List α} {p q : α → Bool} {a : α}
    (h : l.find? p = some a) (hq : q a = true) : l.find? (fun x => p x && q x) = some a := by
  obtain ⟨hp, before, rest, rfl, hbefore⟩ := List.find?_eq_some_iff_append.mp h
  refine List.find?_eq_some_iff_append.mpr ⟨by simp [hp, hq], before, rest, rfl, ?_⟩
  intro x hx
  have hx := hbefore x hx
  simp_all

/-- On the list of its kind, an entity registers under its own key if it is shared. -/
theorem registersUnder_eq (hi : Inv w) {it : LazyInitEntry} (hit : it ∈ w.registry.lazyInit k)
    (id : NodeId) (name : Name) : w.registersUnder k id name it.initCallback =
      (w.onKey id name it.initCallback && w.initSucceeds it.initCallback) := by
  obtain ⟨hk, obj, hobj, rfl, -⟩ := hi.pending k it hit
  have hname : registerName obj.kind obj.name = obj.name := by
    cases hkind : obj.kind <;> simp_all [Kind.isAction, registerName]
  simp only [registersUnder, onKey, initSucceeds, hobj, Option.any_some, hname, true_and,
    @eq_comm _ id, @eq_comm _ name]
  exact Bool.and_comm ..

/-- It registers under no other kind. -/
theorem registersUnder_other (hi : Inv w) {it : LazyInitEntry} (hit : it ∈ w.registry.lazyInit k)
    {k' : Kind} (hne : k' ≠ k) : w.registersUnder k' id name it.initCallback = false := by
  obtain ⟨-, obj, hobj, rfl, -⟩ := hi.pending k it hit
  simp [registersUnder, hobj, hne]

theorem holder_initCallback (e : EntityRef) (w : World) (k : Kind) (id : NodeId) (name : Name) :
    (initCallback e w).2.holder k id name = (w.holder k id name).or
      (if w.registersUnder k id name e then some e else none) := by
  cases hobj : w.entities.get? e with
  | none =>
    rw [initCallback_of_dead hobj]
    simp [holder, logInit, registersUnder, hobj]
  | some obj =>
    rw [initCallback_of_get? hobj]
    cases hs : obj.shared with
    | false => simp [holder, logInit, registersUnder, hobj, hs]
    | true =>
      have hent := (postInitSetup_frame e obj w).entities
      have hlock : w.entities.lock (some e) = some e :=
        ObjectStore.lock_eq_some_iff.mpr ⟨rfl, ObjectStore.alive_of_get? hobj⟩
      simp only [holder, logInit, if_true, hent, slot_postInitSetup, registersUnder, hobj, hs,
        Option.any_some, Bool.true_and, decide_eq_true_eq]
      by_cases hkey : k = obj.kind ∧ id = obj.nodeId ∧ name = registerName obj.kind obj.name
      · obtain ⟨rfl, rfl, rfl⟩ := hkey
        cases hheld : w.entities.lock (w.registry.slot obj.kind obj.nodeId
            (registerName obj.kind obj.name)) with
        | none => simp [hlock]
        | some e' => simp [hheld]
      · simp [hkey]

/-- Serving a list of pending entities gives a free slot to the first one of its key. -/
theorem holder_serve (pending : List LazyInitEntry) (w : World) (k : Kind) (id : NodeId)
    (name : Name) : (serve pending w).holder k id name = (w.holder k id name).or
      ((pending.find? fun it => w.registersUnder k id name it.initCallback).map
        (·.initCallback)) := by
  induction pending generalizing w with
  | nil => simp [serve]
  | cons it rest ih =>
    have hf := initCallback_frame it.initCallback w
    have hrest : ∀ e, (initCallback it.initCallback w).2.registersUnder k id name e =
        w.registersUnder k id name e := by
      intro e
      simp only [registersUnder, hf.entities]
    have hserve : serve (it :: rest) w = serve rest (initCallback it.initCallback w).2 := rfl
    rw [hserve, ih, holder_initCallback, Option.or_assoc, List.find?_cons]
    simp only [hrest]
    cases w.registersUnder k id name it.initCallback <;> simp

theorem holder_lookup (k : Kind) (id' : NodeId) (name' : Name) (w : World) (k' : Kind)
    (id : NodeId) (name : Name) : (lookup k id' name' w).2.holder k' id name =
      (w.holder k' id name).or (((if k.isAction then w.registry.lazyInit k else []).find?
        fun it => w.registersUnder k' id name it.initCallback).map (·.initCallback)) := by
  have hget : ∀ v : World, holder
      { v with registry := (v.registry.getUnder k id' name').2 } k' id name =
        v.holder k' id name := by
    intro v
    simp only [holder, slot_getUnder]
  simp only [lookup, getFor_eq, hget]
  split
  · rw [tryLazyInit_eq, ← holder_serve]
    rfl
  · simp

/-- For the kind that is looked up, and for the others. -/
theorem holder_lookup_self (hi : Inv w) (k : Kind) (id' : NodeId) (name' : Name) (id : NodeId)
    (name : Name) : (lookup k id' name' w).2.holder k id name = (w.holder k id name).or
      (((w.registry.lazyInit k).find? fun it => w.onKey id name it.initCallback &&
        w.initSucceeds it.initCallback).map (·.initCallback)) := by
  have hlist : (if k.isAction then w.registry.lazyInit k else []) = w.registry.lazyInit k := by
    split
    · rfl
    · next hk =>
      symm
      rw [List.eq_nil_iff_forall_not_mem]
      exact fun it hit => hk (hi.pending k it hit).1
  rw [holder_lookup, hlist]
  congr 2
  exact List.find?_congr fun it hit => registersUnder_eq hi hit id name

theorem holder_lookup_other (hi : Inv w) {k k' : Kind} (hne : k' ≠ k) (id' : NodeId)
    (name' : Name) (id : NodeId) (name : Name) :
    (lookup k id' name' w).2.holder k' id name = w.holder k' id name := by
  have hnone : (if k.isAction then w.registry.lazyInit k else []).find?
      (fun it => w.registersUnder k' id name it.initCallback) = none := by
    rw [List.find?_eq_none]
    intro it hit
    split at hit
    · rw [registersUnder_other hi hit hne]
      exact Bool.false_ne_true
    · cases hit
  rw [holder_lookup, hnone]
  simp

theorem resolve_eq_holder (k : Kind) (id : NodeId) (name : Name) (w : World) :
    resolve k id name w = (lookup k id name w).2.holder k id name := by
  rw [resolve, lookup_fst]
  rfl

/-- After a lookup only those wait that are not shared yet. -/
theorem lazyInit_lookup_self (hi : Inv w) (k : Kind) (id : NodeId) (name : Name) :
    (lookup k id name w).2.registry.lazyInit k =
      (w.registry.lazyInit k).filter fun it => !w.initSucceeds it.initCallback := by
  obtain ⟨-, -, hkept, hothers⟩ := lookup_pending k id name w
  by_cases hk : k.isAction = true
  · exact hkept hk
  · have hnil : w.registry.lazyInit k = [] := by
      rw [List.eq_nil_iff_forall_not_mem]
      exact fun it hit => hk (hi.pending k it hit).1
    rw [hothers k fun _ => by simpa using hk, hnil]
    rfl

theorem lazyInit_lookup_other {k' : Kind} (hne : k' ≠ k) (id : NodeId) (name : Name) (w : World) :
    (lookup k id name w).2.registry.lazyInit k' = w.registry.lazyInit k' :=
  (lookup_pending k id name w).2.2.2 k' fun heq => absurd heq hne

/-- A name resolves to something if a pending entity of its key can register. -/
theorem resolve_ne_none (hi : Inv w) {it : LazyInitEntry} (hit : it ∈ w.registry.lazyInit k)
    (hon : w.onKey id name it.initCallback = true)
    (hs : w.initSucceeds it.initCallback = true) : resolve k id name w ≠ none := by
  rw [resolve_eq_holder, holder_lookup_self hi, Ne, Option.or_eq_none_iff, Option.map_eq_none_iff,
    List.find?_eq_none]
  rintro ⟨-, hnone⟩
  exact hnone it hit (by simp [hon, hs])

/-- Where no pending entity can register, a name resolves to the holder of its slot. -/
theorem resolve_of_failing (hi : Inv w)
    (h : ∀ it ∈ w.registry.lazyInit k, w.initSucceeds it.initCallback = false) (id : NodeId)
    (name : Name) : resolve k id name w = w.holder k id name := by
  have hnone : (w.registry.lazyInit k).find? (fun it => w.onKey id name it.initCallback &&
      w.initSucceeds it.initCallback) = none := by
    rw [List.find?_eq_none]
    intro it hit
    simp [h it hit]
  rw [resolve_eq_holder, holder_lookup_self hi, hnone]
  simp

-- ════════════════════════════════════════════════════════════════════════
-- What births, deaths and sharing do to the slots
-- ════════════════════════════════════════════════════════════════════════

/-- What a slot holds has been born, so a birth changes no holder. -/
theorem holder_alloc (hi : Inv w) (obj : Entity) (k : Kind) (id : NodeId) (name : Name) :
    w.entities.lock (w.registry.slot k id name) =
      (w.entities.alloc obj).lock (w.registry.slot k id name) := by
  cases hslot : w.registry.slot k id name with
  | none => rfl
  | some e =>
    obtain ⟨m, hm⟩ := hi.recorded k id name e hslot
    have hne : e ≠ w.entities.next := Nat.ne_of_lt (hi.born _ hm)
    simp [ObjectStore.lock, Option.filter, hne]

theorem holder_createEntity (hi : Inv w) (T : Interface) (this : Addr) (n : NodeRef) (node : Node)
    (given : Name) (k' : Kind) (id : NodeId) (name : Name) :
    (w.createEntity k T this n node given).holder k' id name = (w.holder k' id name).or
      (if k.isAction = false ∧ k' = k ∧ id = node.controlBlock ∧ name = registerName k given then
        some w.entities.next else none) := by
  have hborn := @holder_alloc w hi ⟨k, T, this, n, node.controlBlock, given, !k.isAction⟩
  cases hk : k.isAction with
  | true =>
    have hw : (w.createEntity k T this n node given).registry.slot k' id name =
        w.registry.slot k' id name := by
      rw [createEntity, if_pos hk]
      rfl
    rw [holder, hw, entities_createEntity, ← hborn]
    simp [holder]
  | false =>
    have hlock : (w.entities.alloc ⟨k, T, this, n, node.controlBlock, given, !k.isAction⟩).lock
        (some w.entities.next) = some w.entities.next :=
      ObjectStore.lock_eq_some_iff.mpr ⟨rfl, by simp⟩
    rw [holder, entities_createEntity]
    simp only [createEntity, hk, Bool.false_eq_true, if_false, slot_postInitSetup, true_and,
      Bool.not_false] at hlock hborn ⊢
    by_cases hkey : k' = k ∧ id = node.controlBlock ∧ name = registerName k given
    · obtain ⟨rfl, rfl, rfl⟩ := hkey
      rw [← hborn]
      cases hheld : w.entities.lock
          (w.registry.slot k' node.controlBlock (registerName k' given)) with
      | none => simp [holder, hheld, hlock]
      | some e => simp [holder, hheld, ← hborn]
    · simp [holder, hkey, ← hborn]

theorem nodes_createEntity (k : Kind) (T : Interface) (this : Addr) (n : NodeRef) (node : Node)
    (given : Name) (w : World) : (w.createEntity k T this n node given).nodes = w.nodes := by
  simp only [createEntity]
  split
  · rfl
  · exact (postInitSetup_frame ..).nodes

/-- A newborn action entity waits last. -/
theorem lazyInit_createEntity (k : Kind) (T : Interface) (this : Addr) (n : NodeRef) (node : Node)
    (given : Name) (w : World) (k' : Kind) :
    (w.createEntity k T this n node given).registry.lazyInit k' = w.registry.lazyInit k' ++
      if k.isAction = true ∧ k' = k then
        [⟨this, node.fullyQualifiedName, given, w.entities.next⟩] else [] := by
  cases hk : k.isAction with
  | true =>
    rw [(createEntity_action hk T this n node given w).1]
    by_cases hkk : k' = k
    · subst hkk
      simp
    · simp [hkk]
  | false => simp [createEntity, hk]

/-- A birth changes nothing about those that wait already. -/
theorem get?_createEntity_waiting (hi : Inv w) {k' : Kind} {it : LazyInitEntry}
    (hit : it ∈ w.registry.lazyInit k') (T : Interface) (this : Addr) (n : NodeRef) (node : Node)
    (given : Name) : (w.createEntity k T this n node given).entities.get? it.initCallback =
      w.entities.get? it.initCallback := by
  obtain ⟨-, obj, hobj, -⟩ := hi.pending k' it hit
  exact get?_createEntity (ObjectStore.lt_next_of_get? hobj) ..

theorem holder_destroyEntity {e : EntityRef} {obj : Entity} (hobj : w.entities.get? e = some obj)
    (k : Kind) (id : NodeId) (name : Name) :
    (w.destroyEntity e).holder k id name = (w.holder k id name).filter (· ≠ e) := by
  rw [holder, slot_destroyEntity, lock_destroyEntity hobj, holder]

theorem holder_share (w : World) (e : EntityRef) (k : Kind) (id : NodeId) (name : Name) :
    (w.act (.share e)).holder k id name = w.holder k id name := by
  have halive : (w.entities.modify e fun obj => { obj with shared := true }).alive =
      w.entities.alive := funext fun x => ObjectStore.alive_modify ..
  simp only [holder, act, ObjectStore.lock, halive]

theorem onKey_share (w : World) (e : EntityRef) (id : NodeId) (name : Name) (x : EntityRef) :
    (w.act (.share e)).onKey id name x = w.onKey id name x := by
  simp only [onKey, act, ObjectStore.get?_modify]
  by_cases hx : x = e
  · cases hobj : w.entities.get? x <;> simp [hx]
  · rw [if_neg hx]

/-- A shared entity can register, and nobody else's chances change. -/
theorem initSucceeds_share (w : World) (e x : EntityRef) : (w.act (.share e)).initSucceeds x =
    (w.initSucceeds x || (decide (x = e) && w.entities.alive e)) := by
  simp only [initSucceeds, act, ObjectStore.get?_modify]
  by_cases hx : x = e
  · subst hx
    cases hobj : w.entities.get? x with
    | none => simp [ObjectStore.alive, hobj]
    | some obj => simp [ObjectStore.alive_of_get? hobj]
  · simp [hx]

theorem nextInLine_destroyEntity (hi : Inv w) {e : EntityRef} {obj : Entity}
    (hobj : w.entities.get? e = some obj) (k : Kind) (id : NodeId) (name : Name) :
    (w.destroyEntity e).nextInLine k id name = (w.registry.lazyInit k).find? fun it =>
      it.initCallback ≠ e && w.onKey id name it.initCallback := by
  rw [nextInLine, lazyInit_destroyEntity hi, List.find?_filter]
  refine List.find?_congr fun it _ => ?_
  by_cases hself : it.initCallback = e
  · simp [hself]
  · simp [hself, onKey, destroyEntity, hobj, ObjectStore.get?_free]

/-- After a lookup of the kind and a death nobody who waits can register. -/
theorem failing_destroyEntity_lookup (hi : Inv w) (k : Kind) (id : NodeId) (name : Name)
    (e : EntityRef) :
    ∀ it ∈ ((lookup k id name w).2.destroyEntity e).registry.lazyInit k,
      ((lookup k id name w).2.destroyEntity e).initSucceeds it.initCallback = false := by
  intro it hit
  have hf := lookup_frame k id name w
  rw [lazyInit_destroyEntity (inv_lookup hi k id name), lazyInit_lookup_self hi] at hit
  simp only [List.mem_filter, decide_eq_true_eq, Bool.not_eq_true'] at hit
  obtain ⟨⟨-, hfails⟩, hne⟩ := hit
  simp only [initSucceeds, destroyEntity, hf.entities]
  split
  · simpa only [initSucceeds, hf.entities] using hfails
  · simpa only [initSucceeds, ObjectStore.get?_free, if_neg hne] using hfails

end Rtest.World
