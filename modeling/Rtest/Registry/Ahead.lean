import Rtest.Registry.Holders

/-!
# Registering ahead of time

A lookup registers the pending entities of its kind, also one made by a call that hands out nothing.
Had the call not been made, the next lookup would register them. The two worlds then differ by the
entities that the one has registered and the other has not, and as long as each of these is the
first in line for a free slot, every operation keeps them apart by no more than that.

## Main definitions

- `World.InTurn` — the pending entities a lookup registers are first in line for free slots
- `World.Ahead` — the same world, but for some entities registered ahead of time

## Main results

- `World.Ahead.run` — every run keeps the one world ahead of the other
- `World.InTurn.ahead` — a lookup made in turn puts a world ahead
-/

namespace Rtest.World

open StaticMocksRegistry

variable {w w' u u' : World} {k : Kind} {id : NodeId} {name : Name} {op : Op}

/-- The slot of the pending entity's key is free, and the entity is the first in line for it. -/
def FirstInLine (w : World) (k : Kind) (it : LazyInitEntry) : Prop :=
  ∀ id name, w.onKey id name it.initCallback = true →
    w.holder k id name = none ∧ w.nextInLine k id name = some it

/-- Every pending entity that a lookup of the kind would register is the first in line for a free
slot. -/
def InTurn (k : Kind) (w : World) : Prop :=
  ∀ it ∈ w.registry.lazyInit k, w.initSucceeds it.initCallback = true → w.FirstInLine k it

/-- The first in line for a slot, if it is one of these. -/
def goneUnder (w : World) (gone : List EntityRef) (k : Kind) (id : NodeId) (name : Name) :
    Option EntityRef :=
  ((w.nextInLine k id name).map (·.initCallback)).filter (· ∈ gone)

/-- `w'` is the world `w`, but for the pending entities in `gone`, which are registered in it
already: each holds a slot that in `w` is free and that it is the first in line for. -/
structure Ahead (gone : List EntityRef) (w w' : World) : Prop where
  nodes : w'.nodes = w.nodes
  entities : w'.entities = w.entities
  mocks : w'.mocks = w.mocks
  table : w'.registry.mockRegistry = w.registry.mockRegistry
  resets : w'.history.resets = w.history.resets
  lazyInit : ∀ k, w'.registry.lazyInit k =
    (w.registry.lazyInit k).filter fun it => it.initCallback ∉ gone
  holder : ∀ k id name,
    w'.holder k id name = (w.holder k id name).or (w.goneUnder gone k id name)
  first : ∀ k, ∀ it ∈ w.registry.lazyInit k, it.initCallback ∈ gone →
    w.initSucceeds it.initCallback = true ∧ w.FirstInLine k it
  born : ∀ e ∈ gone, e < w.entities.next

variable {gone : List EntityRef}

theorem goneUnder_eq_none (h : ∀ first ∈ w.registry.lazyInit k,
    w.onKey id name first.initCallback = true → first.initCallback ∉ gone) :
    w.goneUnder gone k id name = none := by
  rw [goneUnder, Option.filter_eq_none_iff]
  intro e he
  obtain ⟨first, hfirst, rfl⟩ := Option.map_eq_some_iff.mp he
  have hon := List.find?_some hfirst
  simpa using h first (List.mem_of_find?_eq_some hfirst) hon

/-- What a lookup leaves in a slot is the same in both worlds. -/
theorem Ahead.holder_served (h : Ahead gone w w') (k : Kind) (id : NodeId) (name : Name) :
    (w'.holder k id name).or (((w'.registry.lazyInit k).find? fun it =>
        w.onKey id name it.initCallback && w.initSucceeds it.initCallback).map (·.initCallback)) =
      (w.holder k id name).or (((w.registry.lazyInit k).find? fun it =>
        w.onKey id name it.initCallback && w.initSucceeds it.initCallback).map
          (·.initCallback)) := by
  rw [h.holder, h.lazyInit, Option.or_assoc, List.find?_filter]
  congr 1
  by_cases hnext : ∃ first, w.nextInLine k id name = some first ∧ first.initCallback ∈ gone
  · -- the first in line is registered already, and would be by the lookup
    obtain ⟨first, hfirst, hgone⟩ := hnext
    have hmem := List.mem_of_find?_eq_some hfirst
    have hserved := find?_and_of_find? (q := fun it => w.initSucceeds it.initCallback) hfirst
      (h.first k first hmem hgone).1
    rw [hserved]
    simp [goneUnder, hfirst, hgone]
  · -- nobody in line is registered already
    have hkept : ∀ it ∈ w.registry.lazyInit k, w.onKey id name it.initCallback = true →
        it.initCallback ∉ gone := fun it hit hkey hgone =>
      hnext ⟨it, ((h.first k it hit hgone).2 id name hkey).2, hgone⟩
    rw [goneUnder_eq_none hkept, Option.none_or]
    congr 1
    refine List.find?_congr fun it hit => ?_
    cases hkey : w.onKey id name it.initCallback with
    | false => simp
    | true => simp [hkept it hit hkey]

theorem Ahead.lookup (hi : Inv w) (hi' : Inv w') (h : Ahead gone w w') (k : Kind) (id : NodeId)
    (name : Name) : Ahead gone (lookup k id name w).2 (lookup k id name w').2 := by
  have hf := lookup_frame k id name w
  have hf' := lookup_frame k id name w'
  have hkey : ∀ id' name' e, (World.lookup k id name w).2.onKey id' name' e =
      w.onKey id' name' e := by
    intro id' name' e
    simp only [onKey, hf.entities]
  have hkey' : ∀ id' name' e, w'.onKey id' name' e = w.onKey id' name' e := by
    intro id' name' e
    simp only [onKey, h.entities]
  have hsucc : ∀ e, (World.lookup k id name w).2.initSucceeds e = w.initSucceeds e :=
    initSucceeds_frame hf
  have hsucc' : ∀ e, w'.initSucceeds e = w.initSucceeds e := by
    intro e
    simp only [initSucceeds, h.entities]
  -- what is gone would be served, so it no longer waits
  have hleft : ∀ it ∈ (World.lookup k id name w).2.registry.lazyInit k,
      it.initCallback ∉ gone := by
    intro it hit hgone
    rw [lazyInit_lookup_self hi, List.mem_filter] at hit
    simp [(h.first k it hit.1 hgone).1] at hit
  have hnext : ∀ k', k' ≠ k → ∀ id' name', (World.lookup k id name w).2.nextInLine k' id' name' =
      w.nextInLine k' id' name' := by
    intro k' hne id' name'
    simp only [nextInLine, lazyInit_lookup_other hne, hkey]
  refine { nodes := ?nodes, entities := ?entities, mocks := ?mocks, table := ?table,
           resets := ?resets, lazyInit := ?lazyInit, holder := ?holder, first := ?first,
           born := ?born }
  case nodes => rw [hf.nodes, hf'.nodes, h.nodes]
  case entities => rw [hf.entities, hf'.entities, h.entities]
  case mocks => rw [hf.mocks, hf'.mocks, h.mocks]
  case table => rw [hf.mockRegistry, hf'.mockRegistry, h.table]
  case resets => rw [hf.resets, hf'.resets, h.resets]
  case lazyInit =>
    intro k'
    by_cases hkk : k' = k
    · subst hkk
      rw [lazyInit_lookup_self hi, lazyInit_lookup_self hi', h.lazyInit, List.filter_filter,
        List.filter_filter]
      simp only [hsucc', Bool.and_comm]
    · rw [lazyInit_lookup_other hkk, lazyInit_lookup_other hkk, h.lazyInit]
  case holder =>
    intro k' id' name'
    by_cases hkk : k' = k
    · subst hkk
      rw [goneUnder_eq_none fun first hfirst _ => hleft first hfirst, Option.or_none,
        holder_lookup_self hi, holder_lookup_self hi']
      simp only [hkey', hsucc']
      exact h.holder_served k' id' name'
    · rw [holder_lookup_other hi hkk, holder_lookup_other hi' hkk, h.holder, goneUnder, goneUnder,
        hnext k' hkk]
  case first =>
    intro k' it hit hgone
    by_cases hkk : k' = k
    · subst hkk
      exact absurd hgone (hleft it hit)
    · rw [lazyInit_lookup_other hkk] at hit
      obtain ⟨hshared, hfirst⟩ := h.first k' it hit hgone
      refine ⟨by rw [hsucc, hshared], fun id' name' hon => ?_⟩
      rw [hkey] at hon
      rw [holder_lookup_other hi hkk, hnext k' hkk]
      exact hfirst id' name' hon
  case born =>
    rw [hf.entities]
    exact h.born

/-- The two worlds resolve every name alike. -/
theorem Ahead.resolve_eq (hi : Inv w) (hi' : Inv w') (h : Ahead gone w w') (k : Kind)
    (id : NodeId) (name : Name) : resolve k id name w' = resolve k id name w := by
  have hkey' : ∀ id' name' e, w'.onKey id' name' e = w.onKey id' name' e := by
    intro id' name' e
    simp only [onKey, h.entities]
  have hsucc' : ∀ e, w'.initSucceeds e = w.initSucceeds e := by
    intro e
    simp only [initSucceeds, h.entities]
  rw [resolve_eq_holder, resolve_eq_holder, holder_lookup_self hi, holder_lookup_self hi']
  simp only [hkey', hsucc']
  exact h.holder_served k id name

/-- Two worlds that differ as before in what they register: births, deaths and updates of the
objects are alike, the slots have the same holders and the same entities wait. -/
theorem Ahead.of_same (h : Ahead gone w w') (nodes : u'.nodes = u.nodes)
    (entities : u'.entities = u.entities) (mocks : u'.mocks = u.mocks)
    (table : u'.registry.mockRegistry = u.registry.mockRegistry)
    (resets : u'.history.resets = u.history.resets) (hnext : u.entities.next = w.entities.next)
    (hlazy : ∀ k, u.registry.lazyInit k = w.registry.lazyInit k)
    (hlazy' : ∀ k, u'.registry.lazyInit k = w'.registry.lazyInit k)
    (hholder : ∀ k id name, u.holder k id name = w.holder k id name)
    (hholder' : ∀ k id name, u'.holder k id name = w'.holder k id name)
    (hkey : ∀ id name e, u.onKey id name e = w.onKey id name e)
    (hsucc : ∀ e, w.initSucceeds e = true → u.initSucceeds e = true) : Ahead gone u u' where
  nodes := nodes
  entities := entities
  mocks := mocks
  table := table
  resets := resets
  lazyInit := fun k => by rw [hlazy, hlazy', h.lazyInit]
  holder := fun k id name => by
    have hnext : u.nextInLine k id name = w.nextInLine k id name := by
      simp only [nextInLine, hlazy, hkey]
    rw [hholder, hholder', h.holder, goneUnder, goneUnder, hnext]
  first := by
    intro k it hit hgone
    rw [hlazy] at hit
    obtain ⟨hshared, hfirst⟩ := h.first k it hit hgone
    refine ⟨hsucc _ hshared, fun id name hon => ?_⟩
    have hnext : u.nextInLine k id name = w.nextInLine k id name := by
      simp only [nextInLine, hlazy, hkey]
    rw [hkey] at hon
    rw [hholder, hnext]
    exact hfirst id name hon
  born := by
    rw [hnext]
    exact h.born

/-- What leaves the entities, the slots and those that wait alone, and does to the rest the same in
both worlds, leaves the one as far ahead of the other. -/
theorem Ahead.of_slots (h : Ahead gone w w') (nodes : u'.nodes = u.nodes)
    (mocks : u'.mocks = u.mocks) (table : u'.registry.mockRegistry = u.registry.mockRegistry)
    (resets : u'.history.resets = u.history.resets) (hent : u.entities = w.entities)
    (hent' : u'.entities = w'.entities)
    (hslots : u.registry.entityRegistry = w.registry.entityRegistry)
    (hslots' : u'.registry.entityRegistry = w'.registry.entityRegistry)
    (hlazy : u.registry.lazyInit = w.registry.lazyInit)
    (hlazy' : u'.registry.lazyInit = w'.registry.lazyInit) : Ahead gone u u' := by
  refine h.of_same nodes (by rw [hent, hent', h.entities]) mocks table resets (by rw [hent])
    (fun k => by rw [hlazy]) (fun k => by rw [hlazy']) ?_ ?_ ?_ ?_
  · intro k id name
    simp only [World.holder, slot, hent, hslots]
  · intro k id name
    simp only [World.holder, slot, hent', hslots']
  · intro id name e
    simp only [onKey, hent]
  · intro e hs
    simpa only [initSucceeds, hent] using hs

theorem Ahead.createEntity (hi : Inv w) (h : Ahead gone w w') (hi' : Inv w') (k : Kind)
    (T : Interface) (this : Addr) (n : NodeRef) (node : Node) (given : Name) :
    Ahead gone (w.createEntity k T this n node given) (w'.createEntity k T this n node given) := by
  have hsame := sameTable_createEntity k T this n node given w
  have hsame' := sameTable_createEntity k T this n node given w'
  have hnew : w.entities.next ∉ gone := fun hgone => Nat.lt_irrefl _ (h.born _ hgone)
  -- the one that was first in line stays it, and the newborn is not gone
  have hnext : ∀ k' id name first, w.nextInLine k' id name = some first →
      (w.createEntity k T this n node given).nextInLine k' id name = some first := by
    intro k' id name first hfirst
    have hold : (w.registry.lazyInit k').find? (fun it =>
        (w.createEntity k T this n node given).onKey id name it.initCallback) = some first := by
      rw [← hfirst]
      refine List.find?_congr fun it hit => ?_
      simp only [onKey, get?_createEntity_waiting hi hit]
    rw [nextInLine, lazyInit_createEntity, List.find?_append, hold, Option.some_or]
  have hgone : ∀ k' id name, (w.createEntity k T this n node given).goneUnder gone k' id name =
      w.goneUnder gone k' id name := by
    intro k' id name
    cases hfirst : w.nextInLine k' id name with
    | some first => rw [goneUnder, goneUnder, hnext _ _ _ _ hfirst, hfirst]
    | none =>
      rw [goneUnder_eq_none, goneUnder, hfirst]
      · rfl
      · intro first hmem hon
        rw [lazyInit_createEntity, List.mem_append] at hmem
        rcases hmem with hmem | hmem
        · have hno := List.find?_eq_none.mp hfirst first hmem
          simp only [onKey, get?_createEntity_waiting hi hmem] at hon hno
          exact absurd hon hno
        · split at hmem
          · rwa [List.mem_singleton.mp hmem]
          · cases hmem
  refine { nodes := ?nodes, entities := ?entities, mocks := ?mocks, table := ?table,
           resets := ?resets, lazyInit := ?lazyInit, holder := ?holder, first := ?first,
           born := ?born }
  case nodes => rw [nodes_createEntity, nodes_createEntity, h.nodes]
  case entities => rw [entities_createEntity, entities_createEntity, h.entities]
  case mocks => rw [hsame.mocks, hsame'.mocks, h.mocks]
  case table => rw [hsame.mockRegistry, hsame'.mockRegistry, h.table]
  case resets => rw [hsame.resets, hsame'.resets, h.resets]
  case lazyInit =>
    intro k'
    rw [lazyInit_createEntity, lazyInit_createEntity, h.lazyInit, h.entities, List.filter_append]
    congr 1
    split
    · simp [hnew]
    · rfl
  case holder =>
    intro k' id name
    rw [holder_createEntity hi, holder_createEntity hi', h.holder, h.entities, hgone]
    split
    · next hkey =>
      -- a kind that registers at once has no line
      have hnone : w.goneUnder gone k' id name = none := by
        refine goneUnder_eq_none fun first hfirst _ => ?_
        have hk := (hi.pending k' first hfirst).1
        rw [hkey.2.1, hkey.1] at hk
        cases hk
      rw [hnone, Option.or_none, Option.or_none]
    · rw [Option.or_none, Option.or_none]
  case first =>
    intro k' it hit hmem
    rw [lazyInit_createEntity, List.mem_append] at hit
    rcases hit with hit | hit
    · obtain ⟨hshared, hfirst⟩ := h.first k' it hit hmem
      refine ⟨?_, fun id name hon => ?_⟩
      · simpa only [initSucceeds, get?_createEntity_waiting hi hit] using hshared
      · simp only [onKey, get?_createEntity_waiting hi hit] at hon
        obtain ⟨hfree, hline⟩ := hfirst id name hon
        refine ⟨?_, hnext k' id name it hline⟩
        have hk := (hi.pending k' it hit).1
        rw [holder_createEntity hi, hfree, Option.none_or, if_neg]
        rintro ⟨hnow, rfl, -⟩
        rw [hnow] at hk
        cases hk
    · split at hit
      · rw [List.mem_singleton.mp hit] at hmem
        exact absurd hmem hnew
      · cases hit
  case born =>
    intro e he
    rw [entities_createEntity, ObjectStore.next_alloc]
    exact Nat.lt_succ_of_lt (h.born e he)

/-- Who comes first in line after a death was first before, or was not gone. -/
theorem Ahead.goneUnder_destroyEntity (hi : Inv w) (h : Ahead gone w w') {e : EntityRef}
    {obj : Entity} (hobj : w.entities.get? e = some obj) (k : Kind) (id : NodeId) (name : Name) :
    (w.destroyEntity e).goneUnder gone k id name =
      (w.goneUnder gone k id name).filter (· ≠ e) := by
  have hfirst : ∀ it ∈ w.registry.lazyInit k, w.onKey id name it.initCallback = true →
      it.initCallback ∈ gone → w.nextInLine k id name = some it :=
    fun it hit hon hgone => ((h.first k it hit hgone).2 id name hon).2
  rw [goneUnder, nextInLine_destroyEntity hi hobj]
  ext x
  simp only [goneUnder, Option.filter_eq_some_iff, Option.map_eq_some_iff, decide_eq_true_eq]
  constructor
  · rintro ⟨⟨it, hit, rfl⟩, hgone⟩
    have hon := List.find?_some hit
    simp only [Bool.and_eq_true, decide_eq_true_eq] at hon
    have hline := hfirst it (List.mem_of_find?_eq_some hit) hon.2 hgone
    exact ⟨⟨⟨it, hline, rfl⟩, hgone⟩, hon.1⟩
  · rintro ⟨⟨⟨it, hit, rfl⟩, hgone⟩, hne⟩
    refine ⟨⟨it, ?_, rfl⟩, hgone⟩
    have hkept := find?_and_of_find? (q := fun it => decide (it.initCallback ≠ e)) hit
      (by simpa using hne)
    rw [← hkept]
    refine List.find?_congr fun it _ => Bool.and_comm ..

theorem Ahead.destroyEntity (hi : Inv w) (hi' : Inv w') (h : Ahead gone w w') {e : EntityRef}
    {obj : Entity} (hobj : w.entities.get? e = some obj) :
    Ahead gone (w.destroyEntity e) (w'.destroyEntity e) := by
  have hobj' : w'.entities.get? e = some obj := by rw [h.entities, hobj]
  have hent : (w.destroyEntity e).entities = w.entities.free e := by
    simp only [World.destroyEntity, hobj]
  have hsame : ∀ {v : World}, v.entities.get? e = some obj → (v.destroyEntity e).mocks = v.mocks ∧
      (v.destroyEntity e).registry.mockRegistry = v.registry.mockRegistry ∧
      (v.destroyEntity e).history.resets = v.history.resets := by
    intro v hv
    simp only [World.destroyEntity, hv]
    refine ⟨trivial, ?_, trivial⟩
    split <;> rfl
  obtain ⟨hmocks, htable, hresets⟩ := hsame hobj
  obtain ⟨hmocks', htable', hresets'⟩ := hsame hobj'
  have hget : ∀ {x : EntityRef}, x ≠ e →
      (w.destroyEntity e).entities.get? x = w.entities.get? x := by
    intro x hx
    rw [hent, ObjectStore.get?_free, if_neg hx]
  refine { nodes := ?nodes, entities := ?entities, mocks := ?mocks, table := ?table,
           resets := ?resets, lazyInit := ?lazyInit, holder := ?holder, first := ?first,
           born := ?born }
  case nodes => rw [nodes_destroyEntity, nodes_destroyEntity, h.nodes]
  case entities => simp only [World.destroyEntity, hobj, h.entities]
  case mocks => rw [hmocks, hmocks', h.mocks]
  case table => rw [htable, htable', h.table]
  case resets => rw [hresets, hresets', h.resets]
  case lazyInit =>
    intro k
    rw [lazyInit_destroyEntity hi, lazyInit_destroyEntity hi', h.lazyInit, List.filter_filter,
      List.filter_filter]
    simp only [Bool.and_comm]
  case holder =>
    intro k id name
    rw [holder_destroyEntity hobj, holder_destroyEntity hobj', h.holder,
      h.goneUnder_destroyEntity hi hobj]
    cases hgone : w.goneUnder gone k id name with
    | none => simp
    | some x =>
      -- whoever is gone found a free slot
      simp only [goneUnder, Option.filter_eq_some_iff, Option.map_eq_some_iff,
        decide_eq_true_eq] at hgone
      obtain ⟨⟨it, hit, rfl⟩, hmem⟩ := hgone
      have hon := List.find?_some hit
      have hfree := ((h.first k it (List.mem_of_find?_eq_some hit) hmem).2 id name hon).1
      simp [hfree]
  case first =>
    intro k it hit hmem
    rw [lazyInit_destroyEntity hi, List.mem_filter] at hit
    obtain ⟨hit, hne⟩ := hit
    have hne : it.initCallback ≠ e := by simpa using hne
    obtain ⟨hshared, hfirst⟩ := h.first k it hit hmem
    refine ⟨by simpa only [initSucceeds, hget hne] using hshared, fun id name hon => ?_⟩
    simp only [onKey, hget hne] at hon
    obtain ⟨hfree, hline⟩ := hfirst id name hon
    refine ⟨by rw [holder_destroyEntity hobj, hfree]; rfl, ?_⟩
    rw [nextInLine_destroyEntity hi hobj]
    have hkept := find?_and_of_find? (q := fun it => decide (it.initCallback ≠ e)) hline
      (by simpa using hne)
    rw [← hkept]
    refine List.find?_congr fun it _ => Bool.and_comm ..
  case born =>
    rw [hent, ObjectStore.next_free]
    exact h.born

/-- Making a mock is alike in both worlds. -/
theorem Ahead.makeMock (h : Ahead gone w w') (k : Kind) (T : Interface) (e : EntityRef)
    (obj : Entity) : (World.makeMock k T e obj w').1 = (World.makeMock k T e obj w).1 ∧
      Ahead gone (World.makeMock k T e obj w).2 (World.makeMock k T e obj w').2 := by
  refine ⟨by simp only [World.makeMock, h.mocks],
    h.of_slots h.nodes ?_ ?_ h.resets rfl rfl rfl rfl rfl rfl⟩
  · simp only [World.makeMock, h.mocks, h.resets]
  · simp only [World.makeMock, attachMock, h.mocks, h.table]

/-- Every `find*` call has the same outcome in both worlds. -/
theorem Ahead.find (hi : Inv w) (hi' : Inv w') (h : Ahead gone w w') (k : Kind) (T : Interface)
    (id : NodeId) (name : Name) :
    (World.find k T id name w').1 = (World.find k T id name w).1 ∧
      Ahead gone (World.find k T id name w).2 (World.find k T id name w').2 := by
  by_cases hname : rejectsEmpty k = true → name ≠ []
  · have hl := h.lookup hi hi' k id (findName k name)
    have hres := h.resolve_eq hi hi' k id (findName k name)
    cases hr : resolve k id (findName k name) w with
    | none =>
      rw [hr] at hres
      by_cases hk : k = .subscription
      · subst hk
        rw [findSubscription_of_unresolved T (hname rfl) hr,
          findSubscription_of_unresolved T (hname rfl) hres]
        exact ⟨rfl, hl⟩
      · rw [find_eq_findMock hk hname, find_eq_findMock hk hname, findMock_of_unresolved _ hr,
          findMock_of_unresolved _ hres]
        exact ⟨rfl, hl⟩
    | some e =>
      rw [hr] at hres
      obtain ⟨-, obj, hobj⟩ := resolve_eq_some hr
      have hobj' : w'.entities.get? e = some obj := by rw [h.entities, hobj]
      have hatt : w'.attachedMock obj.this = w.attachedMock obj.this := by
        simp only [attachedMock, getMock, h.mocks, h.table]
      by_cases hk : k = .subscription
      · subst hk
        rw [findSubscription_of_resolve T (hname rfl) hr hobj,
          findSubscription_of_resolve T (hname rfl) hres hobj']
        exact ⟨rfl, hl⟩
      · have hmade := hl.makeMock k T e obj
        rw [find_eq_findMock hk hname, find_eq_findMock hk hname, findMock_of_resolve _ hr hobj,
          findMock_of_resolve _ hres hobj', hatt]
        split
        · exact ⟨rfl, hl⟩
        · split
          · exact ⟨rfl, hl⟩
          · cases typeCheck k T with
            | throwing error =>
              simp only
              split
              · exact ⟨rfl, hl⟩
              · exact hmade
            | castFirst | unchecked => exact hmade
  · -- the empty name is refused before anything is looked up
    obtain ⟨hr, hnil⟩ := Classical.not_imp.mp hname
    obtain rfl := not_not.mp hnil
    have hthrows : ∀ v, World.find k T id [] v = (.threw .emptyTopicName, v) := by
      intro v
      cases k <;> first | rfl | simp [rejectsEmpty] at hr
    rw [hthrows, hthrows]
    exact ⟨rfl, h⟩

/-- **Every operation** keeps the one world ahead of the other by the same entities. -/
theorem Ahead.step (hi : Inv w) (hi' : Inv w') (h : Ahead gone w w') (hs : w.step op = some u)
    (hs' : w'.step op = some u') : Ahead gone u u' := by
  obtain ⟨hen, rfl⟩ := step_eq_some_iff.mp hs
  obtain ⟨-, rfl⟩ := step_eq_some_iff.mp hs'
  cases op with
  | createNode node =>
    refine h.of_slots ?_ h.mocks h.table h.resets rfl rfl rfl rfl rfl rfl
    simp only [act, createNode, h.nodes]
  | destroyNode n =>
    refine h.of_slots ?_ h.mocks h.table h.resets rfl rfl rfl rfl rfl rfl
    simp only [act, h.nodes]
  | createEntity k T this n given =>
    simp only [enabled, Bool.and_eq_true] at hen
    obtain ⟨node, hn⟩ := ObjectStore.alive_iff.mp hen.1
    simp only [act, h.nodes, hn]
    exact h.createEntity hi hi' k T this n node given
  | share e =>
    refine h.of_same h.nodes ?_ h.mocks h.table h.resets (ObjectStore.next_modify ..)
      (fun _ => rfl) (fun _ => rfl) (holder_share w e) (holder_share w' e) (onKey_share w e) ?_
    · simp only [act, h.entities]
    · intro x hx
      rw [initSucceeds_share, hx, Bool.true_or]
  | destroyEntity e =>
    obtain ⟨obj, hobj⟩ := ObjectStore.alive_iff.mp hen
    exact h.destroyEntity hi hi' hobj
  | createTimer n =>
    obtain ⟨node, hn⟩ := ObjectStore.alive_iff.mp hen
    simp only [act, h.nodes, hn]
    exact h.of_slots h.nodes h.mocks h.table h.resets rfl rfl rfl rfl rfl rfl
  | destroyTimer | call =>
    exact h.of_slots h.nodes h.mocks h.table h.resets rfl rfl rfl rfl rfl rfl
  | lookup k n name =>
    obtain ⟨node, hn⟩ := ObjectStore.alive_iff.mp hen
    simp only [act, h.nodes, hn]
    exact h.lookup hi hi' k node.controlBlock name
  | find k T n name =>
    obtain ⟨node, hn⟩ := ObjectStore.alive_iff.mp hen
    simp only [act, h.nodes, hn]
    exact (h.find hi hi' k T node.controlBlock name).2
  | releaseMock m =>
    obtain ⟨mock, hmock⟩ := ObjectStore.alive_iff.mp hen
    have hmock' : w'.mocks.get? m = some mock := by rw [h.mocks, hmock]
    simp only [act, releaseMock, hmock, hmock']
    obtain ⟨hslots, -, hlazy⟩ := detachMock_frame mock.target w.registry
    obtain ⟨hslots', -, hlazy'⟩ := detachMock_frame mock.target w'.registry
    refine h.of_slots h.nodes ?_ ?_ h.resets rfl rfl hslots hslots' hlazy hlazy'
    · simp only [h.mocks]
    · simp only [detachMock, h.table]
      split
      · rfl
      · exact h.table
  | reset =>
    have hempty : ∀ v : World, ∀ k id name, (v.act .reset).holder k id name = none := by
      intro v k id name
      simp [World.holder, act, reset, StaticMocksRegistry.reset, StaticMocksRegistry.empty, slot,
        findEntity]
      rfl
    refine { nodes := h.nodes, entities := h.entities, mocks := h.mocks, table := rfl,
             resets := congrArg (· + 1) h.resets, lazyInit := fun _ => rfl, holder := ?holder,
             first := ?first, born := h.born }
    case holder =>
      intro k id name
      rw [hempty, hempty]
      rfl
    case first =>
      intro k it hit
      cases hit

theorem Ahead.run (hi : Inv w) (hi' : Inv w') (h : Ahead gone w w') {ops : List Op}
    (hs : Runs.run World.step w ops = some u) (hs' : Runs.run World.step w' ops = some u') :
    Inv u ∧ Inv u' ∧ Ahead gone u u' := by
  refine Runs.run_both (R := fun v v' => Inv v ∧ Inv v' ∧ Ahead gone v v') ?_ ⟨hi, hi', h⟩ hs hs'
  rintro v v' op x x' ⟨hv, hv', hahead⟩ hx hx'
  exact ⟨inv_step v op x hv hx, inv_step v' op x' hv' hx', hahead.step hv hv' hx hx'⟩

/-- A lookup made in turn puts the world ahead by what it registers. -/
theorem InTurn.ahead (hi : Inv w) (h : InTurn k w) (id : NodeId) (name : Name) :
    Ahead (((w.registry.lazyInit k).filter fun it => w.initSucceeds it.initCallback).map
      (·.initCallback)) w (lookup k id name w).2 := by
  have hf := lookup_frame k id name w
  have hgone : ∀ k', ∀ it ∈ w.registry.lazyInit k', it.initCallback ∈
      ((w.registry.lazyInit k).filter fun it => w.initSucceeds it.initCallback).map
        (·.initCallback) ↔ k' = k ∧ w.initSucceeds it.initCallback = true := by
    intro k' it hit
    simp only [List.mem_map, List.mem_filter]
    constructor
    · rintro ⟨it', ⟨hit', hs⟩, heq⟩
      rw [← heq]
      exact ⟨(hi.pending_kind hit' hit heq).symm, hs⟩
    · rintro ⟨rfl, hs⟩
      exact ⟨it, ⟨hit, hs⟩, rfl⟩
  refine { nodes := hf.nodes, entities := hf.entities, mocks := hf.mocks, table := hf.mockRegistry,
           resets := hf.resets, lazyInit := ?lazyInit, holder := ?holder, first := ?first,
           born := ?born }
  case lazyInit =>
    intro k'
    by_cases hkk : k' = k
    · subst hkk
      rw [lazyInit_lookup_self hi]
      refine List.filter_congr fun it hit => ?_
      have hiff := hgone k' it hit
      cases hs : w.initSucceeds it.initCallback <;> simp_all
    · rw [lazyInit_lookup_other hkk]
      refine (List.filter_eq_self.mpr fun it hit => ?_).symm
      have hiff := hgone k' it hit
      simp_all
  case holder =>
    intro k' id' name'
    have hserved : k' = k → ((w.registry.lazyInit k').find? fun it =>
        w.onKey id' name' it.initCallback && w.initSucceeds it.initCallback).map (·.initCallback) =
          w.goneUnder (((w.registry.lazyInit k).filter fun it =>
            w.initSucceeds it.initCallback).map (·.initCallback)) k' id' name' := by
      rintro rfl
      ext e
      simp only [goneUnder, Option.filter_eq_some_iff, Option.map_eq_some_iff, decide_eq_true_eq]
      constructor
      · rintro ⟨it, hit, rfl⟩
        have hmem := List.mem_of_find?_eq_some hit
        have hon := List.find?_some hit
        simp only [Bool.and_eq_true] at hon
        exact ⟨⟨it, (h it hmem hon.2 id' name' hon.1).2, rfl⟩, (hgone k' it hmem).mpr ⟨rfl, hon.2⟩⟩
      · rintro ⟨⟨it, hit, rfl⟩, hmem⟩
        have hs := ((hgone k' it (List.mem_of_find?_eq_some hit)).mp hmem).2
        exact ⟨it, find?_and_of_find? (q := fun it => w.initSucceeds it.initCallback) hit hs, rfl⟩
    by_cases hkk : k' = k
    · rw [← hserved hkk]
      subst hkk
      exact holder_lookup_self hi k' id name id' name'
    · rw [goneUnder_eq_none fun it hit _ hmem => hkk ((hgone k' it hit).mp hmem).1, Option.or_none,
        holder_lookup_other hi hkk]
  case first =>
    intro k' it hit hmem
    obtain ⟨rfl, hs⟩ := (hgone k' it hit).mp hmem
    exact ⟨hs, h it hit hs⟩
  case born =>
    intro e he
    obtain ⟨it, hit, rfl⟩ := List.mem_map.mp he
    obtain ⟨-, obj, hobj, -⟩ := hi.pending k it (List.mem_of_mem_filter hit)
    exact ObjectStore.lt_next_of_get? hobj

end Rtest.World
