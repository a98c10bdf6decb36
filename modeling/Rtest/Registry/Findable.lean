import Rtest.Registry.Invariant

/-!
# When a live entity can be found

A slot is taken by the first entity registered under its key and, from then on, by the first one
registered while the holder is dead. So as long as the holder is the oldest living entity of its
key, a lookup finds one whenever there is one; the step that ends this is the death of a holder
that leaves a younger entity of the same key behind.

## Main definitions

- `World.liveUnder` — the living entities registered under a key
- `World.KeepsOldest` — the operation does not destroy the oldest of several
-/

namespace Rtest.World

open StaticMocksRegistry

variable {w w' : World} {k : Kind} {name : Name}

/-- The living entities registered under a kind, a node and a name, oldest registration first. -/
def liveUnder (w : World) (k : Kind) (n : NodeRef) (name : Name) : List EntityRef :=
  ((w.history.registrations.filter fun r => r.kind = k ∧ r.node = n ∧ r.name = name).map
    (·.entity)).filter w.entities.alive

/-- Whenever some living entity is registered under a key, the slot of the key holds one. -/
def HoldsLive (w : World) : Prop :=
  ∀ n node, w.nodes.get? n = some node → ∀ k name, w.liveUnder k n name ≠ [] →
    ∃ e ∈ w.liveUnder k n name, w.entities.lock (w.registry.slot k node.controlBlock name) = some e

/-- Whenever some living entity is registered under a key, the pending ones counted that the
lookup itself registers, the lookup returns one. -/
def LookupFinds (w : World) : Prop :=
  ∀ n node, w.nodes.get? n = some node → ∀ k name,
    let found := lookup k node.controlBlock name w
    found.2.liveUnder k n name ≠ [] →
      ∃ e ∈ found.2.liveUnder k n name, found.2.entities.lock found.1 = some e

/-- The operation does not destroy the oldest living entity of a key while a younger one lives. -/
def KeepsOldest (w : World) : Op → Prop
  | .destroyEntity e => ∀ n, w.nodes.alive n = true → ∀ k name,
      (w.liveUnder k n name).head? = some e → ∀ e' ∈ w.liveUnder k n name, e' = e
  | _ => True

/-- Every slot of a kind and name holds the oldest living entity of its key. -/
def OldestHeld (k : Kind) (name : Name) (w : World) : Prop :=
  ∀ n node, w.nodes.get? n = some node →
    w.entities.lock (w.registry.slot k node.controlBlock name) = (w.liveUnder k n name).head?

/-- `KeepsOldest` for the keys of one kind and name. -/
def KeepsOldestOf (k : Kind) (name : Name) (w : World) : Op → Prop
  | .destroyEntity e => ∀ n, w.nodes.alive n = true →
      (w.liveUnder k n name).head? = some e → ∀ e' ∈ w.liveUnder k n name, e' = e
  | _ => True

theorem KeepsOldest.of {op : Op} (h : KeepsOldest w op) (k : Kind) (name : Name) :
    KeepsOldestOf k name w op := by
  cases op with
  | destroyEntity e => exact fun n hn => h n hn k name
  | _ => trivial

theorem oldestHeld_init : OldestHeld k name init := by
  intro n node hn
  cases hn

theorem holdsLive_of_oldestHeld (h : ∀ k name, OldestHeld k name w) : HoldsLive w := by
  intro n node hn k name hne
  obtain ⟨e, rest, he⟩ := List.exists_cons_of_ne_nil hne
  refine ⟨e, ?_, ?_⟩
  · rw [he]
    exact List.mem_cons_self
  · rw [h k name n node hn, he]
    rfl

/-- Only the registrations, the slots and the lives of registered entities matter. -/
theorem OldestHeld.congr (hi : Inv w) (h : OldestHeld k name w)
    (hnodes : ∀ n node, w'.nodes.get? n = some node → w.nodes.get? n = some node)
    (halive : ∀ e < w.entities.next, w'.entities.alive e = w.entities.alive e)
    (hregs : w'.history.registrations = w.history.registrations)
    (hslots : ∀ id, w'.registry.slot k id name = w.registry.slot k id name) :
    OldestHeld k name w' := by
  intro n node hn
  have hlive : w'.liveUnder k n name = w.liveUnder k n name := by
    simp only [liveUnder, hregs]
    apply List.filter_congr
    intro e he
    obtain ⟨r, hr, rfl⟩ := List.mem_map.mp he
    exact halive _ (hi.born r (List.mem_of_mem_filter hr))
  have hlock : w'.entities.lock (w.registry.slot k node.controlBlock name) =
      w.entities.lock (w.registry.slot k node.controlBlock name) := by
    cases hs : w.registry.slot k node.controlBlock name with
    | none => rfl
    | some e =>
      obtain ⟨m, hm⟩ := hi.recorded k node.controlBlock name e hs
      have ha := halive e (hi.born _ hm)
      simp only [ObjectStore.lock, Option.filter, ha]
  rw [hslots, hlive, hlock]
  exact h n node (hnodes n node hn)

/-- A registration puts the entity behind the living ones of its key. -/
theorem liveUnder_postInitSetup {e : EntityRef} {obj : Entity}
    (hobj : w.entities.get? e = some obj) (k : Kind) (n : NodeRef) (name : Name) :
    (postInitSetup e obj w).liveUnder k n name = w.liveUnder k n name ++
      if obj.kind = k ∧ obj.node = n ∧ registerName obj.kind obj.name = name then [e] else [] := by
  have ha : w.entities.alive e = true := ObjectStore.alive_of_get? hobj
  simp only [liveUnder, postInitSetup, List.filter_append, List.map_append]
  congr 1
  by_cases hkey : obj.kind = k ∧ obj.node = n ∧ registerName obj.kind obj.name = name
  · obtain ⟨rfl, rfl, rfl⟩ := hkey
    simp [ha]
  · rw [if_neg hkey, List.filter_cons_of_neg (by simpa using hkey)]
    rfl

theorem oldestHeld_postInitSetup (hi : Inv w) (h : OldestHeld k name w) {e : EntityRef}
    {obj : Entity}
    (hobj : w.entities.get? e = some obj)
    (hnode : ∃ node, w.nodes.get? obj.node = some node ∧ node.controlBlock = obj.nodeId) :
    OldestHeld k name (postInitSetup e obj w) := by
  intro n node hn
  have hn : w.nodes.get? n = some node := hn
  have hheld := h n node hn
  obtain ⟨own, hown, hcb⟩ := hnode
  -- a living node's control block is its own, so the slot and the list have one key
  have hnodeIff : node.controlBlock = obj.nodeId ↔ obj.node = n := by
    constructor
    · intro heq
      exact hi.controlBlocks obj.node n own node hown hn (hcb.trans heq.symm)
    · rintro rfl
      rw [hown] at hn
      cases hn
      exact hcb
  have hkey : (k = obj.kind ∧ node.controlBlock = obj.nodeId ∧
      name = registerName obj.kind obj.name) ↔
      (obj.kind = k ∧ obj.node = n ∧ registerName obj.kind obj.name = name) := by
    rw [hnodeIff, @eq_comm _ k, @eq_comm _ name]
  have hslot : (postInitSetup e obj w).registry.slot k node.controlBlock name =
      if (obj.kind = k ∧ obj.node = n ∧ registerName obj.kind obj.name = name) ∧
        (w.liveUnder k n name).head? = none then some e
      else w.registry.slot k node.controlBlock name := by
    rw [slot_postInitSetup]
    by_cases hmine : obj.kind = k ∧ obj.node = n ∧ registerName obj.kind obj.name = name
    · obtain ⟨rfl, hid, rfl⟩ := hkey.mpr hmine
      rw [← hheld, ← hid]
      simp [hmine]
    · rw [if_neg (fun hc => hmine (hkey.mp hc.1)), if_neg (fun hc => hmine hc.1)]
  rw [hslot, liveUnder_postInitSetup hobj]
  by_cases hmine : obj.kind = k ∧ obj.node = n ∧ registerName obj.kind obj.name = name
  · have ha : w.entities.alive e = true := ObjectStore.alive_of_get? hobj
    rw [if_pos hmine]
    cases hlive : w.liveUnder k n name with
    | nil =>
      rw [if_pos ⟨hmine, rfl⟩]
      exact ObjectStore.lock_eq_some_iff.mpr ⟨rfl, ha⟩
    | cons x rest =>
      rw [if_neg (by simp)]
      rw [hlive] at hheld
      exact hheld
  · rw [if_neg hmine, if_neg (fun hc => hmine hc.1), List.append_nil]
    exact hheld

/-- What every part of a lookup keeps. -/
theorem oldestHeld_lookup (hi : Inv w) (h : OldestHeld k name w) (k' : Kind) (node : NodeId)
    (name' : Name) : OldestHeld k name (lookup k' node name' w).2 := by
  have hboth : Inv (lookup k' node name' w).2 ∧ OldestHeld k name (lookup k' node name' w).2 := by
    refine @lookup_keeps w (fun u => Inv u ∧ OldestHeld k name u) k' node name' ?_ ?_ ?_ ?_ ⟨hi, h⟩
    · rintro it hit u obj hf hlazy hobj - ⟨hu, hold⟩
      obtain ⟨hk, obj', hobj', hkind, -⟩ := hu.pending k' it (hlazy ▸ hit)
      rw [hobj] at hobj'
      cases hobj'
      have hnode := hu.nodeHeld _ obj hobj (hkind ▸ hk)
      exact ⟨inv_postInitSetup hu hobj hnode, oldestHeld_postInitSetup hu hold hobj hnode⟩
    · rintro u e outcome ⟨hu, hold⟩
      exact ⟨inv_logInit hu e outcome, hold⟩
    · rintro u ⟨hu, hold⟩
      exact ⟨inv_dropServed hu k', hold⟩
    · rintro u ⟨hu, hold⟩
      refine ⟨inv_getUnder hu k' node name', hold.congr hu (fun _ _ hn => hn) (fun _ _ => rfl) rfl
        fun id => ?_⟩
      exact slot_getUnder k' node name' u.registry k id name
  exact hboth.2

theorem oldestHeld_find (hi : Inv w) (h : OldestHeld k name w) (k' : Kind) (T : Interface)
    (node : NodeId) (name' : Name) : OldestHeld k name (find k' T node name' w).2 := by
  have hl := oldestHeld_lookup hi h k' node (findName k' name')
  rcases find_cases k' T node name' w with hw | hw | ⟨e, obj, -, -, -, -, -, -, hw⟩
  · rw [hw]
    exact h
  · rw [hw]
    exact hl
  · rw [hw]
    exact hl

theorem oldestHeld_createNode (hi : Inv w) (h : OldestHeld k name w) {node : Node}
    (hen : w.enabled (.createNode node) = true) : OldestHeld k name (w.createNode node) := by
  simp only [enabled, Bool.and_eq_true, Bool.not_eq_true'] at hen
  intro n other hn
  have hn : (w.nodes.alloc node).get? n = some other := hn
  rw [ObjectStore.get?_alloc] at hn
  split at hn
  · next hnext =>
    -- nothing is registered for the new node, and no key names its control block
    cases hn
    have hlive : w.liveUnder k n name = [] := by
      have hfilter : (w.history.registrations.filter fun r =>
          r.kind = k ∧ r.node = n ∧ r.name = name) = [] := by
        rw [List.filter_eq_nil_iff]
        intro r hr
        have hlt := (hi.owned r hr).1
        have hne : r.node ≠ n := by
          rw [hnext]
          exact Nat.ne_of_lt hlt
        simp [hne]
      rw [liveUnder, hfilter]
      rfl
    have hslot : w.registry.slot k node.controlBlock name = none := by
      cases hs : w.registry.slot k node.controlBlock name with
      | none => rfl
      | some e =>
        obtain ⟨m, hm⟩ := hi.recorded k node.controlBlock name e hs
        have hkeeps := keeps_iff.mpr (Or.inl ⟨k, hi.keyed _ hm⟩)
        rw [hen.2] at hkeeps
        cases hkeeps
    have hgoal : w.entities.lock (w.registry.slot k node.controlBlock name) =
        (w.liveUnder k n name).head? := by
      rw [hslot, hlive]
      rfl
    exact hgoal
  · exact h n other hn

theorem oldestHeld_createEntity (hi : Inv w) (h : OldestHeld k name w) {k' : Kind} {T : Interface}
    {this : Addr} {n : NodeRef} {node : Node} {name' : Name} (hn : w.nodes.get? n = some node)
    (hfree : ∀ e other, w.entities.get? e = some other → other.this ≠ this) :
    OldestHeld k name (w.createEntity k' T this n node name') := by
  have ha := @inv_allocEntity w hi ⟨k', T, this, n, node.controlBlock, name', !k'.isAction⟩ hfree
    ⟨node, hn, rfl⟩
  have hold : OldestHeld k name { w with entities :=
      (w.entities.alloc ⟨k', T, this, n, node.controlBlock, name', !k'.isAction⟩) } := by
    refine h.congr hi (fun _ _ hn => hn) ?_ rfl (fun _ => rfl)
    intro e he
    have hne : e ≠ w.entities.next := Nat.ne_of_lt he
    simp [hne]
  simp only [createEntity]
  split
  · exact hold
  · exact oldestHeld_postInitSetup ha hold (ObjectStore.get?_alloc_next ..) ⟨node, hn, rfl⟩

theorem liveUnder_destroyEntity {e : EntityRef} {obj : Entity} (hobj : w.entities.get? e = some obj)
    (k : Kind) (n : NodeRef) (name : Name) :
    (w.destroyEntity e).liveUnder k n name = (w.liveUnder k n name).filter (· ≠ e) := by
  simp only [liveUnder, destroyEntity, hobj, List.filter_filter]
  apply List.filter_congr
  intro e' _
  simp

theorem slot_destroyEntity (e : EntityRef) (k : Kind) (id : NodeId) (name : Name) :
    (w.destroyEntity e).registry.slot k id name = w.registry.slot k id name := by
  simp only [destroyEntity]
  split
  · rfl
  · split <;> rfl

theorem nodes_destroyEntity (e : EntityRef) : (w.destroyEntity e).nodes = w.nodes := by
  simp only [destroyEntity]
  split <;> rfl

theorem lock_destroyEntity {e : EntityRef} {obj : Entity} (hobj : w.entities.get? e = some obj)
    (p : WeakPtr) :
    (w.destroyEntity e).entities.lock p = (w.entities.lock p).filter (· ≠ e) := by
  simp only [destroyEntity, hobj, ObjectStore.lock]
  cases p with
  | none => rfl
  | some e' =>
    by_cases he : e' = e
    · subst he
      cases ha : w.entities.alive e' <;> simp [Option.filter, ha]
    · cases ha : w.entities.alive e' <;> simp [Option.filter, he, ha]

/-- The death of an entity that is nowhere the oldest of several keeps every slot's holder the
oldest. -/
theorem oldestHeld_destroyEntity (h : OldestHeld k name w) {e : EntityRef} {obj : Entity}
    (hobj : w.entities.get? e = some obj) (hkeep : KeepsOldestOf k name w (.destroyEntity e)) :
    OldestHeld k name (w.destroyEntity e) := by
  intro n node hn
  rw [nodes_destroyEntity] at hn
  have hheld := h n node hn
  have honly := hkeep n (ObjectStore.alive_of_get? hn)
  rw [slot_destroyEntity, lock_destroyEntity hobj, liveUnder_destroyEntity hobj, hheld]
  cases hlive : w.liveUnder k n name with
  | nil => rfl
  | cons x rest =>
    rw [hlive] at honly
    by_cases hx : x = e
    · have hall : ∀ e' ∈ rest, e' = e := fun e' he' =>
        honly (by rw [hx]; rfl) e' (List.mem_cons_of_mem x he')
      have hnil : (x :: rest).filter (· ≠ e) = [] := by
        rw [List.filter_eq_nil_iff]
        intro e' he'
        rcases List.mem_cons.mp he' with rfl | he'
        · simp [hx]
        · simp [hall e' he']
      rw [hnil]
      simp [hx]
    · rw [List.filter_cons_of_pos (by simpa using hx)]
      simp [Option.filter, hx]

theorem oldestHeld_releaseMock (hi : Inv w) (h : OldestHeld k name w) (m : MockRef) :
    OldestHeld k name (w.releaseMock m) := by
  simp only [releaseMock]
  split
  · exact h
  · next mock hmock =>
    refine h.congr hi (fun _ _ hn => hn) (fun _ _ => rfl) rfl ?_
    intro id
    simp only [slot, (detachMock_frame mock.target w.registry).1]

theorem oldestHeld_step {op : Op} (hi : Inv w) (h : OldestHeld k name w)
    (hc : KeepsOldestOf k name w op)
    (hs : w.step op = some w') : OldestHeld k name w' := by
  obtain ⟨hen, rfl⟩ := step_eq_some_iff.mp hs
  cases op with
  | createNode node => exact oldestHeld_createNode hi h hen
  | destroyNode n =>
    exact h.congr hi (fun _ _ hm => ObjectStore.get?_of_free hm) (fun _ _ => rfl) rfl
      (fun _ => rfl)
  | createEntity k' T this n name' =>
    simp only [enabled, Bool.and_eq_true, ObjectStore.all_iff, decide_eq_true_eq] at hen
    simp only [act]
    split
    · next node hn => exact oldestHeld_createEntity hi h hn hen.2
    · exact h
  | share e =>
    refine h.congr hi (fun _ _ hn => hn) ?_ rfl (fun _ => rfl)
    intro e' _
    exact ObjectStore.alive_modify ..
  | destroyEntity e =>
    obtain ⟨obj, hobj⟩ := ObjectStore.alive_iff.mp hen
    exact oldestHeld_destroyEntity h hobj hc
  | createTimer n =>
    simp only [act]
    split
    · exact h
    · exact h
  | destroyTimer t => exact h
  | lookup k' n name' =>
    simp only [act]
    split
    · exact oldestHeld_lookup hi h _ _ _
    · exact h
  | find k' T n name' =>
    simp only [act]
    split
    · exact oldestHeld_find hi h _ _ _ _
    · exact h
  | releaseMock m => exact oldestHeld_releaseMock hi h m
  | call e => exact h
  | reset =>
    intro n node _
    have hslot : (w.act .reset).registry.slot k node.controlBlock name = none := by
      simp [act, reset, StaticMocksRegistry.reset, StaticMocksRegistry.empty, slot, findEntity]
      rfl
    rw [hslot]
    rfl

/-- From then on a lookup misses: the step that destroys the oldest of several living entities of
a key leaves the key's slot dead. -/
theorem keepsOldest_of_holdsLive (w : World) (op : Op) (w' : World)
    (h : ∀ k name, OldestHeld k name w)
    (hs : w.step op = some w') (hlive : HoldsLive w') : KeepsOldest w op := by
  obtain ⟨hen, rfl⟩ := step_eq_some_iff.mp hs
  cases op with
  | destroyEntity e =>
    obtain ⟨obj, hobj⟩ := ObjectStore.alive_iff.mp hen
    intro n hn k name hhead e' he'
    obtain ⟨node, hn⟩ := ObjectStore.alive_iff.mp hn
    by_contra hne
    have hmem : e' ∈ (w.destroyEntity e).liveUnder k n name := by
      rw [liveUnder_destroyEntity hobj]
      exact List.mem_filter.mpr ⟨he', by simpa using hne⟩
    obtain ⟨x, -, hx⟩ := hlive n node (by rw [act, nodes_destroyEntity]; exact hn) k name
      (List.ne_nil_of_mem hmem)
    rw [act, slot_destroyEntity, lock_destroyEntity hobj, h k name n node hn, hhead] at hx
    simp [Option.filter] at hx
  | _ => trivial

/-- A run that never destroys the oldest of several keeps every slot's holder the oldest. -/
theorem always_oldestHeld {ops : List Op} (hC : Runs.EachStep step KeepsOldest init ops) :
    Runs.Always step (fun w => Inv w ∧ ∀ k name, OldestHeld k name w) init ops :=
  Runs.always_of_eachStep (fun w op w' hw hc hs => ⟨inv_step w op w' hw.1 hs,
    fun k name => oldestHeld_step hw.1 (hw.2 k name) (hc.of k name) hs⟩)
    ⟨inv_init, fun _ _ => oldestHeld_init⟩ hC

/-- **When no live entity is lost.** All along a run every slot with a living registrant holds one
exactly when no step destroys the oldest living entity of a key while a younger one lives; and then
every lookup, from any state passed, finds a living entity of its key if there is one. -/
theorem findable_iff_keepsOldest {ops : List Op} (h : (Runs.run step init ops).isSome = true) :
    (Runs.Always step HoldsLive init ops ↔ Runs.EachStep step KeepsOldest init ops) ∧
    (Runs.EachStep step KeepsOldest init ops → Runs.Always step LookupFinds init ops) := by
  obtain ⟨last, hlast⟩ := Option.isSome_iff_exists.mp h
  constructor
  · exact Runs.always_iff_eachStep inv_step (fun _ _ hw => holdsLive_of_oldestHeld hw)
      (fun w op w' hi h hc hs k name => oldestHeld_step hi (h k name) (hc.of k name) hs)
      (fun w op w' _ => keepsOldest_of_holdsLive w op w') inv_init (fun _ _ => oldestHeld_init) hlast
  · intro hC
    refine (always_oldestHeld hC).mono ?_
    rintro w ⟨hi, hold⟩ n node hn k name found hne
    have hl : ∀ k' name', OldestHeld k' name' found.2 :=
      fun k' name' => oldestHeld_lookup hi (hold k' name') k node.controlBlock name
    have hn' : found.2.nodes.get? n = some node := by
      rw [(lookup_frame k node.controlBlock name w).nodes, hn]
    have hlock := holdsLive_of_oldestHeld hl n node hn' k name hne
    rwa [← lookup_fst] at hlock

/-- A node creates a publisher, then its replacement on the same name, then lets go of the first:
`pub_ = create_publisher(...)`. -/
def replacePublisher : List Op :=
  [.createNode ⟨1, 100, "/".toList, "node".toList⟩,
    .createEntity .publisher 7 10 0 "/topic".toList,
    .createEntity .publisher 7 20 0 "/topic".toList,
    .destroyEntity 0]

theorem findable_replacePublisher :
    (Runs.Always step HoldsLive init replacePublisher ↔
      Runs.EachStep step KeepsOldest init replacePublisher) ∧
    (Runs.EachStep step KeepsOldest init replacePublisher →
      Runs.Always step LookupFinds init replacePublisher) :=
  findable_iff_keepsOldest (by decide)

/-- The replacement lives, but no lookup finds it. -/
theorem replacePublisher_lost :
    (Runs.run step init replacePublisher).isSome = true ∧
      ¬ Runs.Always step LookupFinds init replacePublisher := by
  have hrun : (Runs.run step init replacePublisher).isSome = true := by decide
  refine ⟨hrun, fun h => ?_⟩
  obtain ⟨e, -, he⟩ := h.last (run_after hrun) 0 ⟨1, 100, "/".toList, "node".toList⟩
    (by decide) .publisher "/topic".toList (by decide)
  have hnone : (after replacePublisher).entities.lock
      (lookup .publisher 1 "/topic".toList (after replacePublisher)).1 = none := by decide
  have he : (after replacePublisher).entities.lock
      (lookup .publisher 1 "/topic".toList (after replacePublisher)).1 = some e := he
  rw [hnone] at he
  cases he

end Rtest.World
