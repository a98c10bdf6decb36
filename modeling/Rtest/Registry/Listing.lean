import Mathlib.Data.List.Flatten
import Rtest.Registry.Invariant

/-!
# Listings of the registry

`dumpRegistry`, which prints what is registered, and the `getNode*` functions, which list what a
node has registered. Both walk the maps in their order, and no map has an entry that nothing was
registered under.

## Main definitions

- `World.dumpRegistry`, `StaticMocksRegistry.getNodeUnder` — the two listings
- `World.Occupied` — every entry of a map holds what was registered
- `World.HandlesOf` — whose handles the control blocks are

## Main results

- `World.dump_exact` — the text of the dump: what is registered, in order, and by which node
- `World.getNode_exact` — what a node has registered, by name
-/

open Std (ExtTreeMap)

namespace Rtest

namespace StaticMocksRegistry

/-- The loop of the `getNode*` functions; the subscript leaves an entry for the node behind. -/
def getNodeUnder (k : Kind) (node : NodeId) (reg : StaticMocksRegistry) :
    List WeakPtr × StaticMocksRegistry :=
  (((reg.entityRegistry k).getD node ∅).toList.map Prod.snd,
    { reg with entityRegistry := Function.update reg.entityRegistry k <|
        (reg.entityRegistry k).insertIfNew node ∅ })

def getNodePublishers := getNodeUnder .publisher
def getNodeSubscriptions := getNodeUnder .subscription
def getNodeServices := getNodeUnder .service
def getNodeServiceClients := getNodeUnder .serviceClient

/-- The names in use for a kind and a node. -/
def names (k : Kind) (node : NodeId) (reg : StaticMocksRegistry) : List Name :=
  ((reg.entityRegistry k).getD node ∅).toList.map Prod.fst

/-- The names come in the order of the map. -/
theorem names_pairwise (k : Kind) (node : NodeId) (reg : StaticMocksRegistry) :
    (reg.names k node).Pairwise fun name name' => compare name name' = .lt := by
  rw [names, List.pairwise_map]
  exact ExtTreeMap.ordered_keys_toList

theorem mem_names {k : Kind} {node : NodeId} {reg : StaticMocksRegistry} {name : Name} :
    name ∈ reg.names k node ↔ name ∈ (reg.entityRegistry k).getD node ∅ := by
  rw [names, ExtTreeMap.map_fst_toList_eq_keys, ExtTreeMap.mem_keys]

/-- The entries of a map, by its names. -/
theorem toList_eq_names (k : Kind) (node : NodeId) (reg : StaticMocksRegistry) :
    ((reg.entityRegistry k).getD node ∅).toList =
      (reg.names k node).map fun name => (name, reg.slot k node name) := by
  rw [names, List.map_map]
  symm
  refine (List.map_congr_left fun entry hmem => ?_).trans (List.map_id _)
  obtain ⟨name, e⟩ := entry
  have hget := ExtTreeMap.mem_toList_iff_getElem?_eq_some.mp hmem
  simp only [Function.comp_apply, slot, findEntity, hget, id_eq]

end StaticMocksRegistry

namespace World

open StaticMocksRegistry

variable {w w' : World} {op : Op}

-- ════════════════════════════════════════════════════════════════════════
-- The dump
-- ════════════════════════════════════════════════════════════════════════

/-- The word for a kind. -/
def entityType : Kind → String
  | .publisher => "Publisher"
  | .subscription => "Subscription"
  | .service => "Service"
  | .serviceClient => "ServiceClient"
  | .actionServer => "ActionServer"
  | .actionClient => "ActionClient"

/-- What a line of the dump says. -/
structure DumpLine where
  kind : Kind
  node : NodeId
  name : Name
  alive : Bool
  deriving DecidableEq, Repr

/-- The nodes a run creates, by their references. -/
def created (ops : List Op) : List Node :=
  ops.filterMap fun
    | .createNode node => some node
    | _ => none

/-- The rcl handle made for the node `n` lives: the node holds it, and so does every publisher,
subscription, service, client and action entity created on it. -/
def handleHeld (w : World) (n : NodeRef) : Bool :=
  w.nodes.alive n || w.entities.living.any fun obj => obj.node = n

/-- `nodeName(id)`, in a dump for `node`, whose handle the caller holds. -/
def nodeName (w : World) (node : Option NodeId) (id : NodeId) : Name :=
  match w.handles id with
  | some (n, made) =>
    if node = some id ∨ w.handleHeld n = true then made.fullyQualifiedName
    else "<expired node>".toList
  | none => "<expired node>".toList

def DumpLine.text (w : World) (node : Option NodeId) (line : DumpLine) : String :=
  "  [" ++ entityType line.kind ++ "] node=\"" ++ String.ofList (w.nodeName node line.node) ++
    "\" name=\"" ++ String.ofList line.name ++ "\"" ++
    (if line.alive then " (alive)" else " (expired)") ++ "\n"

/-- `dumpMap`; without a node nothing is skipped. -/
def dumpMap (w : World) (node : Option NodeId) (k : Kind) : List DumpLine :=
  (w.registry.entityRegistry k).toList.flatMap fun entry =>
    if node.any (· ≠ entry.1) then []
    else entry.2.toList.map fun named =>
      ⟨k, entry.1, named.1, (w.entities.lock named.2).isSome⟩

def dumpLines (w : World) (node : Option NodeId) : List DumpLine := Kind.all.flatMap (w.dumpMap node)

def dumpHeader (w : World) (node : Option NodeId) : String :=
  "=== rtest::StaticMocksRegistry dump" ++
    (match node with
    | some id => " (filter: \"" ++ String.ofList (w.nodeName node id) ++ "\")"
    | none => "") ++
    " ===\n"

/-- `dumpRegistry`. -/
def dumpRegistry (w : World) (node : Option NodeId) : String :=
  w.dumpHeader node ++ String.join ((w.dumpLines node).map (DumpLine.text w node)) ++
    "=== end dump ===\n"

/-- The order of the lines: by kind, then by control block, then by name. -/
def DumpLine.Before (line line' : DumpLine) : Prop :=
  Kind.all.idxOf line.kind < Kind.all.idxOf line'.kind ∨
    line.kind = line'.kind ∧ (line.node < line'.node ∨
      line.node = line'.node ∧ compare line.name line'.name = .lt)

/-- Something has been registered under these since the last reset. -/
def Registered (w : World) (k : Kind) (node : NodeId) (name : Name) : Prop :=
  ∃ r ∈ w.history.registrations, r.kind = k ∧ r.nodeId = node ∧ r.name = name

-- ════════════════════════════════════════════════════════════════════════
-- Entries and registrations
-- ════════════════════════════════════════════════════════════════════════

/-- Every entry of a map holds what was registered. -/
def Occupied (reg : StaticMocksRegistry) : Prop :=
  ∀ k node name, name ∈ (reg.entityRegistry k).getD node ∅ → reg.slot k node name ≠ none

theorem occupied_empty : Occupied .empty := by
  intro k node name h
  simp [StaticMocksRegistry.empty] at h

theorem Occupied.of_entityRegistry {reg reg' : StaticMocksRegistry} (h : Occupied reg)
    (heq : reg'.entityRegistry = reg.entityRegistry) : Occupied reg' := by
  intro k node name hmem
  rw [heq] at hmem
  rw [slot, heq]
  exact h k node name hmem

/-- A registration adds the entry of its own name only. -/
theorem mem_registerEntity {α : Type} {entities : ObjectStore α} {reg : Entries} {topicName : Name}
    {e : WeakPtr} {name : Name} :
    name ∈ registerEntity entities reg topicName e ↔ name = topicName ∨ name ∈ reg := by
  simp only [registerEntity]
  split <;> simp [ExtTreeMap.mem_insert, ExtTreeMap.mem_insertIfNew, @eq_comm _ name topicName]

theorem Occupied.registerUnder {α : Type} {entities : ObjectStore α} {reg : StaticMocksRegistry}
    (h : Occupied reg) (k : Kind) (node : NodeId) (name : Name) (e : EntityRef) :
    Occupied (reg.registerUnder k entities node name (some e)) := by
  intro k' node' name' hmem
  rw [slot_registerUnder]
  split
  · exact Option.some_ne_none e
  · next hkept =>
    by_cases hkey : (k' = k ∧ node' = node) ∧ name' = name
    · -- the holder was kept, so it can be locked
      obtain ⟨⟨rfl, rfl⟩, rfl⟩ := hkey
      intro hnone
      exact hkept ⟨⟨rfl, rfl, rfl⟩, by rw [hnone]; rfl⟩
    · refine h k' node' name' ?_
      simp only [StaticMocksRegistry.registerUnder] at hmem
      by_cases hk : k' = k
      · subst hk
        rw [Function.update_self, getD_insert_eq] at hmem
        split at hmem
        · next hn =>
          subst hn
          obtain rfl | hmem := mem_registerEntity.mp hmem
          · exact absurd ⟨⟨rfl, rfl⟩, rfl⟩ hkey
          · exact hmem
        · exact hmem
      · rwa [Function.update_of_ne hk] at hmem

theorem Occupied.getUnder {reg : StaticMocksRegistry} (h : Occupied reg) (k : Kind)
    (node : NodeId) (name : Name) : Occupied (reg.getUnder k node name).2 := by
  intro k' node' name' hmem
  rw [slot_getUnder]
  refine h k' node' name' ?_
  simp only [StaticMocksRegistry.getUnder] at hmem
  by_cases hk : k' = k
  · subst hk
    rwa [Function.update_self, getD_insertIfNew_fallback] at hmem
  · rwa [Function.update_of_ne hk] at hmem

theorem occupied_postInitSetup (h : Occupied w.registry) (e : EntityRef) (obj : Entity) :
    Occupied (postInitSetup e obj w).registry := by
  rw [registry_postInitSetup]
  exact h.registerUnder _ _ _ _

theorem occupied_lookup (h : Occupied w.registry) (k : Kind) (node : NodeId) (name : Name) :
    Occupied (lookup k node name w).2.registry := by
  refine lookup_keeps (P := fun u => Occupied u.registry) k node name ?_ (fun _ _ _ hu => hu)
    (fun _ hu => hu.of_entityRegistry rfl) (fun _ hu => hu.getUnder k node name) h
  intro it _ u obj _ _ _ _ hu
  exact occupied_postInitSetup hu _ obj

theorem occupied_step (h : Occupied w.registry) (hs : w.step op = some w') :
    Occupied w'.registry := by
  obtain ⟨-, rfl⟩ := step_eq_some_iff.mp hs
  cases op with
  | createNode | destroyNode | share | destroyTimer | call => exact h
  | createEntity k T this n name =>
    simp only [act]
    split
    · next node _ =>
      simp only [createEntity]
      split
      · exact h.of_entityRegistry rfl
      · rw [registry_postInitSetup]
        exact h.registerUnder _ _ _ _
    · exact h
  | destroyEntity e =>
    simp only [act, destroyEntity]
    split
    · exact h
    · refine h.of_entityRegistry ?_
      split <;> rfl
  | createTimer n =>
    simp only [act]
    split
    · exact h.of_entityRegistry rfl
    · exact h
  | lookup k n name =>
    simp only [act]
    split
    · exact occupied_lookup h _ _ _
    · exact h
  | find k T n name =>
    simp only [act]
    split
    · next node _ =>
      have hl := occupied_lookup h k node.controlBlock (findName k name)
      obtain heq | heq | ⟨e, obj, -, -, -, -, -, -, heq⟩ := find_cases k T node.controlBlock name w
      · rw [heq]
        exact h
      · rw [heq]
        exact hl
      · rw [heq]
        exact hl.of_entityRegistry rfl
    · exact h
  | releaseMock m =>
    simp only [act, releaseMock]
    split
    · exact h
    · exact h.of_entityRegistry (detachMock_frame ..).1
  | reset => exact occupied_empty

theorem Reachable.occupied (h : Reachable w) : Occupied w.registry := by
  obtain ⟨ops, hops⟩ := h
  exact Runs.run_invariant (I := fun u => Occupied u.registry)
    (fun _ _ _ hu hs => occupied_step hu hs) occupied_empty hops

/-- The entries of the maps are the names registered since the last reset. -/
theorem mem_names_iff (h : Reachable w) {k : Kind} {node : NodeId} {name : Name} :
    name ∈ w.registry.names k node ↔ w.Registered k node name := by
  have hi := h.inv
  rw [mem_names]
  constructor
  · intro hmem
    obtain ⟨e, he⟩ := Option.ne_none_iff_exists'.mp (h.occupied k node name hmem)
    obtain ⟨n, hr⟩ := hi.recorded k node name e he
    exact ⟨_, hr, rfl, rfl, rfl⟩
  · rintro ⟨r, hr, rfl, rfl, rfl⟩
    by_contra hmem
    refine hi.filled r hr ?_
    rw [slot, findEntity, ExtTreeMap.getElem?_eq_none hmem]
    rfl

-- ════════════════════════════════════════════════════════════════════════
-- Handles and nodes
-- ════════════════════════════════════════════════════════════════════════

/-- The rcl handles are those of the nodes `made`: a living node's control block is that of its own
handle, and so is one the registry has a registration for. -/
structure HandlesOf (made : List Node) (w : World) : Prop where
  count : w.nodes.next = made.length
  living : ∀ n node, w.nodes.get? n = some node → w.handles node.controlBlock = some (n, node)
  ofNode : ∀ id n node, w.handles id = some (n, node) → made[n]? = some node ∧
    node.controlBlock = id
  registered : ∀ r ∈ w.history.registrations, ∃ node, w.handles r.nodeId = some (r.node, node)

variable {made : List Node}

theorem handlesOf_init : HandlesOf [] init where
  count := rfl
  living := by intro n node h; cases h
  ofNode := by intro id n node h; cases h
  registered := by intro r h; cases h

/-- What creates and destroys no node keeps the handles, if it registers nothing new. -/
theorem HandlesOf.of_nodes (h : HandlesOf made w) (hnodes : w'.nodes = w.nodes)
    (hhandles : w'.handles = w.handles)
    (hregs : ∀ r ∈ w'.history.registrations, r ∈ w.history.registrations) : HandlesOf made w' where
  count := by rw [hnodes, h.count]
  living := by
    rw [hnodes, hhandles]
    exact h.living
  ofNode := by
    rw [hhandles]
    exact h.ofNode
  registered := by
    intro r hr
    rw [hhandles]
    exact h.registered r (hregs r hr)

/-- Setting an entity up registers it under the handle of its node, which lives. -/
theorem HandlesOf.postInitSetup (h : HandlesOf made w) (e : EntityRef) {obj : Entity}
    (hnode : ∃ node, w.nodes.get? obj.node = some node ∧ node.controlBlock = obj.nodeId) :
    HandlesOf made (postInitSetup e obj w) := by
  refine { h with registered := ?_ }
  intro r hr
  rcases mem_registrations_postInitSetup.mp hr with hr | rfl
  · exact h.registered r hr
  · obtain ⟨node, hn, hcb⟩ := hnode
    refine ⟨node, ?_⟩
    show w.handles obj.nodeId = some (obj.node, node)
    rw [← hcb]
    exact h.living obj.node node hn

theorem HandlesOf.lookup (h : HandlesOf made w) (hi : Inv w) (k : Kind) (node : NodeId)
    (name : Name) : HandlesOf made (lookup k node name w).2 := by
  refine lookup_keeps k node name ?_
    (fun _ _ _ hu => hu.of_nodes rfl rfl fun _ hr => hr)
    (fun _ hu => hu.of_nodes rfl rfl fun _ hr => hr)
    (fun _ hu => hu.of_nodes rfl rfl fun _ hr => hr) h
  intro it hit u obj hf _ hobj _ hu
  -- an action entity keeps its node
  rw [hf.entities] at hobj
  obtain ⟨hact, other, hother, hkind, -⟩ := hi.pending k it hit
  rw [hobj] at hother
  cases hother
  refine hu.postInitSetup it.initCallback ?_
  rw [hf.nodes]
  exact hi.nodeHeld _ obj hobj (hkind ▸ hact)

theorem HandlesOf.createNode (h : HandlesOf made w) {node : Node}
    (hen : w.enabled (.createNode node) = true) (hi : Inv w) :
    HandlesOf (made ++ [node]) (w.createNode node) := by
  simp only [enabled, Bool.and_eq_true, ObjectStore.all_iff, decide_eq_true_eq,
    Bool.not_eq_true'] at hen
  obtain ⟨hfree, hkeeps⟩ := hen
  refine ⟨?count, ?living, ?ofNode, ?registered⟩
  case count => simp [World.createNode, h.count]
  case living =>
    intro n other hn
    simp only [World.createNode, ObjectStore.get?_alloc] at hn ⊢
    split at hn
    · next heq =>
      cases hn
      rw [heq, Function.update_self]
    · rw [Function.update_of_ne (hfree n other hn)]
      exact h.living n other hn
  case ofNode =>
    intro id n other hid
    simp only [World.createNode, Function.update_apply] at hid
    split at hid
    · next heq =>
      cases hid
      rw [h.count]
      exact ⟨List.getElem?_concat_length, heq.symm⟩
    · obtain ⟨hmade, hcb⟩ := h.ofNode id n other hid
      refine ⟨?_, hcb⟩
      rw [List.getElem?_append_left (List.getElem?_eq_some_iff.mp hmade).1]
      exact hmade
  case registered =>
    intro r hr
    -- the key of the registry keeps the control block from being used again
    have hne : r.nodeId ≠ node.controlBlock := by
      intro heq
      have hkey := keeps_iff.mpr (Or.inl ⟨r.kind, hi.keyed r hr⟩)
      rw [heq, hkeeps] at hkey
      cases hkey
    simp only [World.createNode, Function.update_of_ne hne]
    exact h.registered r hr

theorem HandlesOf.destroyNode (h : HandlesOf made w) (n : NodeRef) :
    HandlesOf made { w with nodes := w.nodes.free n } where
  count := by simp [h.count]
  living := fun m node hm => h.living m node (ObjectStore.get?_of_free hm)
  ofNode := h.ofNode
  registered := h.registered

theorem HandlesOf.createEntity (h : HandlesOf made w) {k : Kind} {T : Interface} {this : Addr}
    {n : NodeRef} {node : Node} {name : Name} (hn : w.nodes.get? n = some node) :
    HandlesOf made (w.createEntity k T this n node name) := by
  simp only [World.createEntity]
  split
  · exact h.of_nodes rfl rfl fun _ hr => hr
  · let obj : Entity := ⟨k, T, this, n, node.controlBlock, name, !k.isAction⟩
    have hborn : HandlesOf made { w with entities := w.entities.alloc obj } :=
      h.of_nodes rfl rfl fun _ hr => hr
    exact hborn.postInitSetup w.entities.next ⟨node, hn, rfl⟩

theorem HandlesOf.step (h : HandlesOf made w) (hi : Inv w) (hs : w.step op = some w') :
    HandlesOf (made ++ created [op]) w' := by
  obtain ⟨hen, rfl⟩ := step_eq_some_iff.mp hs
  by_cases hmakes : ∃ node, op = .createNode node
  · obtain ⟨node, rfl⟩ := hmakes
    exact h.createNode hen hi
  have hmade : created [op] = [] := by
    cases op with
    | createNode node => exact absurd ⟨node, rfl⟩ hmakes
    | _ => rfl
  rw [hmade, List.append_nil]
  cases op with
  | createNode node => exact absurd ⟨node, rfl⟩ hmakes
  | destroyNode n => exact h.destroyNode n
  | createEntity k T this n name =>
    simp only [act]
    split
    · next node hn => exact h.createEntity hn
    · exact h
  | share | destroyTimer => exact h.of_nodes rfl rfl fun _ hr => hr
  | destroyEntity e =>
    simp only [act, destroyEntity]
    split
    · exact h
    · exact h.of_nodes rfl rfl fun _ hr => hr
  | createTimer n =>
    simp only [act]
    split
    · exact h.of_nodes rfl rfl fun _ hr => hr
    · exact h
  | lookup k n name =>
    simp only [act]
    split
    · exact h.lookup hi _ _ _
    · exact h
  | find k T n name =>
    simp only [act]
    split
    · next node _ =>
      have hl := h.lookup hi k node.controlBlock (findName k name)
      obtain heq | heq | ⟨e, obj, -, -, -, -, -, -, heq⟩ := find_cases k T node.controlBlock name w
      · rw [heq]
        exact h
      · rw [heq]
        exact hl
      · rw [heq]
        exact hl.of_nodes rfl rfl fun _ hr => hr
    · exact h
  | releaseMock m =>
    simp only [act, releaseMock]
    split
    · exact h
    · exact h.of_nodes rfl rfl fun _ hr => hr
  | call => exact h
  | reset => exact h.of_nodes rfl rfl fun _ hr => by cases hr

/-- The handles in the world a run ends in are those of the nodes it created. -/
theorem handlesOf_run {ops : List Op} (h : Runs.run World.step init ops = some w) :
    HandlesOf (created ops) w := by
  induction ops using List.reverseRecOn generalizing w with
  | nil =>
    cases h
    exact handlesOf_init
  | append_singleton ops op ih =>
    obtain ⟨u, hu, hs⟩ := Runs.run_concat h
    have hu' : Reachable u := ⟨ops, hu⟩
    rw [created, List.filterMap_append]
    exact (ih hu).step hu'.inv hs

-- ════════════════════════════════════════════════════════════════════════
-- What the listings say
-- ════════════════════════════════════════════════════════════════════════

/-- The line for a name in use. -/
def lineFor (w : World) (k : Kind) (id : NodeId) (name : Name) : DumpLine :=
  ⟨k, id, name, (w.entities.lock (w.registry.slot k id name)).isSome⟩

/-- The walk over the maps of a kind, by control blocks and names. -/
theorem dumpMap_eq (w : World) (node : Option NodeId) (k : Kind) : w.dumpMap node k =
    (w.registry.entityRegistry k).keys.flatMap fun id =>
      if node.any (· ≠ id) then [] else (w.registry.names k id).map (w.lineFor k id) := by
  rw [dumpMap, ← ExtTreeMap.map_fst_toList_eq_keys, List.flatMap_map]
  refine List.flatMap_congr fun entry hmem => ?_
  obtain ⟨id, entries⟩ := entry
  have hget := ExtTreeMap.mem_toList_iff_getElem?_eq_some.mp hmem
  have hentries : entries = (w.registry.entityRegistry k).getD id ∅ := by
    rw [ExtTreeMap.getD_eq_getD_getElem?, hget]
    rfl
  split
  · rfl
  · rw [hentries, toList_eq_names, List.map_map]
    rfl

/-- A node is skipped if another one is asked for. -/
theorem not_skipped_iff {node : Option NodeId} {id : NodeId} :
    ¬ (node.any (· ≠ id)) = true ↔ ∀ id' ∈ node, id = id' := by
  cases node with
  | none => simp
  | some id' => simp [@eq_comm _ id id']

theorem mem_dumpMap {node : Option NodeId} {k : Kind} {line : DumpLine} :
    line ∈ w.dumpMap node k ↔ (∀ id ∈ node, line.node = id) ∧
      line.name ∈ w.registry.names k line.node ∧ line = w.lineFor k line.node line.name := by
  rw [dumpMap_eq]
  simp only [List.mem_flatMap]
  constructor
  · rintro ⟨id, -, hmem⟩
    split at hmem
    · cases hmem
    · next hkept =>
      obtain ⟨name, hname, rfl⟩ := List.mem_map.mp hmem
      exact ⟨not_skipped_iff.mp hkept, hname, rfl⟩
  · rintro ⟨hnode, hname, heq⟩
    refine ⟨line.node, ?_, ?_⟩
    · rw [ExtTreeMap.mem_keys]
      by_contra hmem
      rw [mem_names, ExtTreeMap.getD_eq_fallback hmem] at hname
      simp at hname
    · rw [if_neg (not_skipped_iff.mpr hnode), heq]
      exact List.mem_map_of_mem hname

/-- The lines of a kind come by control block, then by name. -/
theorem dumpMap_pairwise (w : World) (node : Option NodeId) (k : Kind) :
    (w.dumpMap node k).Pairwise DumpLine.Before := by
  have hmem : ∀ id line, line ∈ (if node.any (· ≠ id) then []
      else (w.registry.names k id).map (w.lineFor k id)) → line.kind = k ∧ line.node = id := by
    intro id line h
    split at h
    · cases h
    · obtain ⟨name, -, rfl⟩ := List.mem_map.mp h
      exact ⟨rfl, rfl⟩
  rw [dumpMap_eq, List.pairwise_flatMap]
  refine ⟨fun id _ => ?_, ?_⟩
  · split
    · exact .nil
    · rw [List.pairwise_map]
      exact (names_pairwise k id w.registry).imp fun h => Or.inr ⟨rfl, Or.inr ⟨rfl, h⟩⟩
  · refine (ExtTreeMap.ordered_keys (t := w.registry.entityRegistry k)).imp ?_
    intro id id' hlt line hline line' hline'
    obtain ⟨hk, hid⟩ := hmem id line hline
    obtain ⟨hk', hid'⟩ := hmem id' line' hline'
    refine Or.inr ⟨hk.trans hk'.symm, Or.inl ?_⟩
    rw [hid, hid']
    exact Nat.compare_eq_lt.mp hlt

theorem dumpLines_pairwise (w : World) (node : Option NodeId) :
    (w.dumpLines node).Pairwise DumpLine.Before := by
  rw [dumpLines, List.pairwise_flatMap]
  refine ⟨fun k _ => dumpMap_pairwise w node k, ?_⟩
  have hkinds : Kind.all.Pairwise fun k k' => Kind.all.idxOf k < Kind.all.idxOf k' := by decide
  refine hkinds.imp ?_
  intro k k' hlt line hline line' hline'
  have hk := congrArg DumpLine.kind (mem_dumpMap.mp hline).2.2
  have hk' := congrArg DumpLine.kind (mem_dumpMap.mp hline').2.2
  refine Or.inl ?_
  rw [hk, hk']
  exact hlt

theorem mem_dumpLines (h : Reachable w) {node : Option NodeId} {line : DumpLine} :
    line ∈ w.dumpLines node ↔ (∀ id ∈ node, line.node = id) ∧
      w.Registered line.kind line.node line.name ∧
      line.alive = (w.entities.lock (w.registry.slot line.kind line.node line.name)).isSome := by
  simp only [dumpLines, List.mem_flatMap, mem_dumpMap, mem_names_iff h]
  constructor
  · rintro ⟨k, -, hnode, hname, heq⟩
    have hk := congrArg DumpLine.kind heq
    have halive := congrArg DumpLine.alive heq
    have hk : line.kind = k := hk
    subst hk
    exact ⟨hnode, hname, halive⟩
  · rintro ⟨hnode, hname, halive⟩
    refine ⟨line.kind, Kind.mem_all _, hnode, hname, ?_⟩
    obtain ⟨k, id, name, alive⟩ := line
    simp only [lineFor, DumpLine.mk.injEq, true_and]
    exact halive

/-- Two publishers, the first of which dies, and a service; then the node is destroyed. -/
def threeNames : List Op :=
  [.createNode ⟨1, 100, "/".toList, "node".toList⟩,
    .createEntity .publisher 7 10 0 "/b".toList,
    .createEntity .publisher 7 11 0 "/a".toList,
    .createEntity .service 8 12 0 "/s".toList,
    .destroyEntity 0,
    .destroyNode 0]

theorem run_threeNames : Runs.run World.step init threeNames = some (after threeNames) :=
  run_after (by decide)

-- the living publisher and service keep the name of their node
example : (after threeNames).dumpRegistry none = "=== rtest::StaticMocksRegistry dump ===\n" ++
    "  [Publisher] node=\"/node\" name=\"/a\" (alive)\n" ++
    "  [Publisher] node=\"/node\" name=\"/b\" (expired)\n" ++
    "  [Service] node=\"/node\" name=\"s\" (alive)\n" ++ "=== end dump ===\n" := by decide +kernel

/-- Looking a list up leaves what is registered, and the listings of it, as they are. -/
theorem names_getNodeUnder (k : Kind) (node : NodeId) (reg : StaticMocksRegistry) (k' : Kind)
    (node' : NodeId) : (reg.getNodeUnder k node).2.names k' node' = reg.names k' node' := by
  simp only [names, getNodeUnder]
  by_cases hk : k' = k
  · subst hk
    rw [Function.update_self, getD_insertIfNew_fallback]
  · rw [Function.update_of_ne hk]

theorem slot_getNodeUnder (k : Kind) (node : NodeId) (reg : StaticMocksRegistry) (k' : Kind)
    (node' : NodeId) (name : Name) :
    (reg.getNodeUnder k node).2.slot k' node' name = reg.slot k' node' name :=
  slot_getUnder k node [] reg k' node' name

/-- **The lists of a node.** In every reachable world a `getNode*` function lists, by name, what
the registry holds under each of the names the node has registered since the last reset, every
entry one that was registered there; and it leaves every name and slot as it is. -/
theorem getNode_exact (h : Reachable w) (k : Kind) (node : NodeId) :
    (∃ names : List Name, names.Pairwise (fun name name' => compare name name' = .lt) ∧
      (∀ name, name ∈ names ↔ w.Registered k node name) ∧
      (w.registry.getNodeUnder k node).1 = names.map fun name => w.registry.slot k node name) ∧
    (∀ p ∈ (w.registry.getNodeUnder k node).1, ∃ r ∈ w.history.registrations,
      r.kind = k ∧ r.nodeId = node ∧ p = some r.entity) ∧
    ∀ k' node', (w.registry.getNodeUnder k node).2.names k' node' = w.registry.names k' node' ∧
      ∀ name, (w.registry.getNodeUnder k node).2.slot k' node' name =
        w.registry.slot k' node' name := by
  have hlist : (w.registry.getNodeUnder k node).1 =
      (w.registry.names k node).map fun name => w.registry.slot k node name := by
    rw [getNodeUnder, toList_eq_names, List.map_map]
    rfl
  refine ⟨⟨_, names_pairwise k node w.registry, fun name => mem_names_iff h, hlist⟩, ?_, ?_⟩
  · intro p hp
    rw [hlist] at hp
    obtain ⟨name, hname, rfl⟩ := List.mem_map.mp hp
    obtain ⟨e, he⟩ := Option.ne_none_iff_exists'.mp (h.occupied k node name (mem_names.mp hname))
    obtain ⟨n, hr⟩ := h.inv.recorded k node name e he
    exact ⟨_, hr, rfl, rfl, he⟩
  · exact fun k' node' => ⟨names_getNodeUnder k node w.registry k' node',
      slot_getNodeUnder k node w.registry k' node'⟩

theorem getNode_threeNames :
    (∃ names : List Name, names.Pairwise (fun name name' => compare name name' = .lt) ∧
      (∀ name, name ∈ names ↔ (after threeNames).Registered .publisher 1 name) ∧
      ((after threeNames).registry.getNodeUnder .publisher 1).1 =
        names.map fun name => (after threeNames).registry.slot .publisher 1 name) ∧
    (∀ p ∈ ((after threeNames).registry.getNodeUnder .publisher 1).1,
      ∃ r ∈ (after threeNames).history.registrations,
        r.kind = .publisher ∧ r.nodeId = 1 ∧ p = some r.entity) ∧
    ∀ k' node', ((after threeNames).registry.getNodeUnder .publisher 1).2.names k' node' =
        (after threeNames).registry.names k' node' ∧
      ∀ name, ((after threeNames).registry.getNodeUnder .publisher 1).2.slot k' node' name =
        (after threeNames).registry.slot k' node' name :=
  getNode_exact ⟨threeNames, run_threeNames⟩ .publisher 1

end World

end Rtest
