import Rtest.Registry.Effects

/-!
# What holds in every reachable world

`Inv` ties the registry to the objects and the history: two living objects never share an
address or a control block, a key of the registry pins the control block it names, every slot
holds an entity that was registered there, and every pending callback belongs to a living object.
-/

namespace Rtest.World

open StaticMocksRegistry

variable {w w' : World}

/-- The control block `id` is that of the node `n` and, while `n` or a key of the registry keeps
it, of no other living node. -/
def OwnedBy (nodes : ObjectStore Node) (n : NodeRef) (id : NodeId) : Prop :=
  n < nodes.next ∧ ∀ m node, nodes.get? m = some node → (node.controlBlock = id ↔ m = n)

/-- The registration `post_init_setup` of `e` makes. -/
def registrationOf (e : EntityRef) (obj : Entity) : Registration :=
  ⟨obj.kind, obj.node, obj.nodeId, registerName obj.kind obj.name, e⟩

structure Inv (w : World) : Prop where
  controlBlocks : ∀ i j a b, w.nodes.get? i = some a → w.nodes.get? j = some b →
    a.controlBlock = b.controlBlock → i = j
  addresses : ∀ i j a b, w.entities.get? i = some a → w.entities.get? j = some b →
    a.this = b.this → i = j
  nodeHeld : ∀ e obj, w.entities.get? e = some obj → obj.kind.isAction = true →
    ∃ node, w.nodes.get? obj.node = some node ∧ node.controlBlock = obj.nodeId
  born : ∀ r ∈ w.history.registrations, r.entity < w.entities.next
  keyed : ∀ r ∈ w.history.registrations, r.nodeId ∈ w.registry.entityRegistry r.kind
  owned : ∀ r ∈ w.history.registrations, OwnedBy w.nodes r.node r.nodeId
  faithful : ∀ r ∈ w.history.registrations, ∀ obj, w.entities.get? r.entity = some obj →
    r = registrationOf r.entity obj
  agree : ∀ r ∈ w.history.registrations, ∀ r' ∈ w.history.registrations,
    r.entity = r'.entity → r = r'
  recorded : ∀ k node name e, w.registry.slot k node name = some e →
    ∃ n, (⟨k, n, node, name, e⟩ : Registration) ∈ w.history.registrations
  filled : ∀ r ∈ w.history.registrations, w.registry.slot r.kind r.nodeId r.name ≠ none
  timersBorn : ∀ r ∈ w.history.timerRegistrations, r.timer < w.timers.next
  timersKeyed : ∀ r ∈ w.history.timerRegistrations, r.nodeId ∈ w.registry.timersRegistry
  timersOwned : ∀ r ∈ w.history.timerRegistrations, OwnedBy w.nodes r.node r.nodeId
  timersListed : ∀ node, w.registry.getTimers node =
    (w.history.timerRegistrations.filter (·.nodeId = node)).map fun r => some r.timer
  timersOnce : (w.history.timerRegistrations.map (·.timer)).Nodup
  pending : ∀ k, ∀ it ∈ w.registry.lazyInit k, k.isAction = true ∧
    ∃ obj, w.entities.get? it.initCallback = some obj ∧ obj.kind = k ∧ obj.this = it.rawPtr

theorem inv_init : Inv init where
  controlBlocks := by intro i j a b h; cases h
  addresses := by intro i j a b h; cases h
  nodeHeld := by intro e obj h; cases h
  born := by intro r h; cases h
  keyed := by intro r h; cases h
  owned := by intro r h; cases h
  faithful := by intro r h; cases h
  agree := by intro r h; cases h
  recorded := by
    intro k node name e h
    simp [init, StaticMocksRegistry.empty, slot, findEntity] at h
  filled := by intro r h; cases h
  timersBorn := by intro r h; cases h
  timersKeyed := by intro r h; cases h
  timersOwned := by intro r h; cases h
  timersListed := by
    intro node
    simp [init, StaticMocksRegistry.empty, getTimers, findEntity]
    rfl
  timersOnce := List.nodup_nil
  pending := by intro k it h; cases h

/-- A living node owns its control block. -/
theorem Inv.ownedBy (hi : Inv w) {n : NodeRef} {node : Node} (h : w.nodes.get? n = some node) :
    OwnedBy w.nodes n node.controlBlock := by
  refine ⟨ObjectStore.lt_next_of_get? h, fun m other hm => ⟨fun hc => ?_, ?_⟩⟩
  · exact hi.controlBlocks m n other node hm h hc
  · rintro rfl
    rw [h] at hm
    cases hm
    rfl

theorem OwnedBy.alloc {nodes : ObjectStore Node} {n : ℕ} {id : NodeId} {node : Node}
    (h : OwnedBy nodes n id) (hfree : node.controlBlock ≠ id) :
    OwnedBy (nodes.alloc node) n id := by
  refine ⟨by simp only [ObjectStore.next_alloc]; exact Nat.lt_succ_of_lt h.1, ?_⟩
  intro m other hm
  rw [ObjectStore.get?_alloc] at hm
  split at hm
  · next hnext =>
    cases hm
    refine iff_of_false hfree ?_
    rintro rfl
    exact absurd h.1 (by rw [hnext]; exact Nat.lt_irrefl _)
  · exact h.2 m other hm

theorem OwnedBy.free {nodes : ObjectStore Node} {n : NodeRef} {id : NodeId}
    (h : OwnedBy nodes n id) (m : NodeRef) : OwnedBy (nodes.free m) n id := by
  refine ⟨by simpa using h.1, ?_⟩
  intro j other hj
  exact h.2 j other (ObjectStore.get?_of_free hj)

-- ════════════════════════════════════════════════════════════════════════
-- Registration and lookup
-- ════════════════════════════════════════════════════════════════════════

theorem mem_registrations_postInitSetup {e : EntityRef} {obj : Entity} {r : Registration} :
    r ∈ (postInitSetup e obj w).history.registrations ↔
      r ∈ w.history.registrations ∨ r = registrationOf e obj := by
  simp [postInitSetup, registrationOf]

theorem inv_postInitSetup (hi : Inv w) {e : EntityRef} {obj : Entity}
    (hobj : w.entities.get? e = some obj)
    (hnode : ∃ node, w.nodes.get? obj.node = some node ∧ node.controlBlock = obj.nodeId) :
    Inv (postInitSetup e obj w) := by
  obtain ⟨node, hn, hcb⟩ := hnode
  have hf := postInitSetup_frame e obj w
  -- an earlier registration of `e` was the same one
  have hsame : ∀ r ∈ w.history.registrations, r.entity = e → r = registrationOf e obj := by
    rintro r hr rfl
    exact hi.faithful r hr obj hobj
  refine { hi with born := ?born, keyed := ?keyed, owned := ?owned, faithful := ?faithful,
                   agree := ?agree, recorded := ?recorded, filled := ?filled,
                   timersKeyed := ?timersKeyed, timersListed := ?timersListed,
                   pending := ?pending }
  case born =>
    intro r hr
    rcases mem_registrations_postInitSetup.mp hr with hr | rfl
    · exact hi.born r hr
    · exact ObjectStore.lt_next_of_get? hobj
  case keyed =>
    intro r hr
    rw [registry_postInitSetup, mem_registerUnder]
    rcases mem_registrations_postInitSetup.mp hr with hr | rfl
    · exact Or.inr (hi.keyed r hr)
    · exact Or.inl ⟨rfl, rfl⟩
  case owned =>
    intro r hr
    rcases mem_registrations_postInitSetup.mp hr with hr | rfl
    · exact hi.owned r hr
    · have hown := hi.ownedBy hn
      rw [hcb] at hown
      exact hown
  case faithful =>
    intro r hr other hother
    rcases mem_registrations_postInitSetup.mp hr with hr | rfl
    · exact hi.faithful r hr other hother
    · have hother : w.entities.get? e = some other := hother
      rw [hobj] at hother
      cases hother
      rfl
  case agree =>
    intro r hr r' hr' heq
    rcases mem_registrations_postInitSetup.mp hr with hr | rfl <;>
      rcases mem_registrations_postInitSetup.mp hr' with hr' | rfl
    · exact hi.agree r hr r' hr' heq
    · exact hsame r hr heq
    · exact (hsame r' hr' heq.symm).symm
    · rfl
  case recorded =>
    intro k id name e' hslot
    rw [slot_postInitSetup] at hslot
    split at hslot
    · next hself =>
      obtain ⟨⟨rfl, rfl, rfl⟩, -⟩ := hself
      cases hslot
      exact ⟨obj.node, mem_registrations_postInitSetup.mpr (Or.inr rfl)⟩
    · obtain ⟨n, hn⟩ := hi.recorded k id name e' hslot
      exact ⟨n, mem_registrations_postInitSetup.mpr (Or.inl hn)⟩
  case filled =>
    intro r hr
    rw [slot_postInitSetup]
    split
    · exact Option.some_ne_none e
    · next hkept =>
      rcases mem_registrations_postInitSetup.mp hr with hr | rfl
      · exact hi.filled r hr
      · -- the slot of `e` itself was not taken, so its holder could be locked
        intro hnone
        refine hkept ⟨⟨rfl, rfl, rfl⟩, ?_⟩
        have hslot : w.registry.slot obj.kind obj.nodeId (registerName obj.kind obj.name) =
          none := hnone
        rw [hslot]
        rfl
  case timersKeyed =>
    intro r hr
    rw [hf.timersRegistry]
    exact hi.timersKeyed r hr
  case timersListed =>
    intro id
    rw [getTimers, hf.timersRegistry]
    exact hi.timersListed id
  case pending =>
    intro k it hit
    rw [lazyInit_postInitSetup] at hit
    exact hi.pending k it hit

theorem inv_logInit (hi : Inv w) (e : EntityRef) (outcome : InitOutcome) :
    Inv (logInit e outcome w) :=
  { hi with }

theorem inv_dropServed (hi : Inv w) (k : Kind) : Inv (dropServed k w) := by
  refine { hi with pending := ?_ }
  intro k' it hit
  refine hi.pending k' it ?_
  simp only [dropServed] at hit
  by_cases hk : k' = k
  · subst hk
    rw [Function.update_self] at hit
    exact List.mem_of_mem_filter hit
  · rwa [Function.update_of_ne hk] at hit

theorem inv_getUnder (hi : Inv w) (k : Kind) (node : NodeId) (name : Name) :
    Inv { w with registry := (w.registry.getUnder k node name).2 } := by
  refine { hi with keyed := ?keyed, recorded := ?recorded, filled := ?filled }
  case keyed =>
    intro r hr
    exact mem_getUnder_of_mem k node name _ _ _ (hi.keyed r hr)
  case recorded =>
    intro k' id name' e hslot
    rw [slot_getUnder] at hslot
    exact hi.recorded k' id name' e hslot
  case filled =>
    intro r hr
    rw [slot_getUnder]
    exact hi.filled r hr

theorem inv_lookup (hi : Inv w) (k : Kind) (node : NodeId) (name : Name) :
    Inv (lookup k node name w).2 := by
  refine lookup_keeps k node name ?_ (fun u e outcome hu => inv_logInit hu e outcome)
    (fun u hu => inv_dropServed hu k) (fun u hu => inv_getUnder hu k node name) hi
  intro it hit u obj hf hlazy hobj _ hu
  obtain ⟨hk, obj', hobj', hkind, -⟩ := hu.pending k it (hlazy ▸ hit)
  rw [hobj] at hobj'
  cases hobj'
  exact inv_postInitSetup hu hobj (hu.nodeHeld _ obj hobj (hkind ▸ hk))

theorem inv_makeMock (hi : Inv w) (k : Kind) (T : Interface) (e : EntityRef) (obj : Entity) :
    Inv (makeMock k T e obj w).2 :=
  { hi with }

theorem inv_find (hi : Inv w) (k : Kind) (T : Interface) (node : NodeId) (name : Name) :
    Inv (find k T node name w).2 := by
  have hl := inv_lookup hi k node (findName k name)
  rcases find_cases k T node name w with h | h | ⟨e, obj, -, -, -, -, -, -, h⟩
  · rw [h]
    exact hi
  · rw [h]
    exact hl
  · rw [h]
    exact inv_makeMock hl k T e obj

-- ════════════════════════════════════════════════════════════════════════
-- Births, deaths, reset
-- ════════════════════════════════════════════════════════════════════════

theorem inv_createNode (hi : Inv w) {node : Node} (h : w.enabled (.createNode node) = true) :
    Inv (w.createNode node) := by
  simp only [enabled, Bool.and_eq_true, ObjectStore.all_iff, decide_eq_true_eq,
    Bool.not_eq_true'] at h
  obtain ⟨hfree, hkeeps⟩ := h
  have hkey : ∀ id, w.registry.keeps id = true → node.controlBlock ≠ id := by
    rintro id hid rfl
    rw [hid] at hkeeps
    cases hkeeps
  refine { hi with controlBlocks := ?controlBlocks, nodeHeld := ?nodeHeld, owned := ?owned,
                   timersOwned := ?timersOwned }
  case controlBlocks =>
    show ObjectStore.Distinct Node.controlBlock _
    exact ObjectStore.Distinct.alloc hi.controlBlocks hfree
  case nodeHeld =>
    intro e obj hobj hact
    obtain ⟨held, hn, hcb⟩ := hi.nodeHeld e obj hobj hact
    exact ⟨held, ObjectStore.get?_alloc_of_some node hn, hcb⟩
  case owned =>
    intro r hr
    exact (hi.owned r hr).alloc (hkey _ (keeps_iff.mpr (Or.inl ⟨r.kind, hi.keyed r hr⟩)))
  case timersOwned =>
    intro r hr
    exact (hi.timersOwned r hr).alloc (hkey _ (keeps_iff.mpr (Or.inr (hi.timersKeyed r hr))))

theorem inv_destroyNode (hi : Inv w) {n : NodeRef} (h : w.enabled (.destroyNode n) = true) :
    Inv { w with nodes := w.nodes.free n } := by
  simp only [enabled, Bool.and_eq_true, ObjectStore.all_iff] at h
  refine { hi with controlBlocks := ?controlBlocks, nodeHeld := ?nodeHeld, owned := ?owned,
                   timersOwned := ?timersOwned }
  case controlBlocks =>
    show ObjectStore.Distinct Node.controlBlock _
    exact ObjectStore.Distinct.free hi.controlBlocks n
  case nodeHeld =>
    intro e obj hobj hact
    obtain ⟨held, hn, hcb⟩ := hi.nodeHeld e obj hobj hact
    have hne : obj.node ≠ n := by
      have := h.2 e obj hobj
      simpa [hact] using this
    exact ⟨held, by rw [ObjectStore.get?_free, if_neg hne, hn], hcb⟩
  case owned =>
    intro r hr
    exact (hi.owned r hr).free n
  case timersOwned =>
    intro r hr
    exact (hi.timersOwned r hr).free n

/-- A newborn entity at a free address. -/
theorem inv_allocEntity (hi : Inv w) {obj : Entity}
    (hfree : ∀ e other, w.entities.get? e = some other → other.this ≠ obj.this)
    (hnode : ∃ node, w.nodes.get? obj.node = some node ∧ node.controlBlock = obj.nodeId) :
    Inv { w with entities := w.entities.alloc obj } := by
  refine { hi with addresses := ?addresses, nodeHeld := ?nodeHeld, born := ?born,
                   faithful := ?faithful, pending := ?pending }
  case addresses =>
    show ObjectStore.Distinct Entity.this _
    exact ObjectStore.Distinct.alloc hi.addresses hfree
  case nodeHeld =>
    intro e other hother hact
    rw [ObjectStore.get?_alloc] at hother
    split at hother
    · cases hother
      exact hnode
    · exact hi.nodeHeld e other hother hact
  case born =>
    intro r hr
    rw [ObjectStore.next_alloc]
    exact Nat.lt_succ_of_lt (hi.born r hr)
  case faithful =>
    intro r hr other hother
    rw [ObjectStore.get?_alloc, if_neg (Nat.ne_of_lt (hi.born r hr))] at hother
    exact hi.faithful r hr other hother
  case pending =>
    intro k it hit
    obtain ⟨hk, other, hother, hrest⟩ := hi.pending k it hit
    exact ⟨hk, other, ObjectStore.get?_alloc_of_some obj hother, hrest⟩

theorem inv_createEntity (hi : Inv w) {k : Kind} {T : Interface} {this : Addr} {n : NodeRef}
    {node : Node} {name : Name} (hn : w.nodes.get? n = some node)
    (hfree : ∀ e other, w.entities.get? e = some other → other.this ≠ this) :
    Inv (w.createEntity k T this n node name) := by
  have ha := @inv_allocEntity w hi ⟨k, T, this, n, node.controlBlock, name, !k.isAction⟩ hfree
    ⟨node, hn, rfl⟩
  simp only [createEntity]
  split
  · next hk =>
    refine { ha with pending := ?_ }
    intro k' it hit
    simp only [registerLazyInit] at hit
    by_cases hkk : k' = k
    · subst hkk
      rw [Function.update_self, List.mem_append, List.mem_singleton] at hit
      rcases hit with hit | rfl
      · exact ha.pending k' it hit
      · exact ⟨hk, _, ObjectStore.get?_alloc_next .., rfl, rfl⟩
    · rw [Function.update_of_ne hkk] at hit
      exact ha.pending k' it hit
  · exact inv_postInitSetup ha (ObjectStore.get?_alloc_next ..) ⟨node, hn, rfl⟩

theorem inv_share (hi : Inv w) (e : EntityRef) :
    Inv { w with entities := w.entities.modify e fun obj => { obj with shared := true } } := by
  -- sharing changes no field the invariant reads
  have hget : ∀ i a, (w.entities.modify e fun obj => { obj with shared := true }).get? i = some a →
      ∃ b, w.entities.get? i = some b ∧ b.this = a.this ∧
        ∀ e, registrationOf e b = registrationOf e a := by
    intro i a ha
    obtain ⟨b, hb, rfl | ⟨-, rfl⟩⟩ := ObjectStore.get?_of_modify ha <;>
      exact ⟨_, hb, rfl, fun _ => rfl⟩
  refine { hi with addresses := ?addresses, nodeHeld := ?nodeHeld, born := ?born,
                   faithful := ?faithful, pending := ?pending }
  case addresses =>
    intro i j a b ha hb hab
    obtain ⟨a', ha', hta, -⟩ := hget i a ha
    obtain ⟨b', hb', htb, -⟩ := hget j b hb
    exact hi.addresses i j a' b' ha' hb' (by rw [hta, htb, hab])
  case nodeHeld =>
    intro i a ha hact
    obtain ⟨b, hb, -, hsame⟩ := hget i a ha
    obtain ⟨hk, hn, hid, -⟩ := Registration.mk.inj (hsame i)
    rw [← hn, ← hid]
    exact hi.nodeHeld i b hb (hk ▸ hact)
  case born =>
    intro r hr
    rw [ObjectStore.next_modify]
    exact hi.born r hr
  case faithful =>
    intro r hr a ha
    obtain ⟨b, hb, -, hsame⟩ := hget r.entity a ha
    rw [← hsame]
    exact hi.faithful r hr b hb
  case pending =>
    intro k it hit
    obtain ⟨hk, obj, hobj, hrest⟩ := hi.pending k it hit
    refine ⟨hk, ?_⟩
    rw [ObjectStore.get?_modify]
    split
    · exact ⟨{ obj with shared := true }, by rw [hobj]; rfl, hrest⟩
    · exact ⟨obj, hobj, hrest⟩

theorem inv_destroyEntity (hi : Inv w) (e : EntityRef) : Inv (w.destroyEntity e) := by
  simp only [destroyEntity]
  split
  · exact hi
  · next obj hobj =>
    have hfree : Inv { w with
        entities := w.entities.free e
        registry := { w.registry with lazyInit := fun _ => [] } } := by
      refine { hi with addresses := ?addresses, nodeHeld := ?nodeHeld, born := ?born,
                       faithful := ?faithful, pending := ?pending }
      case addresses =>
        show ObjectStore.Distinct Entity.this _
        exact ObjectStore.Distinct.free hi.addresses e
      case nodeHeld =>
        intro i a ha
        exact hi.nodeHeld i a (ObjectStore.get?_of_free ha)
      case born =>
        intro r hr
        rw [ObjectStore.next_free]
        exact hi.born r hr
      case faithful =>
        intro r hr a ha
        exact hi.faithful r hr a (ObjectStore.get?_of_free ha)
      case pending =>
        intro k it hit
        cases hit
    -- an entry that survives belongs to an object at another address, so to another object
    have hkeep : ∀ k it, it ∈ w.registry.lazyInit k → it.rawPtr ≠ obj.this ∨ k ≠ obj.kind →
        k.isAction = true ∧ ∃ other, (w.entities.free e).get? it.initCallback = some other ∧
          other.kind = k ∧ other.this = it.rawPtr := by
      intro k it hit hne
      obtain ⟨hk, other, hother, hkind, hthis⟩ := hi.pending k it hit
      refine ⟨hk, other, ?_, hkind, hthis⟩
      rw [ObjectStore.get?_free, if_neg, hother]
      intro heq
      rw [heq, hobj] at hother
      cases hother
      rcases hne with hne | hne
      · exact hne hthis.symm
      · exact hne hkind.symm
    split
    · refine { hfree with pending := ?_ }
      intro k it hit
      simp only [removeLazyInit] at hit
      by_cases hk : k = obj.kind
      · subst hk
        rw [Function.update_self, List.mem_filter] at hit
        exact hkeep _ it hit.1 (Or.inl (by simpa using hit.2))
      · rw [Function.update_of_ne hk] at hit
        exact hkeep k it hit (Or.inr hk)
    · next hact =>
      refine { hfree with pending := ?_ }
      intro k it hit
      refine hkeep k it hit (Or.inr ?_)
      rintro rfl
      exact hact (hi.pending _ it hit).1

theorem inv_createTimer (hi : Inv w) {n : NodeRef} {node : Node} (hn : w.nodes.get? n = some node) :
    Inv (w.createTimer n node) := by
  have hmem : ∀ r, r ∈ (w.createTimer n node).history.timerRegistrations ↔
      r ∈ w.history.timerRegistrations ∨ r = ⟨n, node.controlBlock, w.timers.next⟩ := by
    intro r
    simp [createTimer]
  refine { hi with timersBorn := ?timersBorn, timersKeyed := ?timersKeyed,
                   timersOwned := ?timersOwned, timersListed := ?timersListed,
                   timersOnce := ?timersOnce }
  case timersBorn =>
    intro r hr
    simp only [createTimer, ObjectStore.next_alloc]
    rcases (hmem r).mp hr with hr | rfl
    · exact Nat.lt_succ_of_lt (hi.timersBorn r hr)
    · exact Nat.lt_succ_self _
  case timersKeyed =>
    intro r hr
    simp only [createTimer, registerTimer, Std.ExtTreeMap.mem_insert]
    rcases (hmem r).mp hr with hr | rfl
    · exact Or.inr (hi.timersKeyed r hr)
    · exact Or.inl (by simp)
  case timersOwned =>
    intro r hr
    rcases (hmem r).mp hr with hr | rfl
    · exact hi.timersOwned r hr
    · exact hi.ownedBy hn
  case timersListed =>
    intro id
    simp only [createTimer, getTimers_registerTimer, List.filter_append, List.map_append]
    by_cases hid : id = node.controlBlock
    · subst hid
      simp [hi.timersListed]
    · simp [hid, Ne.symm hid, hi.timersListed]
  case timersOnce =>
    simp only [createTimer, List.map_append, List.map_cons, List.map_nil]
    rw [List.nodup_append]
    refine ⟨hi.timersOnce, by simp, ?_⟩
    intro t ht t' ht'
    obtain ⟨r, hr, rfl⟩ := List.mem_map.mp ht
    have hlt := hi.timersBorn r hr
    rw [List.mem_singleton] at ht'
    subst ht'
    exact Nat.ne_of_lt hlt

theorem inv_destroyTimer (hi : Inv w) (t : TimerRef) :
    Inv { w with timers := w.timers.free t } := by
  refine { hi with timersBorn := ?_ }
  intro r hr
  rw [ObjectStore.next_free]
  exact hi.timersBorn r hr

theorem inv_releaseMock (hi : Inv w) (m : MockRef) : Inv (w.releaseMock m) := by
  simp only [releaseMock]
  split
  · exact hi
  · next mock hmock =>
    obtain ⟨hent, htim, hlazy⟩ := detachMock_frame mock.target w.registry
    refine { hi with keyed := ?keyed, recorded := ?recorded, filled := ?filled,
                     timersKeyed := ?timersKeyed, timersListed := ?timersListed,
                     pending := ?pending }
    case keyed =>
      intro r hr
      rw [hent]
      exact hi.keyed r hr
    case recorded =>
      intro k id name e hslot
      rw [slot, hent] at hslot
      exact hi.recorded k id name e hslot
    case filled =>
      intro r hr
      rw [slot, hent]
      exact hi.filled r hr
    case timersKeyed =>
      intro r hr
      rw [htim]
      exact hi.timersKeyed r hr
    case timersListed =>
      intro id
      rw [getTimers, htim]
      exact hi.timersListed id
    case pending =>
      intro k it hit
      rw [hlazy] at hit
      exact hi.pending k it hit

theorem inv_reset (hi : Inv w) : Inv w.reset :=
  { inv_init with
    controlBlocks := hi.controlBlocks
    addresses := hi.addresses
    nodeHeld := hi.nodeHeld
    born := by intro r h; cases h
    owned := by intro r h; cases h
    faithful := by intro r h; cases h
    timersBorn := by intro r h; cases h
    timersOwned := by intro r h; cases h
    pending := by intro k it h; cases h }

-- ════════════════════════════════════════════════════════════════════════
-- Every step, every run
-- ════════════════════════════════════════════════════════════════════════

theorem step_eq_some_iff {op : Op} :
    w.step op = some w' ↔ w.enabled op = true ∧ w.act op = w' := by
  simp [step]

theorem inv_step (w : World) (op : Op) (w' : World) (hi : Inv w) (h : w.step op = some w') :
    Inv w' := by
  obtain ⟨hen, rfl⟩ := step_eq_some_iff.mp h
  cases op with
  | createNode node => exact inv_createNode hi hen
  | destroyNode n => exact inv_destroyNode hi hen
  | createEntity k T this n name =>
    simp only [enabled, Bool.and_eq_true, ObjectStore.all_iff, decide_eq_true_eq] at hen
    simp only [act]
    split
    · next node hn => exact inv_createEntity hi hn hen.2
    · exact hi
  | share e => exact inv_share hi e
  | destroyEntity e => exact inv_destroyEntity hi e
  | createTimer n =>
    simp only [act]
    split
    · next node hn => exact inv_createTimer hi hn
    · exact hi
  | destroyTimer t => exact inv_destroyTimer hi t
  | lookup k n name =>
    simp only [act]
    split
    · exact inv_lookup hi ..
    · exact hi
  | find k T n name =>
    simp only [act]
    split
    · exact inv_find hi ..
    · exact hi
  | releaseMock m => exact inv_releaseMock hi m
  | call e => exact hi
  | reset => exact inv_reset hi

theorem Reachable.inv (h : Reachable w) : Inv w := by
  obtain ⟨ops, hrun⟩ := h
  exact Runs.run_invariant inv_step inv_init hrun

end Rtest.World
