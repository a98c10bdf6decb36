import Rtest.Registry.Findable
import Rtest.Registry.Found
import Rtest.Registry.PendingActions

/-!
# The candidates of a key

The living entities a lookup of a key can find: those registered under it, and the pending ones of
its kind that the lookup itself registers first. A step adds at most one entity to the candidates
of a key: the one it creates, or the pending one it shares.

## Main definitions

- `World.candidates` — the living entities under a key, once the pending ones are served
- `World.Waits` — an entity's init callback is on the pending list
-/

namespace Rtest.World

open StaticMocksRegistry

variable {w w' : World} {k : Kind} {n : NodeRef} {name : Name} {e : EntityRef} {op : Op}

/-- The living entities registered under a key once the pending ones of its kind are served. -/
def candidates (w : World) (k : Kind) (n : NodeRef) (name : Name) : List EntityRef :=
  (if k.isAction then tryLazyInit k w else w).liveUnder k n name

/-- The init callback of `e` is on the pending list of a kind. -/
def Waits (w : World) (k : Kind) (e : EntityRef) : Prop :=
  ∃ it ∈ w.registry.lazyInit k, it.initCallback = e

/-- The entity registers under this key. -/
def HasKey (obj : Entity) (k : Kind) (n : NodeRef) (name : Name) : Prop :=
  obj.kind = k ∧ obj.node = n ∧ registerName k obj.name = name

/-- The entity is registered, or the next lookup of its kind registers it. -/
def Contends (w : World) (e : EntityRef) (obj : Entity) : Prop :=
  w.registered e = true ∨ (obj.shared = true ∧ w.Waits obj.kind e)

/-- Only action entities wait. -/
theorem Inv.waits_isAction (hi : Inv w) (h : w.Waits k e) : k.isAction = true := by
  obtain ⟨it, hit, -⟩ := h
  exact (hi.pending k it hit).1

/-- What waits is not registered. -/
theorem PendingInv.not_registered (hp : PendingInv w) (h : w.Waits k e) :
    w.registered e = false := by
  obtain ⟨it, hit, rfl⟩ := h
  have hawaits : it.initCallback ∈ w.awaiting k := by
    rw [← hp.listed k]
    exact List.mem_map_of_mem hit
  have hfacts := (List.mem_filter.mp hawaits).2
  simp only [Bool.and_eq_true, Bool.not_eq_true'] at hfacts
  exact hfacts.2

theorem waits_of_lookup {k' : Kind} {id : NodeId} {given : Name}
    (h : (lookup k' id given w).2.Waits k e) : w.Waits k e := by
  obtain ⟨it, hit, rfl⟩ := h
  obtain ⟨-, -, hkept, hothers⟩ := lookup_pending k' id given w
  refine ⟨it, ?_, rfl⟩
  by_cases hself : k = k' ∧ k'.isAction = true
  · obtain ⟨rfl, hk⟩ := hself
    rw [hkept hk] at hit
    exact List.mem_of_mem_filter hit
  · rwa [hothers k fun heq => by simpa [heq] using hself] at hit

/-- What waits after a step waited before, or is the entity the step created. -/
theorem waits_step (hi : Inv w) (hs : w.step op = some w') (h : w'.Waits k e) :
    w.Waits k e ∨ e = w.entities.next := by
  obtain ⟨-, rfl⟩ := step_eq_some_iff.mp hs
  cases op with
  | createNode | destroyNode | share | destroyTimer | call => exact Or.inl h
  | createEntity k' T this m given =>
    simp only [act] at h
    split at h
    · next node hn =>
      obtain ⟨it, hit, rfl⟩ := h
      cases hk : k'.isAction with
      | true =>
        rw [(createEntity_action hk T this m node given w).1] at hit
        by_cases hkk : k = k'
        · subst hkk
          rw [Function.update_self, List.mem_append, List.mem_singleton] at hit
          rcases hit with hit | rfl
          · exact Or.inl ⟨it, hit, rfl⟩
          · exact Or.inr rfl
        · rw [Function.update_of_ne hkk] at hit
          exact Or.inl ⟨it, hit, rfl⟩
      | false =>
        simp only [createEntity, hk, if_false, Bool.false_eq_true, lazyInit_postInitSetup] at hit
        exact Or.inl ⟨it, hit, rfl⟩
    · exact Or.inl h
  | destroyEntity e' =>
    obtain ⟨it, hit, rfl⟩ := h
    rw [act, lazyInit_destroyEntity hi] at hit
    exact Or.inl ⟨it, List.mem_of_mem_filter hit, rfl⟩
  | createTimer m =>
    simp only [act] at h
    split at h
    · exact Or.inl h
    · exact Or.inl h
  | lookup k' m given =>
    simp only [act] at h
    split at h
    · exact Or.inl (waits_of_lookup h)
    · exact Or.inl h
  | find k' T m given =>
    simp only [act] at h
    split at h
    · next node hn =>
      rcases find_cases k' T node.controlBlock given w with
        heq | heq | ⟨e₀, obj₀, -, -, -, -, -, -, heq⟩
      · rw [heq] at h
        exact Or.inl h
      · rw [heq] at h
        exact Or.inl (waits_of_lookup h)
      · rw [heq] at h
        exact Or.inl (waits_of_lookup h)
    · exact Or.inl h
  | releaseMock m =>
    simp only [act, releaseMock] at h
    split at h
    · exact Or.inl h
    · obtain ⟨it, hit, rfl⟩ := h
      simp only [(detachMock_frame ..).2.2] at hit
      exact Or.inl ⟨it, hit, rfl⟩
  | reset =>
    obtain ⟨it, hit, -⟩ := h
    cases hit

theorem liveUnder_lookup (k : Kind) (id : NodeId) (name : Name) (w : World) (k' : Kind)
    (n : NodeRef) (name' : Name) : (lookup k id name w).2.liveUnder k' n name' =
      (if k.isAction then tryLazyInit k w else w).liveUnder k' n name' := rfl

theorem mem_liveUnder_iff (hi : Inv w) : e ∈ w.liveUnder k n name ↔
    ∃ obj, w.entities.get? e = some obj ∧ HasKey obj k n name ∧ w.registered e = true := by
  simp only [liveUnder, List.mem_filter, List.mem_map, decide_eq_true_eq, registered,
    List.any_eq_true]
  constructor
  · rintro ⟨⟨r, ⟨hr, rfl, rfl, rfl⟩, rfl⟩, halive⟩
    obtain ⟨obj, hobj⟩ := ObjectStore.alive_iff.mp halive
    have hfaithful := hi.faithful r hr obj hobj
    refine ⟨obj, hobj, ?_, r, hr, rfl⟩
    rw [hfaithful]
    exact ⟨rfl, rfl, rfl⟩
  · rintro ⟨obj, hobj, ⟨rfl, rfl, rfl⟩, r, hr, rfl⟩
    have hfaithful := hi.faithful r hr obj hobj
    refine ⟨⟨r, ⟨hr, ?_⟩, rfl⟩, ObjectStore.alive_of_get? hobj⟩
    rw [hfaithful]
    exact ⟨rfl, rfl, rfl⟩

/-- The candidates of a key are the living entities of that key that are registered or about to
be. -/
theorem mem_candidates_iff (hi : Inv w) : e ∈ w.candidates k n name ↔
    ∃ obj, w.entities.get? e = some obj ∧ HasKey obj k n name ∧ w.Contends e obj := by
  have hf := lookup_frame k 0 [] w
  have hserved : ∀ obj, w.entities.get? e = some obj → obj.kind = k →
      ((lookup k 0 [] w).2.registered e = true ↔ w.Contends e obj) := by
    rintro obj hobj rfl
    rw [registered_lookup, Bool.or_eq_true, Contends]
    refine or_congr Iff.rfl ?_
    rw [List.any_eq_true]
    constructor
    · rintro ⟨it, hit, hserves⟩
      simp only [Bool.and_eq_true, decide_eq_true_eq] at hserves
      obtain ⟨rfl, hshared⟩ := hserves
      split at hit
      · exact ⟨by simpa [initSucceeds, hobj] using hshared, it, hit, rfl⟩
      · cases hit
    · rintro ⟨hshared, hwaits⟩
      rw [if_pos (hi.waits_isAction hwaits)]
      obtain ⟨it, hit, rfl⟩ := hwaits
      exact ⟨it, hit, by simp [initSucceeds, hobj, hshared]⟩
  rw [candidates, ← liveUnder_lookup k 0 [] w, mem_liveUnder_iff (inv_lookup hi k 0 []), hf.entities]
  constructor
  · rintro ⟨obj, hobj, hkey, hreg⟩
    exact ⟨obj, hobj, hkey, (hserved obj hobj hkey.1).mp hreg⟩
  · rintro ⟨obj, hobj, hkey, hcontends⟩
    exact ⟨obj, hobj, hkey, (hserved obj hobj hkey.1).mpr hcontends⟩

/-- The registered ones come first. -/
theorem liveUnder_prefix_candidates (w : World) (k : Kind) (n : NodeRef) (name : Name) :
    w.liveUnder k n name <+: w.candidates k n name := by
  obtain ⟨-, hregs, -, -⟩ := lookup_pending k 0 [] w
  have hf := lookup_frame k 0 [] w
  rw [candidates, ← liveUnder_lookup k 0 [] w]
  simp only [liveUnder, hregs, hf.entities, List.filter_append, List.map_append]
  exact List.prefix_append ..

/-- Where slots hold the oldest living entity of their key, a lookup resolves to the first
candidate. -/
theorem OldestHeld.resolve_eq (hi : Inv w) (h : OldestHeld k name w) {node : Node}
    (hn : w.nodes.get? n = some node) :
    resolve k node.controlBlock name w = (w.candidates k n name).head? := by
  have hf := lookup_frame k node.controlBlock name w
  rw [resolve, lookup_fst, candidates, ← liveUnder_lookup k node.controlBlock name w]
  exact oldestHeld_lookup hi h k node.controlBlock name n node (by rw [hf.nodes, hn])

/-- A step that leaves an entity its key and is no cause of its registration adds it to no
candidates. -/
theorem mem_candidates_of (hi : Inv w) (hs : w.step op = some w')
    (h : ∀ obj', w'.entities.get? e = some obj' → ∃ obj, w.entities.get? e = some obj ∧
      obj.kind = obj'.kind ∧ obj.node = obj'.node ∧ obj.name = obj'.name ∧
      obj.shared = obj'.shared ∧ (w'.registered e = true → w.Contends e obj))
    (hmem : e ∈ w'.candidates k n name) : e ∈ w.candidates k n name := by
  obtain ⟨obj', hobj', hkey, hcontends⟩ := (mem_candidates_iff (inv_step w op w' hi hs)).mp hmem
  obtain ⟨obj, hobj, hkind, hnode, hname, hshared, hreg⟩ := h obj' hobj'
  refine (mem_candidates_iff hi).mpr ⟨obj, hobj, ?_, ?_⟩
  · rw [HasKey, hkind, hnode, hname]
    exact hkey
  · rcases hcontends with hcontends | ⟨hcontends, hwaits⟩
    · exact hreg hcontends
    · rw [← hkind] at hwaits
      refine Or.inr ⟨by rw [hshared, hcontends], (waits_step hi hs hwaits).resolve_right ?_⟩
      exact Nat.ne_of_lt (ObjectStore.lt_next_of_get? hobj)

/-- What is registered after a lookup contended for its key before. -/
theorem contends_of_registered_lookup (hi : Inv w) {id : NodeId} {obj : Entity}
    (hobj : w.entities.get? e = some obj) (h : (lookup k id name w).2.registered e = true) :
    w.Contends e obj := by
  rw [registered_lookup, Bool.or_eq_true] at h
  rcases h with hreg | hserved
  · exact Or.inl hreg
  · obtain ⟨it, hit, hserves⟩ := List.any_eq_true.mp hserved
    simp only [Bool.and_eq_true, decide_eq_true_eq] at hserves
    obtain ⟨rfl, hshared⟩ := hserves
    split at hit
    · obtain ⟨-, other, hother, hkind, -⟩ := hi.pending k it hit
      rw [hobj] at hother
      cases hother
      refine Or.inr ⟨by simpa [initSucceeds, hobj] using hshared, it, ?_, rfl⟩
      rwa [hkind]
    · cases hit

/-- How an operation adds an entity to the candidates of a key. -/
inductive Joins (w : World) (k : Kind) (n : NodeRef) (name : Name) (e : EntityRef) : Op → Prop
  | created (T : Interface) (this : Addr) (given : Name) (hk : k.isAction = false)
      (hname : registerName k given = name) (hnew : e = w.entities.next) :
      Joins w k n name e (.createEntity k T this n given)
  | shared (obj : Entity) (hobj : w.entities.get? e = some obj) (hkey : HasKey obj k n name)
      (hwaits : w.Waits k e) : Joins w k n name e (.share e)

/-- A new entity registers itself, unless it is one that waits. -/
theorem registered_createEntity (hk : k.isAction = false) (T : Interface) (this : Addr)
    (m : NodeRef) (node : Node) (given : Name) (w : World) (x : EntityRef) :
    (w.createEntity k T this m node given).registered x =
      (w.registered x || decide (w.entities.next = x)) := by
  simp [createEntity, hk, registered, postInitSetup]

theorem mem_candidates_createEntity (hi : Inv w) {k' : Kind} {T : Interface} {this : Addr}
    {m : NodeRef} {given : Name} (hs : w.step (.createEntity k' T this m given) = some w')
    (hmem : e ∈ w'.candidates k n name) :
    e ∈ w.candidates k n name ∨ Joins w k n name e (.createEntity k' T this m given) := by
  have hi' := inv_step w _ w' hi hs
  obtain ⟨hen, hact⟩ := step_eq_some_iff.mp hs
  simp only [enabled, Bool.and_eq_true] at hen
  obtain ⟨node, hn⟩ := ObjectStore.alive_iff.mp hen.1
  obtain rfl : w' = w.createEntity k' T this m node given := by
    rw [← hact]
    simp only [act, hn]
  by_cases hnew : e = w.entities.next
  · subst hnew
    obtain ⟨obj, hobj, ⟨hkind, hnode, hname⟩, hcontends⟩ := (mem_candidates_iff hi').mp hmem
    rw [entities_createEntity, ObjectStore.get?_alloc_next] at hobj
    cases hobj
    obtain rfl : k' = k := hkind
    obtain rfl : m = n := hnode
    cases hk : k'.isAction with
    | false => exact Or.inr (.created T this given hk hname rfl)
    | true =>
      -- a newborn action entity is neither registered nor shared
      obtain ⟨-, -, hregs, -⟩ := createEntity_action hk T this m node given w
      rcases hcontends with hreg | ⟨hshared, -⟩
      · rw [registered, hregs, List.any_eq_true] at hreg
        obtain ⟨r, hr, hre⟩ := hreg
        have hborn := hi.born r hr
        rw [of_decide_eq_true hre] at hborn
        exact absurd hborn (Nat.lt_irrefl _)
      · simp [hk] at hshared
  · left
    refine mem_candidates_of hi hs (fun obj hobj => ?_) hmem
    rw [entities_createEntity, ObjectStore.get?_alloc, if_neg hnew] at hobj
    refine ⟨obj, hobj, rfl, rfl, rfl, rfl, fun hreg => Or.inl ?_⟩
    cases hk : k'.isAction with
    | true =>
      obtain ⟨-, -, hregs, -⟩ := createEntity_action hk T this m node given w
      rwa [registered, hregs] at hreg
    | false => simpa [registered_createEntity hk, Ne.symm hnew] using hreg

theorem mem_candidates_share (hi : Inv w) {e' : EntityRef} (hs : w.step (.share e') = some w')
    (hmem : e ∈ w'.candidates k n name) :
    e ∈ w.candidates k n name ∨ Joins w k n name e (.share e') := by
  have hi' := inv_step w _ w' hi hs
  obtain ⟨-, rfl⟩ := step_eq_some_iff.mp hs
  obtain ⟨obj', hobj', hkey, hcontends⟩ := (mem_candidates_iff hi').mp hmem
  have hget : (w.entities.modify e' fun obj => { obj with shared := true }).get? e = some obj' :=
    hobj'
  obtain ⟨obj, hobj, rfl | ⟨rfl, rfl⟩⟩ := ObjectStore.get?_of_modify hget
  · exact Or.inl ((mem_candidates_iff hi).mpr ⟨_, hobj, hkey, hcontends⟩)
  · rcases hcontends with hreg | ⟨-, hwaits⟩
    · exact Or.inl ((mem_candidates_iff hi).mpr ⟨obj, hobj, hkey, Or.inl hreg⟩)
    · refine Or.inr (.shared obj hobj hkey ?_)
      obtain rfl : obj.kind = k := hkey.1
      exact hwaits

/-- **What a step adds to the candidates of a key**: the entity it creates, or the pending one it
shares. -/
theorem mem_candidates_step (hi : Inv w) (hs : w.step op = some w')
    (hmem : e ∈ w'.candidates k n name) :
    e ∈ w.candidates k n name ∨ Joins w k n name e op := by
  -- for the other operations only births and registrations have to be looked at
  have hsame : (∀ obj, w'.entities.get? e = some obj → w.entities.get? e = some obj) →
      (∀ obj, w.entities.get? e = some obj → w'.registered e = true → w.Contends e obj) →
      e ∈ w.candidates k n name := by
    intro hent hreg
    refine mem_candidates_of hi hs (fun obj hobj => ?_) hmem
    exact ⟨obj, hent obj hobj, rfl, rfl, rfl, rfl, hreg obj (hent obj hobj)⟩
  cases op with
  | createEntity k' T this m given => exact mem_candidates_createEntity hi hs hmem
  | share e' => exact mem_candidates_share hi hs hmem
  | createNode | destroyNode | destroyTimer | call =>
    obtain ⟨-, rfl⟩ := step_eq_some_iff.mp hs
    exact Or.inl (hsame (fun _ hobj => hobj) fun _ _ hreg => Or.inl hreg)
  | destroyEntity e' =>
    obtain ⟨hen, rfl⟩ := step_eq_some_iff.mp hs
    obtain ⟨dead, hdead⟩ := ObjectStore.alive_iff.mp hen
    refine Or.inl (hsame (fun obj hobj => ?_) fun _ _ hreg => Or.inl ?_)
    · simp only [act, destroyEntity, hdead] at hobj
      exact ObjectStore.get?_of_free hobj
    · simp only [act, destroyEntity, hdead] at hreg
      exact hreg
  | createTimer m =>
    obtain ⟨hen, rfl⟩ := step_eq_some_iff.mp hs
    obtain ⟨node, hn⟩ := ObjectStore.alive_iff.mp hen
    simp only [act, hn] at hsame
    exact Or.inl (hsame (fun _ hobj => hobj) fun _ _ hreg => Or.inl hreg)
  | lookup k' m given =>
    obtain ⟨hen, rfl⟩ := step_eq_some_iff.mp hs
    obtain ⟨node, hn⟩ := ObjectStore.alive_iff.mp hen
    simp only [act, hn, (lookup_frame ..).entities] at hsame
    exact Or.inl (hsame (fun _ hobj => hobj) fun _ hobj => contends_of_registered_lookup hi hobj)
  | find k' T m given =>
    obtain ⟨hen, rfl⟩ := step_eq_some_iff.mp hs
    obtain ⟨node, hn⟩ := ObjectStore.alive_iff.mp hen
    have hf := lookup_frame k' node.controlBlock (findName k' given) w
    simp only [act, hn] at hsame
    left
    rcases find_cases k' T node.controlBlock given w with
      heq | heq | ⟨e₀, obj₀, -, -, -, -, -, -, heq⟩
    · rw [heq] at hsame
      exact hsame (fun _ hobj => hobj) fun _ _ hreg => Or.inl hreg
    · rw [heq, hf.entities] at hsame
      exact hsame (fun _ hobj => hobj) fun _ hobj => contends_of_registered_lookup hi hobj
    · rw [heq] at hsame
      exact hsame (fun _ hobj => by rwa [← hf.entities])
        fun _ hobj (hreg : (lookup k' node.controlBlock (findName k' given) w).2.registered e =
          true) => contends_of_registered_lookup hi hobj hreg
  | releaseMock m =>
    obtain ⟨hen, rfl⟩ := step_eq_some_iff.mp hs
    obtain ⟨mock, hmock⟩ := ObjectStore.alive_iff.mp hen
    simp only [act, releaseMock, hmock] at hsame
    exact Or.inl (hsame (fun _ hobj => hobj) fun _ _ hreg => Or.inl hreg)
  | reset =>
    have hi' := inv_step w _ w' hi hs
    obtain ⟨-, rfl⟩ := step_eq_some_iff.mp hs
    obtain ⟨obj, -, -, hreg | ⟨-, it, hit, -⟩⟩ := (mem_candidates_iff hi').mp hmem
    · cases hreg
    · cases hit

/-- What a lookup resolves to is registered once it is done. -/
theorem registered_of_resolve (hi : Inv w) {id : NodeId} (h : resolve k id name w = some e) :
    (lookup k id name w).2.registered e = true := by
  obtain ⟨m, hm⟩ := (inv_lookup hi k id name).recorded k id name e (resolve_eq_some h).1
  exact List.any_eq_true.mpr ⟨_, hm, by simp⟩

end Rtest.World
