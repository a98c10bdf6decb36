import Rtest.Registry.Candidates

/-!
# Which mock a call reaches

A call on an entity goes to the mock attached at the entity's address. It is the entity's own as
long as nothing is created where a mock of a dead entity is still attached, and it stays attached
as long as no other mock made for the same address dies. An entity gets a mock of its own as long
as it is alone under its key.

## Main definitions

- `World.OwnMocks` — calls reach an entity's own mock only, and every entity can be given one
- `World.FreshTarget`, `World.FreshKey` — no address and no key is shared with what lives
- `World.Associated` — the mocks handed out since the last reset are attached to their entities
-/

namespace Rtest.World

open StaticMocksRegistry

variable {w w' : World} {op : Op}

/-- The mock was created by a `find*` call for this very entity, as a mock of its type. -/
def Own (e : EntityRef) (k : Kind) (T : Interface) (mock : Mock) : Prop :=
  mock.createdFor = e ∧ mock.kind = k ∧ mock.interface = T

/-- Some name makes a `find*` call of the kind ask for this key. -/
def Askable (k : Kind) (key : Name) : Prop :=
  ∃ name, (rejectsEmpty k = true → name ≠ []) ∧ findName k name = key

/-- For every living entity registered under the name asked for, those counted that the call itself
registers, a `find*` call with its type returns a fresh mock, created for it, unless a living mock
was created for it before. -/
def FindsFresh (w : World) : Prop :=
  ∀ k n node name e obj, mockable k = true → w.nodes.get? n = some node →
    (rejectsEmpty k = true → name ≠ []) →
    e ∈ w.candidates k n (findName k name) → w.entities.get? e = some obj →
    (∀ m mock, w.mocks.get? m = some mock → mock.createdFor ≠ e) →
    (find k obj.interface node.controlBlock name w).1 = .mock w.mocks.next ∧
      (find k obj.interface node.controlBlock name w).2.receiver e = some w.mocks.next

/-- Calls reach an entity's own mock only, and no other mock keeps it from getting one. -/
def OwnMocks (w : World) : Prop := DeliversTo Own w ∧ FindsFresh w

/-- No mock is attached where a mockable entity is created, and a `find*` call whose function does
not check the type asks for the right one, or meets a live mock. -/
def FreshTarget (w : World) : Op → Prop
  | .createEntity k _ this _ _ => mockable k = true → w.attachedMock this = none
  | .find k T n name => AsksOwnType w k T n name
  | _ => True

/-- No entity takes a key while another living one is a candidate for it: neither one that
registers as it is created, nor a pending one as it becomes shared. -/
def FreshKey (w : World) : Op → Prop
  | .createEntity k _ _ n name => mockable k = true → k.isAction = false →
      Askable k (registerName k name) → w.candidates k n (registerName k name) = []
  | .share e => ∀ obj, w.entities.get? e = some obj → w.Waits obj.kind e →
      ∀ e' ∈ w.candidates obj.kind obj.node (registerName obj.kind obj.name), e' = e
  | _ => True

/-- A key that can be asked for has one candidate at most. -/
def SoleCandidates (w : World) : Prop :=
  ∀ k n name, mockable k = true → Askable k name →
    ∀ e ∈ w.candidates k n name, ∀ e' ∈ w.candidates k n name, e' = e

/-- Every attached mock is its entity's own, every slot holds the oldest living entity of its key,
and no key has two. -/
structure OneEach (w : World) : Prop where
  attached : AttachedAll Own w
  held : ∀ k name, mockable k = true → Askable k name → OldestHeld k name w
  sole : SoleCandidates w

theorem oneEach_init : OneEach init where
  attached := attachedAll_init
  held := fun _ _ _ _ => oldestHeld_init
  sole := by
    intro k n name _ _ e he
    obtain ⟨obj, hobj, -⟩ := (mem_candidates_iff inv_init).mp he
    cases hobj

/-- An entity that joins the candidates of a key by a step that meets the condition is the only
one. -/
theorem Joins.sole {k : Kind} {n : NodeRef} {name : Name} {e : EntityRef}
    (h : Joins w k n name e op) (hc : FreshKey w op) (hk : mockable k = true)
    (hask : Askable k name) : ∀ e' ∈ w.candidates k n name, e' = e := by
  cases h with
  | created T this given hnow hname hnew =>
    subst hname
    rw [hc hk hnow hask]
    intro e' he'
    cases he'
  | shared obj hobj hkey hwaits =>
    obtain ⟨rfl, rfl, rfl⟩ := hkey
    exact hc obj hobj hwaits

theorem SoleCandidates.step (hi : Inv w) (h : SoleCandidates w) (hc : FreshKey w op)
    (hs : w.step op = some w') : SoleCandidates w' := by
  intro k n name hk hask e he e' he'
  rcases mem_candidates_step hi hs he with hold | hjoins <;>
    rcases mem_candidates_step hi hs he' with hold' | hjoins'
  · exact h k n name hk hask e hold e' hold'
  · exact (hjoins'.sole hc hk hask e hold).symm
  · exact hjoins.sole hc hk hask e' hold'
  · cases hjoins with
    | created T this given hnow hname hnew =>
      cases hjoins' with
      | created T' this' given' hnow' hname' hnew' => rw [hnew, hnew']
    | shared obj hobj hkey hwaits =>
      cases hjoins' with
      | shared obj' hobj' hkey' hwaits' => rfl

/-- Where a key has one candidate at most, no death leaves a younger one behind. -/
theorem SoleCandidates.keepsOldestOf (h : SoleCandidates w) {k : Kind} {name : Name}
    (hk : mockable k = true) (hask : Askable k name) (op : Op) : KeepsOldestOf k name w op := by
  cases op with
  | destroyEntity e =>
    intro n _ hhead e' he'
    have hsub := (liveUnder_prefix_candidates w k n name).subset
    exact h k n name hk hask e (hsub (List.mem_of_mem_head? hhead)) e' (hsub he')
  | _ => trivial

/-- The only candidate is what a lookup resolves to. -/
theorem OneEach.resolve_eq (hi : Inv w) (h : OneEach w) {k : Kind} {n : NodeRef} {node : Node}
    {name : Name} {e : EntityRef} (hk : mockable k = true) (hask : Askable k name)
    (hn : w.nodes.get? n = some node) (he : e ∈ w.candidates k n name) :
    resolve k node.controlBlock name w = some e := by
  rw [(h.held k name hk hask).resolve_eq hi hn]
  obtain ⟨first, rest, hlist⟩ := List.exists_cons_of_ne_nil (List.ne_nil_of_mem he)
  have hfirst : first ∈ w.candidates k n name := by
    rw [hlist]
    exact List.mem_cons_self
  rw [hlist, List.head?_cons, h.sole k n name hk hask e he first hfirst]

/-- With every mock attached to its own entity, no other mock can block a `find*` call. -/
theorem OneEach.findsFresh (hi : Inv w) (h : OneEach w) : FindsFresh w := by
  intro k n node name e obj hk hn hname he hobj hnone
  have hres := h.resolve_eq hi hk ⟨name, hname, rfl⟩ hn he
  have hkind := resolve_kind hi hres hobj
  have hsub : k ≠ .subscription := by simpa [mockable] using hk
  have hfree : w.attachedMock obj.this = none := by
    cases hatt : w.attachedMock obj.this with
    | none => rfl
    | some m =>
      obtain ⟨-, mock, hmock⟩ := attachedMock_eq_some_iff.mp hatt
      have hown := h.attached e obj hobj (by rwa [hkind]) m mock hatt hmock
      exact absurd hown.1 (hnone m mock hmock)
  have hf := lookup_frame k node.controlBlock (findName k name) w
  obtain ⟨hent, hmocks, htable, -⟩ := makeMock_of_frame hf k obj.interface e obj
  rw [find_makes hname hsub hres hobj hfree (Or.inl rfl), receiver_eq_some_iff]
  refine ⟨by simp only [makeMock, hf.mocks], obj, by rw [hent, hobj], by rwa [hkind], ?_⟩
  rw [attachedMock_eq_some_iff, htable, if_pos rfl, hmocks]
  exact ⟨rfl, _, ObjectStore.get?_alloc_next ..⟩

/-- A mock that is attached somewhere was created for an entity born before, so it is not the own
mock of a newborn. -/
theorem freshTarget_iff (hm : MockInv w) : FreshTarget w op ↔ MeetsRelated Own w op := by
  cases op with
  | createEntity k T this n name =>
    constructor
    · intro h hk m mock hatt
      rw [h hk] at hatt
      cases hatt
    · intro h hk
      cases hatt : w.attachedMock this with
      | none => rfl
      | some m =>
        obtain ⟨-, mock, hmock⟩ := attachedMock_eq_some_iff.mp hatt
        have hown := h hk m mock hatt hmock
        have hborn := hm.born m mock hmock
        rw [hown.1] at hborn
        exact absurd hborn (Nat.lt_irrefl _)
  | _ => exact Iff.rfl

theorem OneEach.step (hi : Inv w) (hm : MockInv w) (h : OneEach w)
    (hc : FreshTarget w op ∧ FreshKey w op) (hs : w.step op = some w') : OneEach w' where
  attached := h.attached.step hi hm (fun _ _ _ _ _ => ⟨rfl, rfl, rfl⟩)
    ((freshTarget_iff hm).mp hc.1) hs
  held := fun k name hk hask =>
    oldestHeld_step hi (h.held k name hk hask) (h.sole.keepsOldestOf hk hask op) hs
  sole := h.sole.step hi hc.2 hs

/-! What a step that breaks the condition leaves behind: of two candidates of one key a lookup
resolves to one, and the other has had no mock yet. -/

/-- No mock has been made for an entity that still waits. -/
def WaitsUnmocked (w : World) : Prop :=
  ∀ m mock, w.mocks.get? m = some mock → ∀ k, ¬ w.Waits k mock.createdFor

theorem WaitsUnmocked.step (hi : Inv w) (hp : PendingInv w) (hm : MockInv w)
    (h : WaitsUnmocked w) (hs : w.step op = some w') : WaitsUnmocked w' := by
  have hold : ∀ m mock, w.mocks.get? m = some mock → ∀ k, ¬ w'.Waits k mock.createdFor := by
    intro m mock hmock k hwaits
    rcases waits_step hi hs hwaits with hwaits | hnew
    · exact h m mock hmock k hwaits
    · exact Nat.ne_of_lt (hm.born m mock hmock) hnew
  intro m mock hmock
  cases mockStep_of_step hi hs with
  | still table next entities | born table k T this n name hop obj hkind entities =>
    rw [table.mocks] at hmock
    exact hold m mock hmock
  | reset hop entities mocks table resets =>
    rw [mocks] at hmock
    exact hold m mock hmock
  | released m₀ hop mock₀ hmock₀ entities mocks table resets =>
    rw [mocks] at hmock
    exact hold m mock (ObjectStore.get?_of_free hmock)
  | made k T n name hop node hn hk e hres obj hobj hkind hfree hT entities mocks table resets =>
    rw [mocks, ObjectStore.get?_alloc] at hmock
    split at hmock
    · -- the mock's entity was found, so the lookup has registered it
      cases hmock
      intro k' hwaits
      have hpl := pendingInv_lookup hi hp k node.controlBlock (findName k name)
      have hreg := registered_of_resolve hi hres
      have hwaits : (lookup k node.controlBlock (findName k name) w).2.Waits k' e := by
        subst hop
        obtain ⟨-, rfl⟩ := step_eq_some_iff.mp hs
        simp only [act, hn] at hwaits mocks
        rcases find_cases k T node.controlBlock name w with
          heq | heq | ⟨e₀, obj₀, -, -, -, -, -, -, heq⟩
        · rw [heq] at mocks
          exact absurd (congrArg ObjectStore.next mocks) (by simp)
        · rw [heq] at hwaits
          exact hwaits
        · rw [heq] at hwaits
          exact hwaits
      rw [hpl.not_registered hwaits] at hreg
      cases hreg
    · exact hold m mock hmock

/-- Where every call finds its entity, a lookup resolves to each candidate that has no mock. -/
theorem FindsFresh.resolve_eq (hi : Inv w) (hm : MockInv w) (h : FindsFresh w) {k : Kind}
    {n : NodeRef} {node : Node} {name : Name} {e : EntityRef} (hk : mockable k = true)
    (hask : Askable k name) (hn : w.nodes.get? n = some node) (he : e ∈ w.candidates k n name)
    (hnone : ∀ m mock, w.mocks.get? m = some mock → mock.createdFor ≠ e) :
    resolve k node.controlBlock name w = some e := by
  obtain ⟨asked, hname, rfl⟩ := hask
  obtain ⟨obj, hobj, -⟩ := (mem_candidates_iff hi).mp he
  obtain ⟨hmade, hrec⟩ := h k n node asked e obj hk hn hname he hobj hnone
  refine (finds_iff hi hm hobj hname).mp ?_
  rw [Finds, hmade]
  exact hrec

/-- An entity that registers itself leaves what its key resolves to. -/
theorem resolve_createEntity {k : Kind} (hk : k.isAction = false) (T : Interface) (this : Addr)
    (n : NodeRef) (node : Node) (given : Name) {id : NodeId} {name : Name} {e : EntityRef}
    (h : resolve k id name w = some e) :
    resolve k id name (w.createEntity k T this n node given) = some e := by
  have hheld : w.registry.slot k id name = some e ∧ w.entities.alive e = true := by
    simpa [resolve, lookup, hk, ObjectStore.lock_eq_some_iff] using h
  have hborn : e ≠ w.entities.next := by
    obtain ⟨obj, hobj⟩ := ObjectStore.alive_iff.mp hheld.2
    exact Nat.ne_of_lt (ObjectStore.lt_next_of_get? hobj)
  have hlives : (w.createEntity k T this n node given).entities.alive e = true := by
    rw [entities_createEntity]
    simpa [hborn] using hheld.2
  have hslot : (w.createEntity k T this n node given).registry.slot k id name = some e := by
    simp only [createEntity, hk, Bool.false_eq_true, if_false, slot_postInitSetup]
    split
    · next hfree =>
      obtain ⟨⟨-, rfl, rfl⟩, hnone⟩ := hfree
      rw [hheld.1] at hnone
      simp [ObjectStore.lock, Option.filter, hborn, hheld.2] at hnone
    · exact hheld.1
  simp [resolve, lookup, hk, hslot, ObjectStore.lock_eq_some_iff, hlives]

/-- A new entity is not found where its key has a candidate already. -/
theorem freshKey_createEntity (hi : Inv w) (hm : MockInv w) (h : OneEach w) {k : Kind}
    {T : Interface} {this : Addr} {n : NodeRef} {name : Name}
    (hs : w.step (.createEntity k T this n name) = some w') (hfresh : FindsFresh w') :
    FreshKey w (.createEntity k T this n name) := by
  intro hk hnow hask
  by_contra hne
  obtain ⟨first, hfirst⟩ := List.exists_mem_of_ne_nil _ hne
  have hi' := inv_step w _ w' hi hs
  have hm' := hm.step (mockStep_of_step hi hs)
  obtain ⟨hen, hact⟩ := step_eq_some_iff.mp hs
  simp only [enabled, Bool.and_eq_true] at hen
  obtain ⟨node, hn⟩ := ObjectStore.alive_iff.mp hen.1
  obtain rfl : w' = w.createEntity k T this n node name := by
    rw [← hact]
    simp only [act, hn]
  have hold := resolve_createEntity hnow T this n node name (h.resolve_eq hi hk hask hn hfirst)
  have hnew : w.entities.next ∈
      (w.createEntity k T this n node name).candidates k n (registerName k name) := by
    refine (mem_candidates_iff hi').mpr
      ⟨⟨k, T, this, n, node.controlBlock, name, !k.isAction⟩, ?_, ⟨rfl, rfl, rfl⟩, Or.inl ?_⟩
    · rw [entities_createEntity, ObjectStore.get?_alloc_next]
    · simp [registered_createEntity hnow]
  have hn' : (w.createEntity k T this n node name).nodes.get? n = some node := by
    rw [createEntity, if_neg (by simp [hnow])]
    exact hn
  have hunmocked : ∀ m mock, (w.createEntity k T this n node name).mocks.get? m = some mock →
      mock.createdFor ≠ w.entities.next := by
    intro m mock hmock
    rw [(sameTable_createEntity k T this n node name w).mocks] at hmock
    exact Nat.ne_of_lt (hm.born m mock hmock)
  have hfound := hfresh.resolve_eq hi' hm' hk hask hn' hnew hunmocked
  rw [hold] at hfound
  obtain ⟨obj, hobj, -⟩ := (mem_candidates_iff hi).mp hfirst
  exact Nat.ne_of_lt (ObjectStore.lt_next_of_get? hobj) (Option.some.inj hfound)

/-- Of a pending entity that becomes shared and another candidate of its key, one is not found. -/
theorem freshKey_share (hi : Inv w) (hp : PendingInv w) (hm : MockInv w) (hu : WaitsUnmocked w)
    (h : OneEach w) {e : EntityRef} (hs : w.step (.share e) = some w') (hfresh : FindsFresh w') :
    FreshKey w (.share e) := by
  intro obj hobj hwaits e' he'
  by_contra hne
  have hk := hi.waits_isAction hwaits
  have hmockable : mockable obj.kind = true := by
    cases hkind : obj.kind <;> simp_all [mockable, Kind.isAction]
  have hask : Askable obj.kind (registerName obj.kind obj.name) := by
    refine ⟨obj.name, ?_, ?_⟩ <;> cases hkind : obj.kind <;>
      simp_all [rejectsEmpty, findName, registerName, Kind.isAction]
  obtain ⟨node, hn, -⟩ := hi.nodeHeld e obj hobj hk
  have hi' := inv_step w _ w' hi hs
  have hm' := hm.step (mockStep_of_step hi hs)
  have hheld := oldestHeld_step hi (h.held _ _ hmockable hask)
    (h.sole.keepsOldestOf hmockable hask _) hs
  obtain ⟨-, rfl⟩ := step_eq_some_iff.mp hs
  obtain ⟨obj', hobj', hkey', hcontends'⟩ := (mem_candidates_iff hi).mp he'
  have hgets : (w.act (.share e)).entities.get? e = some { obj with shared := true } ∧
      (w.act (.share e)).entities.get? e' = some obj' := by
    simp only [act, ObjectStore.get?_modify, if_neg hne, hobj, hobj']
    exact ⟨rfl, trivial⟩
  have hself : e ∈ (w.act (.share e)).candidates obj.kind obj.node
      (registerName obj.kind obj.name) :=
    (mem_candidates_iff hi').mpr ⟨_, hgets.1, ⟨rfl, rfl, rfl⟩, Or.inr ⟨rfl, hwaits⟩⟩
  have hother : e' ∈ (w.act (.share e)).candidates obj.kind obj.node
      (registerName obj.kind obj.name) :=
    (mem_candidates_iff hi').mpr ⟨obj', hgets.2, hkey', hcontends'⟩
  have hfound := hfresh.resolve_eq hi' hm' hmockable hask hn hself
    (fun m mock hmock heq => hu m mock hmock obj.kind (heq ▸ hwaits))
  rcases hcontends' with hreg | ⟨-, hwaits'⟩
  · -- a registered one comes before what waits
    have hlive : e' ∈ (w.act (.share e)).liveUnder obj.kind obj.node
        (registerName obj.kind obj.name) :=
      (mem_liveUnder_iff hi').mpr ⟨obj', hgets.2, hkey', hreg⟩
    obtain ⟨first, rest, hlist⟩ := List.exists_cons_of_ne_nil (List.ne_nil_of_mem hlive)
    obtain ⟨tail, htail⟩ := liveUnder_prefix_candidates (w.act (.share e)) obj.kind obj.node
      (registerName obj.kind obj.name)
    have hn' : (w.act (.share e)).nodes.get? obj.node = some node := hn
    rw [hheld.resolve_eq hi' hn', ← htail, hlist] at hfound
    obtain rfl := Option.some.inj hfound
    have hregistered : (w.act (.share first)).registered first = true := by
      have hmem : first ∈ (w.act (.share first)).liveUnder obj.kind obj.node
          (registerName obj.kind obj.name) := by
        rw [hlist]
        exact List.mem_cons_self
      exact ((mem_liveUnder_iff hi').mp hmem).choose_spec.2.2
    have hnot : w.registered first = false := hp.not_registered hwaits
    have hsame : (w.act (.share first)).registered first = w.registered first := rfl
    rw [hsame, hnot] at hregistered
    cases hregistered
  · have hfound' := hfresh.resolve_eq hi' hm' hmockable hask hn hother
      (fun m mock hmock heq => hu m mock hmock obj'.kind (heq ▸ hwaits'))
    rw [hfound] at hfound'
    exact hne (Option.some.inj hfound').symm

theorem OneEach.freshKey (hi : Inv w) (hp : PendingInv w) (hm : MockInv w)
    (hu : WaitsUnmocked w) (h : OneEach w) (hs : w.step op = some w') (hfresh : FindsFresh w') :
    FreshKey w op := by
  cases op with
  | createEntity k T this n name => exact freshKey_createEntity hi hm h hs hfresh
  | share e => exact freshKey_share hi hp hm hu h hs hfresh
  | _ => trivial

/-- **When calls reach an entity's own mock.** All along a run calls are delivered to own mocks
only, and a `find*` call for any registered living entity without a mock returns a fresh one for
it, exactly when no step creates a mockable entity at an address where a live mock is attached,
makes a mock of a type its entity does not have, or lets an entity take a key that another living
one is a candidate for. -/
theorem ownMocks_iff_fresh {ops : List Op} (h : (Runs.run step init ops).isSome = true) :
    Runs.Always step OwnMocks init ops ↔
      Runs.EachStep step (fun w op => FreshTarget w op ∧ FreshKey w op) init ops := by
  obtain ⟨last, hlast⟩ := Option.isSome_iff_exists.mp h
  refine @Runs.always_iff_eachStep _ _ _
    (fun w => (Inv w ∧ MockInv w) ∧ PendingInv w ∧ WaitsUnmocked w) OneEach OwnMocks
    (fun w op => FreshTarget w op ∧ FreshKey w op) ?_ ?_ ?_ ?_ _ _ _
    ⟨⟨inv_init, mockInv_init⟩, pendingInv_init, fun m mock hmock => by cases hmock⟩ oneEach_init
    hlast
  · rintro w op w' ⟨hboth, hp, hu⟩ hs
    exact ⟨mockInv_step w op w' hboth hs, (pendingInv_step w op w' ⟨hboth.1, hp⟩ hs).2,
      hu.step hboth.1 hp hboth.2 hs⟩
  · rintro w ⟨⟨hi, -⟩, -⟩ hone
    exact ⟨deliversTo_iff.mpr hone.attached, hone.findsFresh hi⟩
  · rintro w op w' ⟨⟨hi, hm⟩, -⟩ hone hc hs
    exact hone.step hi hm hc hs
  · rintro w op w' ⟨⟨hi, hm⟩, hp, hu⟩ hone hs ⟨hdelivers, hfresh⟩
    exact ⟨(freshTarget_iff hm).mpr (.of_attachedAll hi (fun _ _ _ _ hR => hR.2.2) hs
      (deliversTo_iff.mp hdelivers)), hone.freshKey hi hp hm hu hs hfresh⟩

/-- A mock outlives its publisher, whose slot is taken by the next one of its name, and a publisher
of another type is created at the first one's address. -/
def reuseAddress : List Op :=
  [.createNode ⟨1, 100, "/".toList, "node".toList⟩,
    .createEntity .publisher 7 10 0 "/topic".toList,
    .find .publisher 7 0 "/topic".toList,
    .destroyEntity 0,
    .createEntity .publisher 7 20 0 "/topic".toList,
    .createEntity .publisher 8 10 0 "/other".toList]

theorem ownMocks_reuseAddress :
    Runs.Always step OwnMocks init reuseAddress ↔
      Runs.EachStep step (fun w op => FreshTarget w op ∧ FreshKey w op) init reuseAddress :=
  ownMocks_iff_fresh (by decide)

/-- Calls on the new publisher reach the mock of the dead one, and no mock of its own can be
had. -/
theorem reuseAddress_misdelivers :
    (Runs.run step init reuseAddress).isSome = true ∧
      ¬ Runs.Always step OwnMocks init reuseAddress ∧
      (after reuseAddress).receiver 2 = some 0 ∧
      ((after reuseAddress).mocks.get? 0).map (·.createdFor) = some 0 ∧
      (after reuseAddress).registry.slot .publisher 1 "/topic".toList = some 1 ∧
      (find .publisher 8 1 "/other".toList (after reuseAddress)).1 = .alreadyAttached := by
  have hrun : (Runs.run step init reuseAddress).isSome = true := by decide
  refine ⟨hrun, fun h => ?_, by decide, by decide, by decide, by decide⟩
  have hown := (h.last (run_after hrun)).1
  obtain ⟨mock, hmock, hfor, -, -⟩ := hown 2
    ⟨.publisher, 8, 10, 0, 1, "/other".toList, true⟩ 0 (by decide) (by decide)
  have hother : ((after reuseAddress).mocks.get? 0).map (·.createdFor) = some 0 := by decide
  rw [hmock] at hother
  simp [hfor] at hother

/-! ## Mocks and their associations -/

/-- The mock was handed out since the last reset for an entity that lives. -/
def Holds (w : World) (m : MockRef) (mock : Mock) (obj : Entity) : Prop :=
  w.mocks.get? m = some mock ∧ mock.round = w.history.resets ∧
    w.entities.get? mock.createdFor = some obj

/-- Calls on a living entity are delivered to the living mock a `find*` call returned for it since
the last reset. -/
def Associated (w : World) : Prop :=
  ∀ m mock obj, Holds w m mock obj → w.receiver mock.createdFor = some m

/-- The mock that dies does not share its target with another one that is still associated. -/
def DetachesOwn (w : World) : Op → Prop
  | .releaseMock m => ∀ mock m' mock' obj, w.mocks.get? m = some mock → m' ≠ m →
      Holds w m' mock' obj → mock'.target ≠ mock.target
  | _ => True

theorem associated_init : Associated init := by
  intro m mock obj h
  cases h.1

/-- The entity of an associated mock is mockable and lives at the mock's target. -/
theorem Holds.entity (hm : MockInv w) {m : MockRef} {mock : Mock} {obj : Entity}
    (h : Holds w m mock obj) : mockable obj.kind = true ∧ obj.this = mock.target := by
  obtain ⟨hmock, -, hobj⟩ := h
  obtain ⟨hthis, hkind⟩ := hm.target m mock obj hmock hobj
  exact ⟨by rw [hkind]; exact hm.kind m mock hmock, hthis⟩

theorem Holds.receiver_iff (hm : MockInv w) {m : MockRef} {mock : Mock} {obj : Entity}
    (h : Holds w m mock obj) :
    w.receiver mock.createdFor = some m ↔ w.attachedMock mock.target = some m := by
  obtain ⟨hk, hthis⟩ := h.entity hm
  rw [receiver_eq_some_iff]
  constructor
  · rintro ⟨obj', hobj', -, hatt⟩
    rw [h.2.2] at hobj'
    cases hobj'
    rwa [hthis] at hatt
  · intro hatt
    exact ⟨obj, h.2.2, hk, by rwa [hthis]⟩

theorem Associated.step (hi : Inv w) (hm : MockInv w) (h : Associated w) (hc : DetachesOwn w op)
    (hs : w.step op = some w') : Associated w' := by
  have hstep := mockStep_of_step hi hs
  intro m mock obj' hh
  rw [hh.receiver_iff (hm.step hstep)]
  obtain ⟨hmock, hround, hobj'⟩ := hh
  cases hstep with
  | still table next entities =>
    obtain ⟨obj, hobj, -⟩ := entities _ _ hobj'
    rw [table.mocks] at hmock
    rw [table.resets] at hround
    have hold : Holds w m mock obj := ⟨hmock, hround, hobj⟩
    rw [table.attachedMock]
    exact (hold.receiver_iff hm).mp (h m mock obj hold)
  | born table k T this n name hop obj hkind entities =>
    rw [table.mocks] at hmock
    rw [table.resets] at hround
    rw [entities, ObjectStore.get?_alloc, if_neg (Nat.ne_of_lt (hm.born m mock hmock))] at hobj'
    have hold : Holds w m mock obj' := ⟨hmock, hround, hobj'⟩
    rw [table.attachedMock]
    exact (hold.receiver_iff hm).mp (h m mock obj' hold)
  | made k T n name hop node hn hk e hres obj hobj hkind hfree hT entities mocks table resets =>
    rw [attachedMock_made hm mocks table]
    rw [mocks, ObjectStore.get?_alloc] at hmock
    split at hmock
    · next heq =>
      cases hmock
      rw [if_pos rfl, heq]
    · -- another associated mock stands elsewhere, since nothing was attached here
      rw [resets] at hround
      rw [entities] at hobj'
      have hold : Holds w m mock obj' := ⟨hmock, hround, hobj'⟩
      have hatt := (hold.receiver_iff hm).mp (h m mock obj' hold)
      have hne : mock.target ≠ obj.this := by
        intro heq
        rw [heq, hfree] at hatt
        cases hatt
      rw [if_neg hne, hatt]
  | released m₀ hop mock₀ hmock₀ entities mocks table resets =>
    rw [attachedMock_released hm hmock₀ mocks table]
    rw [mocks, ObjectStore.get?_free] at hmock
    split at hmock
    · cases hmock
    · next hne =>
      rw [resets] at hround
      rw [entities] at hobj'
      have hold : Holds w m mock obj' := ⟨hmock, hround, hobj'⟩
      subst hop
      rw [if_neg (hc mock₀ m mock obj' hmock₀ hne hold)]
      exact (hold.receiver_iff hm).mp (h m mock obj' hold)
  | reset hop entities mocks table resets =>
    -- every living mock was handed out before this reset
    rw [mocks] at hmock
    rw [resets] at hround
    have hle := hm.round m mock hmock
    omega

theorem DetachesOwn.of_associated (hi : Inv w) (hm : MockInv w) (hs : w.step op = some w')
    (h : Associated w') : DetachesOwn w op := by
  have hm' := hm.step (mockStep_of_step hi hs)
  obtain ⟨hen, rfl⟩ := step_eq_some_iff.mp hs
  cases op with
  | releaseMock m =>
    intro mock m' mock' obj hmock hne hh heq
    have hact : w.act (.releaseMock m) =
        { w with mocks := w.mocks.free m, registry := w.registry.detachMock mock.target } := by
      simp only [act, releaseMock, hmock]
    have hh' : Holds (w.act (.releaseMock m)) m' mock' obj := by
      rw [hact]
      refine ⟨?_, hh.2.1, hh.2.2⟩
      rw [ObjectStore.get?_free, if_neg hne]
      exact hh.1
    have hatt := (hh'.receiver_iff hm').mp (h m' mock' obj hh')
    rw [hact, attachedMock_eq_some_iff] at hatt
    simp [heq] at hatt
  | _ => trivial

/-- **When destroying a mock disconnects no other.** All along a run every mock handed out since
the last reset for a living entity receives that entity's calls exactly when no mock is destroyed
while another such mock has the same target address. -/
theorem associated_iff_detachesOwn {ops : List Op} (h : (Runs.run step init ops).isSome = true) :
    Runs.Always step Associated init ops ↔ Runs.EachStep step DetachesOwn init ops := by
  obtain ⟨last, hlast⟩ := Option.isSome_iff_exists.mp h
  refine @Runs.always_iff_eachStep _ _ _ (fun w => Inv w ∧ MockInv w) Associated Associated
    DetachesOwn mockInv_step (fun _ _ hw => hw) ?_ ?_ _ _ _ ⟨inv_init, mockInv_init⟩
    associated_init hlast
  · rintro w op w' ⟨hi, hm⟩ hw hc hs
    exact hw.step hi hm hc hs
  · rintro w op w' ⟨hi, hm⟩ - hs hw'
    exact .of_associated hi hm hs hw'

/-- A mock is kept over a reset; the mock of a later publisher at the same address dies of the
destruction of the first. -/
def holdOverReset : List Op :=
  [.createNode ⟨1, 100, "/".toList, "node".toList⟩,
    .createEntity .publisher 7 10 0 "/topic".toList,
    .find .publisher 7 0 "/topic".toList,
    .destroyEntity 0,
    .reset,
    .createEntity .publisher 7 10 0 "/topic".toList,
    .find .publisher 7 0 "/topic".toList,
    .releaseMock 0]

theorem associated_holdOverReset :
    Runs.Always step Associated init holdOverReset ↔
      Runs.EachStep step DetachesOwn init holdOverReset :=
  associated_iff_detachesOwn (by decide)

/-- The second mock lives, and calls on its publisher no longer reach it. -/
theorem holdOverReset_disconnects :
    (Runs.run step init holdOverReset).isSome = true ∧
      ¬ Runs.Always step Associated init holdOverReset := by
  have hrun : (Runs.run step init holdOverReset).isSome = true := by decide
  refine ⟨hrun, fun h => ?_⟩
  have hrec := h.last (run_after hrun) 1 ⟨.publisher, 7, 10, 1, 1⟩
    ⟨.publisher, 7, 10, 0, 1, "/topic".toList, true⟩ ⟨by decide, by decide, by decide⟩
  have hnone : (after holdOverReset).receiver 1 = none := by decide
  rw [hnone] at hrec
  cases hrec

end Rtest.World
