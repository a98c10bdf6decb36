import Rtest.Registry.Invariant

/-!
# The mock table

One table serves five kinds of entity. It is keyed by the raw address of the entity, an entity
leaves its entry behind when it dies, and the destructor of a mock erases whatever stands at the
address the mock was made for. `MockStep` says once what an operation can do to the table; the
invariants of the table are then cases of it.

## Main definitions

- `World.MockStep` — the five things an operation can do to the table
- `World.MockInv` — what holds of the table in every reachable world
-/

namespace Rtest.World

open StaticMocksRegistry

variable {w w' : World} {op : Op}

/-- The kinds of entity that forward their calls to a mock. -/
def mockable (k : Kind) : Bool := k ≠ .subscription

/-- The mock a call on the entity is delivered to. -/
def receiver (w : World) (e : EntityRef) : Option MockRef :=
  (w.entities.get? e).bind fun obj => if mockable obj.kind then w.attachedMock obj.this else none

/-- The entities of `w'` are entities of `w`, up to their being shared. -/
def EntitiesFrom (w w' : World) : Prop :=
  ∀ e obj', w'.entities.get? e = some obj' → ∃ obj, w.entities.get? e = some obj ∧
    obj'.kind = obj.kind ∧ obj'.interface = obj.interface ∧ obj'.this = obj.this

/-- The mocks, the table and the number of resets are those of `w`. -/
structure SameTable (w w' : World) : Prop where
  mocks : w'.mocks = w.mocks
  mockRegistry : w'.registry.mockRegistry = w.registry.mockRegistry
  resets : w'.history.resets = w.history.resets

/-- What an operation does to entities and mocks. -/
inductive MockStep (w w' : World) (op : Op) : Prop
  | still (table : SameTable w w') (next : w'.entities.next = w.entities.next)
      (entities : EntitiesFrom w w')
  | born (table : SameTable w w') (k : Kind) (T : Interface) (this : Addr) (n : NodeRef)
      (name : Name) (hop : op = .createEntity k T this n name) (obj : Entity)
      (hkind : obj.kind = k ∧ obj.interface = T ∧ obj.this = this)
      (entities : w'.entities = w.entities.alloc obj)
  | made (k : Kind) (T : Interface) (n : NodeRef) (name : Name) (hop : op = .find k T n name)
      (node : Node) (hn : w.nodes.get? n = some node) (hk : mockable k = true) (e : EntityRef)
      (hres : resolve k node.controlBlock (findName k name) w = some e) (obj : Entity)
      (hobj : w.entities.get? e = some obj) (hkind : obj.kind = k)
      (hfree : w.attachedMock obj.this = none) (hT : obj.interface = T ∨ unchecked k = true)
      (entities : w'.entities = w.entities)
      (mocks : w'.mocks = w.mocks.alloc ⟨k, T, obj.this, e, w.history.resets⟩)
      (table : ∀ a, w'.registry.getMock a =
        if a = obj.this then some w.mocks.next else w.registry.getMock a)
      (resets : w'.history.resets = w.history.resets)
  | released (m : MockRef) (hop : op = .releaseMock m) (mock : Mock)
      (hmock : w.mocks.get? m = some mock) (entities : w'.entities = w.entities)
      (mocks : w'.mocks = w.mocks.free m)
      (table : ∀ a, w'.registry.getMock a =
        if a = mock.target then none else w.registry.getMock a)
      (resets : w'.history.resets = w.history.resets)
  | reset (hop : op = .reset) (entities : w'.entities = w.entities) (mocks : w'.mocks = w.mocks)
      (table : ∀ a, w'.registry.getMock a = none)
      (resets : w'.history.resets = w.history.resets + 1)

theorem SameTable.refl (w : World) : SameTable w w := ⟨rfl, rfl, rfl⟩

theorem SameTable.getMock (h : SameTable w w') (a : Addr) :
    w'.registry.getMock a = w.registry.getMock a := by
  simp only [StaticMocksRegistry.getMock, h.mockRegistry]

theorem SameTable.attachedMock (h : SameTable w w') (a : Addr) :
    w'.attachedMock a = w.attachedMock a := by
  rw [World.attachedMock, World.attachedMock, h.getMock, h.mocks]

theorem EntitiesFrom.of_eq (h : w'.entities = w.entities) : EntitiesFrom w w' := by
  intro e obj hobj
  rw [h] at hobj
  exact ⟨obj, hobj, rfl, rfl, rfl⟩

theorem Frame.sameTable (h : Frame w w') : SameTable w w' := ⟨h.mocks, h.mockRegistry, h.resets⟩

theorem MockStep.still_of_frame (h : Frame w w') : MockStep w w' op :=
  .still h.sameTable (by rw [h.entities]) (.of_eq h.entities)

theorem MockStep.still_refl : MockStep w w op := .still_of_frame (.refl w)

/-- A lookup resolves to an entity of its kind. -/
theorem resolve_kind (hi : Inv w) {k : Kind} {node : NodeId} {name : Name} {e : EntityRef}
    {obj : Entity} (h : resolve k node name w = some e) (hobj : w.entities.get? e = some obj) :
    obj.kind = k := by
  have hl := inv_lookup hi k node name
  obtain ⟨hslot, -⟩ := resolve_eq_some h
  obtain ⟨m, hm⟩ := hl.recorded k node name e hslot
  rw [← (lookup_frame k node name w).entities] at hobj
  have hr := hl.faithful _ hm obj hobj
  exact (congrArg Registration.kind hr).symm

/-- What making a mock adds to the world the lookup left. -/
theorem makeMock_of_frame (hf : Frame w w') (k : Kind) (T : Interface) (e : EntityRef)
    (obj : Entity) :
    (makeMock k T e obj w').2.entities = w.entities ∧
      (makeMock k T e obj w').2.mocks = w.mocks.alloc ⟨k, T, obj.this, e, w.history.resets⟩ ∧
      (∀ a, (makeMock k T e obj w').2.registry.getMock a =
        if a = obj.this then some w.mocks.next else w.registry.getMock a) ∧
      (makeMock k T e obj w').2.history.resets = w.history.resets := by
  refine ⟨hf.entities, ?_, fun a => ?_, hf.resets⟩
  · simp only [makeMock, hf.mocks, hf.resets]
  · simp only [makeMock, getMock_attachMock, hf.mocks]
    simp only [getMock, hf.mockRegistry]

theorem mockStep_find (hi : Inv w) (k : Kind) (T : Interface) (n : NodeRef) (name : Name)
    (node : Node) (hn : w.nodes.get? n = some node) :
    MockStep w (find k T node.controlBlock name w).2 (.find k T n name) := by
  have hf := lookup_frame k node.controlBlock (findName k name) w
  rcases find_cases k T node.controlBlock name w with
    h | h | ⟨e, obj, hk, -, hres, hobj, hfree, hT, h⟩
  · rw [h]
    exact .still_refl
  · rw [h]
    exact .still_of_frame hf
  · rw [h]
    have hmockable : mockable k = true := by simpa [mockable] using hk
    obtain ⟨hent, hmocks, htable, hresets⟩ := makeMock_of_frame hf k T e obj
    exact .made k T n name rfl node hn hmockable e hres obj hobj (resolve_kind hi hres hobj) hfree
      hT hent hmocks htable hresets

theorem sameTable_createEntity (k : Kind) (T : Interface) (this : Addr) (n : NodeRef) (node : Node)
    (name : Name) (w : World) : SameTable w (w.createEntity k T this n node name) := by
  simp only [createEntity]
  split
  · exact ⟨rfl, rfl, rfl⟩
  · exact ⟨rfl, (postInitSetup_frame ..).mockRegistry, rfl⟩

theorem mockStep_destroyEntity (e : EntityRef) : MockStep w (w.destroyEntity e) op := by
  simp only [destroyEntity]
  split
  · exact .still_refl
  · refine .still ⟨rfl, ?_, rfl⟩ (ObjectStore.next_free ..) ?_
    · simp only [removeLazyInit]
      split <;> rfl
    · intro e' obj' hobj'
      have hobj' : (w.entities.free e).get? e' = some obj' := hobj'
      exact ⟨obj', ObjectStore.get?_of_free hobj', rfl, rfl, rfl⟩

theorem mockStep_releaseMock (m : MockRef) : MockStep w (w.releaseMock m) (.releaseMock m) := by
  simp only [releaseMock]
  split
  · exact .still_refl
  · next mock hmock =>
    exact .released m rfl mock hmock rfl rfl (fun a => getMock_detachMock ..) rfl

/-- **What an operation can do to the mock table.** -/
theorem mockStep_of_step (hi : Inv w) (hs : w.step op = some w') : MockStep w w' op := by
  obtain ⟨-, rfl⟩ := step_eq_some_iff.mp hs
  cases op with
  | createNode node => exact .still ⟨rfl, rfl, rfl⟩ rfl (.of_eq rfl)
  | destroyNode n => exact .still ⟨rfl, rfl, rfl⟩ rfl (.of_eq rfl)
  | createEntity k T this n name =>
    simp only [act]
    split
    · next node hn =>
      exact .born (sameTable_createEntity k T this n node name w) k T this n name rfl _
        ⟨rfl, rfl, rfl⟩ (entities_createEntity ..)
    · exact .still_refl
  | share e =>
    refine .still ⟨rfl, rfl, rfl⟩ (ObjectStore.next_modify ..) ?_
    intro e' obj' hobj'
    have hobj' : (w.entities.modify e fun obj => { obj with shared := true }).get? e' =
      some obj' := hobj'
    obtain ⟨obj, hobj, rfl | ⟨-, rfl⟩⟩ := ObjectStore.get?_of_modify hobj' <;>
      exact ⟨_, hobj, rfl, rfl, rfl⟩
  | destroyEntity e => exact mockStep_destroyEntity e
  | createTimer n =>
    simp only [act]
    split
    · exact .still ⟨rfl, rfl, rfl⟩ rfl (.of_eq rfl)
    · exact .still_refl
  | destroyTimer t => exact .still ⟨rfl, rfl, rfl⟩ rfl (.of_eq rfl)
  | lookup k n name =>
    simp only [act]
    split
    · exact .still_of_frame (lookup_frame ..)
    · exact .still_refl
  | find k T n name =>
    simp only [act]
    split
    · next node hn => exact mockStep_find hi k T n name node hn
    · exact .still_refl
  | releaseMock m => exact mockStep_releaseMock m
  | call e => exact .still_refl
  | reset => exact .reset rfl rfl rfl (fun _ => rfl) rfl

/-- Mocks name entities that have been born and address the ones they were made for; the table
names mocks that address the key they stand under. -/
structure MockInv (w : World) : Prop where
  born : ∀ m mock, w.mocks.get? m = some mock → mock.createdFor < w.entities.next
  target : ∀ m mock obj, w.mocks.get? m = some mock →
    w.entities.get? mock.createdFor = some obj → obj.this = mock.target ∧ obj.kind = mock.kind
  tableBorn : ∀ a m, w.registry.getMock a = some m → m < w.mocks.next
  table : ∀ a m mock, w.registry.getMock a = some m → w.mocks.get? m = some mock → mock.target = a
  round : ∀ m mock, w.mocks.get? m = some mock → mock.round ≤ w.history.resets
  kind : ∀ m mock, w.mocks.get? m = some mock → mockable mock.kind = true

theorem mockInv_init : MockInv init where
  born := by intro m mock h; cases h
  target := by intro m mock obj h; cases h
  tableBorn := by intro a m h; cases h
  table := by intro a m mock h; cases h
  round := by intro m mock h; cases h
  kind := by intro m mock h; cases h

/-- The invariant survives when mocks and table entries only go, and entities stay what they
were. -/
theorem MockInv.of_fewer (hm : MockInv w)
    (hmocks : ∀ m mock, w'.mocks.get? m = some mock → w.mocks.get? m = some mock)
    (hmocksNext : w.mocks.next ≤ w'.mocks.next)
    (htable : ∀ a m, w'.registry.getMock a = some m → w.registry.getMock a = some m)
    (hresets : w.history.resets ≤ w'.history.resets)
    (hnext : w.entities.next ≤ w'.entities.next)
    (hent : ∀ e < w.entities.next, ∀ obj', w'.entities.get? e = some obj' →
      ∃ obj, w.entities.get? e = some obj ∧ obj'.kind = obj.kind ∧ obj'.this = obj.this) :
    MockInv w' where
  born := fun m mock h => Nat.lt_of_lt_of_le (hm.born m mock (hmocks m mock h)) hnext
  target := by
    intro m mock obj' h hobj'
    obtain ⟨obj, hobj, hkind, hthis⟩ := hent _ (hm.born m mock (hmocks m mock h)) obj' hobj'
    rw [hkind, hthis]
    exact hm.target m mock obj (hmocks m mock h) hobj
  tableBorn := fun a m h => Nat.lt_of_lt_of_le (hm.tableBorn a m (htable a m h)) hmocksNext
  table := fun a m mock h hget => hm.table a m mock (htable a m h) (hmocks m mock hget)
  round := fun m mock h => Nat.le_trans (hm.round m mock (hmocks m mock h)) hresets
  kind := fun m mock h => hm.kind m mock (hmocks m mock h)

/-- A new mock is made for the entity it was found through, and stands at that entity's address. -/
theorem MockInv.made (hm : MockInv w) {k : Kind} {T : Interface} {e : EntityRef} {obj : Entity}
    (hk : mockable k = true) (hobj : w.entities.get? e = some obj) (hkind : obj.kind = k)
    (entities : w'.entities = w.entities)
    (mocks : w'.mocks = w.mocks.alloc ⟨k, T, obj.this, e, w.history.resets⟩)
    (table : ∀ a, w'.registry.getMock a =
      if a = obj.this then some w.mocks.next else w.registry.getMock a)
    (resets : w'.history.resets = w.history.resets) : MockInv w' := by
  have hmock : ∀ m mock, w'.mocks.get? m = some mock →
      (m = w.mocks.next ∧ mock = ⟨k, T, obj.this, e, w.history.resets⟩) ∨
        w.mocks.get? m = some mock := by
    intro m mock h
    rw [mocks, ObjectStore.get?_alloc] at h
    split at h
    · next heq => exact Or.inl ⟨heq, (Option.some.inj h).symm⟩
    · exact Or.inr h
  constructor
  · intro m mock h
    rw [entities]
    obtain ⟨-, rfl⟩ | h := hmock m mock h
    · exact ObjectStore.lt_next_of_get? hobj
    · exact hm.born m mock h
  · intro m mock obj' h hobj'
    rw [entities] at hobj'
    obtain ⟨-, rfl⟩ | h := hmock m mock h
    · have hobj' : w.entities.get? e = some obj' := hobj'
      rw [hobj] at hobj'
      cases hobj'
      exact ⟨rfl, hkind⟩
    · exact hm.target m mock obj' h hobj'
  · intro a m h
    rw [mocks, ObjectStore.next_alloc]
    rw [table] at h
    split at h
    · rw [← Option.some.inj h]
      exact Nat.lt_succ_self _
    · exact Nat.lt_succ_of_lt (hm.tableBorn a m h)
  · intro a m mock h hget
    rw [table] at h
    obtain ⟨heq, rfl⟩ | hget := hmock m mock hget
    · split at h
      · next ha => exact ha.symm
      · exact absurd (hm.tableBorn a m h) (by rw [heq]; exact Nat.lt_irrefl _)
    · split at h
      · rw [← Option.some.inj h] at hget
        exact absurd (ObjectStore.lt_next_of_get? hget) (Nat.lt_irrefl _)
      · exact hm.table a m mock h hget
  · intro m mock h
    rw [resets]
    obtain ⟨-, rfl⟩ | h := hmock m mock h
    · exact Nat.le_refl _
    · exact hm.round m mock h
  · intro m mock h
    obtain ⟨-, rfl⟩ | h := hmock m mock h
    · exact hk
    · exact hm.kind m mock h

theorem MockInv.step (hm : MockInv w) (h : MockStep w w' op) : MockInv w' := by
  have hsame : ∀ {u : World}, SameTable w u →
      (∀ m mock, u.mocks.get? m = some mock → w.mocks.get? m = some mock) ∧
      w.mocks.next ≤ u.mocks.next ∧
      (∀ a m, u.registry.getMock a = some m → w.registry.getMock a = some m) ∧
      w.history.resets ≤ u.history.resets := by
    intro u hu
    refine ⟨fun m mock h => ?_, Nat.le_of_eq (by rw [hu.mocks]), fun a m h => ?_,
      Nat.le_of_eq hu.resets.symm⟩
    · rwa [hu.mocks] at h
    · rwa [hu.getMock] at h
  cases h with
  | still table next entities =>
    obtain ⟨hmocks, hmocksNext, htable, hresets⟩ := hsame table
    refine hm.of_fewer hmocks hmocksNext htable hresets (Nat.le_of_eq next.symm) ?_
    intro e _ obj' hobj'
    obtain ⟨obj, hobj, hkind, -, hthis⟩ := entities e obj' hobj'
    exact ⟨obj, hobj, hkind, hthis⟩
  | born table k T this n name hop obj hkind entities =>
    obtain ⟨hmocks, hmocksNext, htable, hresets⟩ := hsame table
    refine hm.of_fewer hmocks hmocksNext htable hresets ?_ ?_
    · rw [entities, ObjectStore.next_alloc]
      exact Nat.le_succ _
    · intro e he obj' hobj'
      rw [entities, ObjectStore.get?_alloc, if_neg (Nat.ne_of_lt he)] at hobj'
      exact ⟨obj', hobj', rfl, rfl⟩
  | made k T n name hop node hn hk e hres obj hobj hkind hfree hT entities mocks table resets =>
    exact hm.made hk hobj hkind entities mocks table resets
  | released m₀ hop mock₀ hmock₀ entities mocks table resets =>
    refine hm.of_fewer (fun m mock h => ?_) (by rw [mocks, ObjectStore.next_free])
      (fun a m h => ?_) (Nat.le_of_eq resets.symm) (Nat.le_of_eq (by rw [entities]))
      (fun e _ obj' hobj' => ⟨obj', by rwa [← entities], rfl, rfl⟩)
    · rw [mocks] at h
      exact ObjectStore.get?_of_free h
    · rw [table] at h
      split at h
      · cases h
      · exact h
  | reset hop entities mocks table resets =>
    refine hm.of_fewer (fun m mock h => by rwa [← mocks]) (Nat.le_of_eq (by rw [mocks]))
      (fun a m h => ?_) (by rw [resets]; exact Nat.le_succ _) (Nat.le_of_eq (by rw [entities]))
      (fun e _ obj' hobj' => ⟨obj', by rwa [← entities], rfl, rfl⟩)
    rw [table] at h
    cases h

theorem mockInv_step (w : World) (op : Op) (w' : World) (h : Inv w ∧ MockInv w)
    (hs : w.step op = some w') : Inv w' ∧ MockInv w' :=
  ⟨inv_step w op w' h.1 hs, h.2.step (mockStep_of_step h.1 hs)⟩

theorem attachedMock_eq_some_iff {a : Addr} {m : MockRef} :
    w.attachedMock a = some m ↔
      w.registry.getMock a = some m ∧ ∃ mock, w.mocks.get? m = some mock := by
  rw [attachedMock, ObjectStore.lock_eq_some_iff, ObjectStore.alive_iff]

theorem receiver_eq_some_iff {e : EntityRef} {m : MockRef} :
    w.receiver e = some m ↔ ∃ obj, w.entities.get? e = some obj ∧ mockable obj.kind = true ∧
      w.attachedMock obj.this = some m := by
  simp only [receiver, Option.bind_eq_some_iff]
  constructor
  · rintro ⟨obj, hobj, h⟩
    split at h
    · next hk => exact ⟨obj, hobj, hk, h⟩
    · cases h
  · rintro ⟨obj, hobj, hk, h⟩
    exact ⟨obj, hobj, by rw [if_pos hk, h]⟩

/-- A new mock changes what is attached at its own address only. -/
theorem attachedMock_made (hm : MockInv w) {mock : Mock} {a : Addr}
    (mocks : w'.mocks = w.mocks.alloc mock)
    (table : ∀ b, w'.registry.getMock b =
      if b = a then some w.mocks.next else w.registry.getMock b) (b : Addr) :
    w'.attachedMock b = if b = a then some w.mocks.next else w.attachedMock b := by
  rw [attachedMock, table, mocks]
  by_cases hb : b = a
  · rw [if_pos hb, if_pos hb]
    exact ObjectStore.lock_eq_some_iff.mpr ⟨rfl, by simp⟩
  · rw [if_neg hb, if_neg hb, attachedMock]
    cases hget : w.registry.getMock b with
    | none => rfl
    | some m =>
      have hne : m ≠ w.mocks.next := Nat.ne_of_lt (hm.tableBorn b m hget)
      simp [ObjectStore.lock, Option.filter, hne]

/-- The death of a mock detaches whatever stands at its target. -/
theorem attachedMock_released (hm : MockInv w) {m : MockRef} {mock : Mock}
    (hmock : w.mocks.get? m = some mock) (mocks : w'.mocks = w.mocks.free m)
    (table : ∀ b, w'.registry.getMock b =
      if b = mock.target then none else w.registry.getMock b) (b : Addr) :
    w'.attachedMock b = if b = mock.target then none else w.attachedMock b := by
  rw [attachedMock, table, mocks]
  by_cases hb : b = mock.target
  · rw [if_pos hb, if_pos hb]
    rfl
  · rw [if_neg hb, if_neg hb, attachedMock]
    cases hget : w.registry.getMock b with
    | none => rfl
    | some m' =>
      have hne : m' ≠ m := by
        rintro rfl
        exact hb (hm.table b m' mock hget hmock).symm
      simp [ObjectStore.lock, Option.filter, hne]

/-- A mock made for `e'` receives the calls on `e` just if it is the same entity. -/
theorem receiver_makeMock_iff (hi : Inv w) (hm : MockInv w) (hf : Frame w w')
    (k : Kind) (T : Interface) {e e' : EntityRef} {obj obj' : Entity}
    (he : w.entities.get? e = some obj)
    (he' : w.entities.get? e' = some obj') (hk : mockable obj'.kind = true) :
    (makeMock k T e' obj' w').2.receiver e = some w.mocks.next ↔ e' = e := by
  obtain ⟨hent, hmocks, htable, -⟩ := makeMock_of_frame hf k T e' obj'
  have hatt := attachedMock_made hm hmocks htable
  rw [receiver_eq_some_iff]
  constructor
  · rintro ⟨obj₁, hobj₁, -, hmock⟩
    rw [hent, he] at hobj₁
    cases hobj₁
    rw [hatt] at hmock
    split at hmock
    · next hthis => exact hi.addresses e' e obj' obj he' he hthis.symm
    · exact absurd (hm.tableBorn _ _ (attachedMock_eq_some_iff.mp hmock).1) (Nat.lt_irrefl _)
  · rintro rfl
    refine ⟨obj', by rw [hent, he'], hk, ?_⟩
    rw [hatt, if_pos rfl]

section AttachedAll

/-! A relation `R` between a living mockable entity, with its kind and interface, and the mock
attached at its address. -/

variable (R : EntityRef → Kind → Interface → Mock → Prop)

/-- Every mock attached at the address of a living mockable entity is related to it. -/
def AttachedAll (w : World) : Prop :=
  ∀ e obj, w.entities.get? e = some obj → mockable obj.kind = true → ∀ m mock,
    w.attachedMock obj.this = some m → w.mocks.get? m = some mock → R e obj.kind obj.interface mock

/-- Every call on a living entity is delivered to a mock related to the entity. -/
def DeliversTo (w : World) : Prop :=
  ∀ e obj m, w.entities.get? e = some obj → w.receiver e = some m →
    ∃ mock, w.mocks.get? m = some mock ∧ R e obj.kind obj.interface mock

/-- A `find*` call whose function does not check the type asks for the entity's own type, or meets
a live mock. -/
def AsksOwnType (w : World) (k : Kind) (T : Interface) (n : NodeRef) (name : Name) : Prop :=
  unchecked k = true → ∀ node e obj, w.nodes.get? n = some node →
    resolve k node.controlBlock (findName k name) w = some e → w.entities.get? e = some obj →
    obj.interface = T ∨ (w.attachedMock obj.this).isSome = true

/-- A new entity is related to the mock it finds at its address, and no mock of a wrong type is
made. -/
def MeetsRelated (w : World) : Op → Prop
  | .createEntity k T this _ _ => mockable k = true → ∀ m mock, w.attachedMock this = some m →
      w.mocks.get? m = some mock → R w.entities.next k T mock
  | .find k T n name => AsksOwnType w k T n name
  | _ => True

variable {R}

theorem deliversTo_iff : DeliversTo R w ↔ AttachedAll R w := by
  constructor
  · intro h e obj hobj hk m mock hatt hmock
    obtain ⟨mock', hmock', hR⟩ := h e obj m hobj (receiver_eq_some_iff.mpr ⟨obj, hobj, hk, hatt⟩)
    rw [hmock] at hmock'
    cases hmock'
    exact hR
  · intro h e obj m hobj hrec
    obtain ⟨obj', hobj', hk, hatt⟩ := receiver_eq_some_iff.mp hrec
    rw [hobj] at hobj'
    cases hobj'
    obtain ⟨-, mock, hmock⟩ := attachedMock_eq_some_iff.mp hatt
    exact ⟨mock, hmock, h e obj hobj hk m mock hatt hmock⟩

theorem attachedAll_init : AttachedAll R init := by
  intro e obj h
  cases h

theorem AttachedAll.step (hi : Inv w) (hm : MockInv w)
    (hmade : ∀ e k T a round, R e k T ⟨k, T, a, e, round⟩)
    (h : AttachedAll R w) (hc : MeetsRelated R w op) (hs : w.step op = some w') :
    AttachedAll R w' := by
  intro e obj' hobj' hk' m mock hatt hmock
  cases mockStep_of_step hi hs with
  | still table next entities =>
    obtain ⟨obj, hobj, hkind, hT, hthis⟩ := entities e obj' hobj'
    rw [hthis, table.attachedMock] at hatt
    rw [table.mocks] at hmock
    rw [hkind] at hk'
    rw [hkind, hT]
    exact h e obj hobj hk' m mock hatt hmock
  | born table k T this n name hop obj hkind entities =>
    rw [table.attachedMock] at hatt
    rw [table.mocks] at hmock
    rw [entities, ObjectStore.get?_alloc] at hobj'
    split at hobj'
    · next heq =>
      cases hobj'
      subst hop
      obtain ⟨rfl, rfl, rfl⟩ := hkind
      rw [heq]
      exact hc hk' m mock hatt hmock
    · exact h e obj' hobj' hk' m mock hatt hmock
  | made k T n name hop node hn hk e₀ hres obj hobj hkind hfree hT entities mocks table resets =>
    rw [attachedMock_made hm mocks table] at hatt
    rw [entities] at hobj'
    rw [mocks, ObjectStore.get?_alloc] at hmock
    split at hatt
    · -- the address is that of the entity the mock was made for
      next ha =>
      have heq := hi.addresses e e₀ obj' obj hobj' hobj ha
      rw [heq, hobj] at hobj'
      cases hobj'
      cases hatt
      rw [if_pos rfl] at hmock
      cases hmock
      have hT : obj'.interface = T := by
        rcases hT with hT | hu
        · exact hT
        · subst hop
          rcases hc hu node e₀ obj' hn hres hobj with hT | hsome
          · exact hT
          · rw [hfree] at hsome
            cases hsome
      rw [heq, hT, hkind]
      exact hmade e₀ k T obj'.this w.history.resets
    · obtain ⟨hget, -⟩ := attachedMock_eq_some_iff.mp hatt
      rw [if_neg (Nat.ne_of_lt (hm.tableBorn _ m hget))] at hmock
      exact h e obj' hobj' hk' m mock hatt hmock
  | released m₀ hop mock₀ hmock₀ entities mocks table resets =>
    rw [attachedMock_released hm hmock₀ mocks table] at hatt
    rw [entities] at hobj'
    rw [mocks, ObjectStore.get?_free] at hmock
    split at hatt
    · cases hatt
    · split at hmock
      · cases hmock
      · exact h e obj' hobj' hk' m mock hatt hmock
  | reset hop entities mocks table resets =>
    obtain ⟨hget, -⟩ := attachedMock_eq_some_iff.mp hatt
    rw [table] at hget
    cases hget

/-- A step that breaks the condition leaves an entity with a mock it is not related to. -/
theorem MeetsRelated.of_attachedAll (hi : Inv w)
    (hsound : ∀ e k T mock, R e k T mock → mock.interface = T)
    (hs : w.step op = some w') (h : AttachedAll R w') : MeetsRelated R w op := by
  obtain ⟨hen, rfl⟩ := step_eq_some_iff.mp hs
  cases op with
  | createEntity k T this n name =>
    intro hk m mock hatt hmock
    simp only [enabled, Bool.and_eq_true] at hen
    obtain ⟨node, hn⟩ := ObjectStore.alive_iff.mp hen.1
    have hw' : w.act (.createEntity k T this n name) = w.createEntity k T this n node name := by
      simp only [act, hn]
    rw [hw'] at h
    have htable := sameTable_createEntity k T this n node name w
    have hnew : (w.createEntity k T this n node name).entities.get? w.entities.next =
        some ⟨k, T, this, n, node.controlBlock, name, !k.isAction⟩ := by
      rw [entities_createEntity, ObjectStore.get?_alloc_next]
    refine h _ _ hnew hk m mock ?_ ?_
    · rw [htable.attachedMock, hatt]
    · rw [htable.mocks, hmock]
  | find k T n name =>
    intro hu node e obj hn hres hobj
    by_contra hno
    simp only [not_or, Bool.not_eq_true, Option.isSome_eq_false_iff, Option.isNone_iff_eq_none]
      at hno
    obtain ⟨hT, hfree⟩ := hno
    have hk : k ≠ .subscription := by
      rintro rfl
      cases hu
    have hname : rejectsEmpty k = true → name ≠ [] := by
      cases k <;> simp_all [unchecked, rejectsEmpty]
    have hmakes : w.act (.find k T n name) =
        (makeMock k T e obj (lookup k node.controlBlock (findName k name) w).2).2 := by
      simp only [act, hn]
      rw [find_makes hname hk hres hobj hfree (Or.inr hu)]
    obtain ⟨hent, hmocks, htable, -⟩ :=
      makeMock_of_frame (lookup_frame k node.controlBlock (findName k name) w) k T e obj
    rw [← hmakes] at hent hmocks htable
    have hmock : (w.act (.find k T n name)).mocks.get? w.mocks.next =
        some ⟨k, T, obj.this, e, w.history.resets⟩ := by
      rw [hmocks, ObjectStore.get?_alloc_next]
    have hatt : (w.act (.find k T n name)).attachedMock obj.this = some w.mocks.next := by
      rw [attachedMock_eq_some_iff, htable, if_pos rfl]
      exact ⟨rfl, _, hmock⟩
    have hkind : mockable obj.kind = true := by
      rw [resolve_kind hi hres hobj]
      simpa [mockable] using hk
    have hrel := h e obj (by rw [hent, hobj]) hkind w.mocks.next _ hatt hmock
    exact hT (hsound _ _ _ _ hrel).symm
  | _ => trivial

end AttachedAll

end Rtest.World
