import Rtest.Calls.Traffic

/-!
# Fixtures

The tests of the repository keep a mock no longer than the node whose entity it stands for, and the
registry is reset when no test runs. Under this discipline addresses are as good as identities: the
mock table says of every entity which mock was made for it.

## Main definitions

- `World.Orderly` — the operation keeps the discipline
- `World.Connected` — every living mock is attached to the living entity it was made for
- `World.OneToOne` — what the table then says
-/

namespace Rtest.World

open StaticMocksRegistry

variable {w w' : World} {op : Op}

/-- No entity dies before a mock made for it, no mock lives through a reset, and clients are looked
up under their own type. -/
def Orderly (w : World) : Op → Prop
  | .destroyEntity e => ∀ m mock, w.mocks.get? m = some mock → mock.createdFor ≠ e
  | .reset => ∀ m, w.mocks.get? m = none
  | .find k T n name => AsksOwnType w k T n name
  | _ => True

/-- Every living mock is attached to the entity it was made for, which lives. -/
def Connected (w : World) : Prop :=
  ∀ m mock, w.mocks.get? m = some mock →
    w.entities.alive mock.createdFor = true ∧ w.attachedMock mock.target = some m

/-- A call on an entity is received by a mock just if the mock lives and was made for it. -/
def OneToOne (w : World) : Prop :=
  ∀ e m, w.receiver e = some m ↔ ∃ mock, w.mocks.get? m = some mock ∧ mock.createdFor = e

theorem connected_init : Connected init := by
  intro m mock h
  cases h

/-- Only its destructor ends an entity. -/
theorem alive_step {e : EntityRef} (he : w.entities.alive e = true) (hop : op ≠ .destroyEntity e)
    (hs : w.step op = some w') : w'.entities.alive e = true := by
  obtain ⟨hen, rfl⟩ := step_eq_some_iff.mp hs
  cases op with
  | createNode | destroyNode | destroyTimer | call | reset => exact he
  | createEntity k T this n name =>
    simp only [act]
    split
    · rw [entities_createEntity, ObjectStore.alive_alloc, he, Bool.or_true]
    · exact he
  | share e₀ => exact (ObjectStore.alive_modify ..).trans he
  | destroyEntity e₀ =>
    obtain ⟨obj, hobj⟩ := ObjectStore.alive_iff.mp he
    have hne : e ≠ e₀ := fun h => hop (by rw [h])
    refine ObjectStore.alive_iff.mpr ⟨obj, ?_⟩
    simp only [act, destroyEntity]
    split
    · exact hobj
    · rw [ObjectStore.get?_free, if_neg hne, hobj]
  | createTimer n =>
    simp only [act]
    split <;> exact he
  | lookup k n name =>
    simp only [act]
    split
    · rw [(lookup_frame ..).entities, he]
    · exact he
  | find k T n name =>
    simp only [act]
    split
    · next node _ =>
      have hf := lookup_frame k node.controlBlock (findName k name) w
      obtain h | h | ⟨e₁, obj, -, -, -, -, -, -, h⟩ := find_cases k T node.controlBlock name w
      · rw [h, he]
      · rw [h, hf.entities, he]
      · rw [h, (makeMock_of_frame hf k T e₁ obj).1, he]
    · exact he
  | releaseMock m =>
    simp only [act, releaseMock]
    split <;> exact he

theorem Connected.step (hi : Inv w) (hm : MockInv w) (h : Connected w) (hc : Orderly w op)
    (hs : w.step op = some w') : Connected w' := by
  -- a mock that lived before belongs to an entity that lives on
  have hlives : ∀ m mock, w.mocks.get? m = some mock →
      w'.entities.alive mock.createdFor = true := by
    intro m mock hmock
    refine alive_step (h m mock hmock).1 ?_ hs
    rintro rfl
    exact hc m mock hmock rfl
  intro m mock hmock'
  cases mockStep_of_step hi hs with
  | still table next entities =>
    rw [table.mocks] at hmock'
    rw [table.attachedMock]
    exact ⟨hlives m mock hmock', (h m mock hmock').2⟩
  | born table k T this n name hop obj hkind entities =>
    rw [table.mocks] at hmock'
    rw [table.attachedMock]
    exact ⟨hlives m mock hmock', (h m mock hmock').2⟩
  | made k T n name hop node hn hk e hres obj hobj hkind hfree hT entities mocks table resets =>
    rw [attachedMock_made hm mocks table]
    rw [mocks, ObjectStore.get?_alloc] at hmock'
    split at hmock'
    · next heq =>
      cases hmock'
      rw [entities, if_pos rfl, heq]
      exact ⟨ObjectStore.alive_of_get? hobj, rfl⟩
    · -- nothing was attached where the new mock stands
      have hatt := (h m mock hmock').2
      rw [if_neg]
      · exact ⟨hlives m mock hmock', hatt⟩
      · intro heq
        rw [heq, hfree] at hatt
        cases hatt
  | released m₀ hop mock₀ hmock₀ entities mocks table resets =>
    rw [attachedMock_released hm hmock₀ mocks table]
    rw [mocks, ObjectStore.get?_free] at hmock'
    split at hmock'
    · cases hmock'
    · next hne =>
      have hatt := (h m mock hmock').2
      rw [if_neg]
      · exact ⟨hlives m mock hmock', hatt⟩
      · intro heq
        rw [heq, (h m₀ mock₀ hmock₀).2] at hatt
        exact hne (Option.some.inj hatt).symm
  | reset hop entities mocks table resets =>
    subst hop
    rw [mocks, hc m] at hmock'
    cases hmock'

/-- Under the discipline nothing dead is mistaken for something living. -/
theorem Connected.meets (hm : MockInv w) (h : Connected w) (hc : Orderly w op)
    (hen : w.enabled op = true) : Meets w op := by
  constructor
  · cases op with
    | createEntity k T this n name =>
      intro _
      cases hatt : w.attachedMock this with
      | none => rfl
      | some m =>
        -- the mock's entity lives at the address of the new one
        obtain ⟨hget, mock, hmock⟩ := attachedMock_eq_some_iff.mp hatt
        obtain ⟨obj, hobj⟩ := ObjectStore.alive_iff.mp (h m mock hmock).1
        have hthis := (hm.target m mock obj hmock hobj).1
        rw [hm.table this m mock hget hmock] at hthis
        simp only [enabled, Bool.and_eq_true] at hen
        have hfree := ObjectStore.all_iff.mp hen.2 _ obj hobj
        simp [hthis] at hfree
    | find k T n name => exact hc
    | _ => trivial
  · cases op with
    | releaseMock m =>
      rintro mock m' mock' obj hmock hne ⟨hmock', -, -⟩ heq
      have hatt := (h m' mock' hmock').2
      rw [heq, (h m mock hmock).2] at hatt
      exact hne (Option.some.inj hatt).symm
    | _ => trivial

theorem Connected.oneToOne (ht : Tidy w) (h : Connected w) : OneToOne w := by
  intro e m
  constructor
  · intro hrec
    obtain ⟨obj, hobj, hk, hatt⟩ := receiver_eq_some_iff.mp hrec
    obtain ⟨-, mock, hmock⟩ := attachedMock_eq_some_iff.mp hatt
    exact ⟨mock, hmock, (ht.own e obj hobj hk m mock hatt hmock).1⟩
  · rintro ⟨mock, hmock, rfl⟩
    obtain ⟨hlive, hatt⟩ := h m mock hmock
    obtain ⟨obj, hobj⟩ := ObjectStore.alive_iff.mp hlive
    obtain ⟨hthis, hkind⟩ := ht.mockInv.target m mock obj hmock hobj
    rw [receiver_eq_some_iff]
    refine ⟨obj, hobj, ?_, by rw [hthis, hatt]⟩
    rw [hkind]
    exact ht.mockInv.kind m mock hmock

/-- What an orderly run keeps. -/
theorem orderly_step (w : World) (op : Op) (w' : World) (h : Tidy w ∧ Connected w)
    (hc : Orderly w op) (hs : w.step op = some w') : Tidy w' ∧ Connected w' := by
  obtain ⟨ht, hconn⟩ := h
  have hen := (step_eq_some_iff.mp hs).1
  exact ⟨ht.step (hconn.meets ht.mockInv hc hen).1 hs, hconn.step ht.inv ht.mockInv hc hs⟩

/-- **Addresses as good as identities.** All along an orderly run, a call on an entity is received
by a mock exactly when the mock lives and was made for this entity, and the run mistakes nothing
dead for something living. -/
theorem oneToOne_of_orderly {ops : List Op} (h : Runs.EachStep step Orderly init ops)
    (hrun : (Runs.run step init ops).isSome = true) :
    Runs.Always step OneToOne init ops ∧ Runs.EachStep step Meets init ops := by
  have halways := Runs.always_of_eachStep (P := fun w => Tidy w ∧ Connected w)
    (fun w op w' h hc hs => orderly_step w op w' h hc hs) ⟨tidy_init, connected_init⟩ h
  refine ⟨halways.mono fun w hw => hw.2.oneToOne hw.1, fun pre op w hpre hw => ?_⟩
  obtain ⟨ht, hconn⟩ := halways pre w ((List.prefix_append pre [op]).trans hpre) hw
  obtain ⟨last, hlast⟩ := Option.isSome_iff_exists.mp hrun
  obtain ⟨w', hs⟩ := Runs.eachStep_taken hlast pre op w hpre hw
  exact hconn.meets ht.mockInv (h pre op w hpre hw) (step_eq_some_iff.mp hs).1

/-- A publisher at the address of an earlier one, found once the mock of that one is gone. -/
def reuseInOrder : List Op :=
  [.createNode ⟨1, 100, "/".toList, "node".toList⟩,
    .createEntity .publisher 7 10 0 "/topic".toList,
    .find .publisher 7 0 "/topic".toList,
    .releaseMock 0,
    .destroyEntity 0,
    .reset,
    .createEntity .publisher 8 10 0 "/other".toList,
    .find .publisher 8 0 "/other".toList]

theorem orderly_reuseInOrder : Runs.EachStep step Orderly init reuseInOrder := by
  rw [Runs.eachStep_iff_getElem]
  intro i op w hop hw
  -- no mock lives when the publisher dies, nor at the reset
  have hnone : ∀ {w : World}, w.mocks.births = [none] → ∀ m, w.mocks.get? m = none := by
    intro w hbirths m
    rw [ObjectStore.get?, hbirths]
    cases m <;> rfl
  have hbirths := congrArg (Option.map fun w => w.mocks.births) hw
  unfold reuseInOrder at hop hbirths
  obtain _ | _ | _ | _ | _ | _ | _ | _ | i := i
  · cases hop; trivial
  · cases hop; trivial
  · cases hop; intro hu; cases hu
  · cases hop; trivial
  · cases hop
    intro m mock hmock
    rw [hnone (Option.some.inj hbirths).symm m] at hmock
    cases hmock
  · cases hop; exact hnone (Option.some.inj hbirths).symm
  · cases hop; trivial
  · cases hop; intro hu; cases hu
  · cases hop

theorem oneToOne_reuseInOrder :
    Runs.Always step OneToOne init reuseInOrder ∧ Runs.EachStep step Meets init reuseInOrder :=
  oneToOne_of_orderly orderly_reuseInOrder (by decide)

end Rtest.World
