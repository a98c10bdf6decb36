import Rtest.Registry.MockTable

/-!
# What a `find*` call finds

A `find*` call with the type of a living entity finds that entity just when its lookup resolves to
it, and that is when the registry holds the entity under the key the call asks for.

## Main definitions

- `World.Finds` — a `find*` call hands out the entity, or a mock for it
- `World.HoldsSlot` — the entity is what the registry holds under its own name
-/

namespace Rtest.World

open StaticMocksRegistry

variable {w : World} {k : Kind}

/-- The `find*` call hands out the entity itself or a fresh mock for it, or finds it mocked. -/
def Finds (k : Kind) (T : Interface) (node : NodeId) (name : Name) (e : EntityRef) (w : World) :
    Prop :=
  match (find k T node name w).1 with
  | .mock m => (find k T node name w).2.receiver e = some m
  | .subscription e' => e' = e
  | .alreadyAttached => resolve k node (findName k name) w = some e
  | _ => False

/-- The registry holds the entity under its own name, once the pending entities of its kind are
served. -/
def HoldsSlot (w : World) (e : EntityRef) (obj : Entity) : Prop :=
  let w := if obj.kind.isAction then tryLazyInit obj.kind w else w
  w.registry.slot obj.kind obj.nodeId (registerName obj.kind obj.name) = some e

/-- Only `findSubscription` hands out the entity itself. -/
theorem find_ne_subscription {T : Interface} {id : NodeId} {name : Name} {e : EntityRef}
    (hk : k ≠ .subscription) (hname : rejectsEmpty k = true → name ≠ []) :
    (find k T id name w).1 ≠ .subscription e := by
  rw [find_eq_findMock hk hname]
  cases hres : resolve k id (findName k name) w with
  | none =>
    rw [findMock_of_unresolved _ hres]
    simp
  | some e' =>
    obtain ⟨-, obj, hobj⟩ := resolve_eq_some hres
    rw [findMock_of_resolve _ hres hobj]
    split
    · simp
    · split
      · simp
      · cases typeCheck k T with
        | throwing error =>
          simp only
          split <;> simp [makeMock]
        | castFirst | unchecked => simp [makeMock]

/-- A `find*` call with the type of a living entity finds it just if its name resolves to it. -/
theorem finds_iff (hi : Inv w) (hm : MockInv w) {e : EntityRef} {obj : Entity}
    (he : w.entities.get? e = some obj) {id : NodeId} {name : Name}
    (hname : rejectsEmpty k = true → name ≠ []) :
    Finds k obj.interface id name e w ↔ resolve k id (findName k name) w = some e := by
  by_cases hk : k = .subscription
  · subst hk
    cases hres : resolve .subscription id (findName .subscription name) w with
    | none => simp [Finds, findSubscription_of_unresolved _ (hname rfl) hres]
    | some e' =>
      obtain ⟨-, obj', he'⟩ := resolve_eq_some hres
      rw [Finds, findSubscription_of_resolve _ (hname rfl) hres he']
      by_cases hT : obj'.interface = obj.interface
      · simp [hT]
      · have hother : e' ≠ e := by
          rintro rfl
          rw [he] at he'
          cases he'
          exact hT rfl
        simp [hT, hother]
  · cases hres : resolve k id (findName k name) w with
    | none => simp [Finds, find_eq_findMock hk hname, findMock_of_unresolved _ hres]
    | some e' =>
      obtain ⟨-, obj', he'⟩ := resolve_eq_some hres
      by_cases hT : obj'.interface = obj.interface ∨ unchecked k = true
      · cases hatt : w.attachedMock obj'.this with
        | some m =>
          have hmocked : (find k obj.interface id name w).1 = .alreadyAttached := by
            rw [find_eq_findMock hk hname, findMock_of_resolve _ hres he', hatt]
            rcases hT with hT | hT
            · simp [hT]
            · cases k <;> simp_all [unchecked, typeCheck]
          simp only [Finds, hmocked, hres]
        | none =>
          have hmakes := find_makes hname hk hres he' hatt hT
          have hf := lookup_frame k id (findName k name) w
          have hmockable : mockable obj'.kind = true := by
            rw [resolve_kind hi hres he']
            simpa [mockable] using hk
          have hmade : (find k obj.interface id name w).1 = .mock w.mocks.next := by
            rw [hmakes]
            simp only [makeMock, hf.mocks]
          have hrec := receiver_makeMock_iff hi hm hf k obj.interface he he' hmockable
          simp only [Finds, hmade]
          rw [hmakes, hrec, Option.some_inj]
      · -- the type is checked and differs, so the entity is another one
        obtain ⟨hdiff, hcheck⟩ := not_or.mp hT
        have hother : e' ≠ e := by
          rintro rfl
          rw [he] at he'
          cases he'
          exact hdiff rfl
        obtain ⟨o, ho, hfind⟩ := find_refused hname hk hres he'
          (Or.inr ⟨hdiff, by simpa using hcheck⟩)
        rw [Finds, hfind, hres]
        cases o with
        | mock | subscription => cases ho
        | alreadyAttached | notFound | threw => simp [hother]

/-- What a lookup under a living node's handle resolves to holds the slot of its own name, which
is the key it was looked up under. -/
theorem resolve_iff_holdsSlot (hi : Inv w) {node : Node} {e : EntityRef} {obj : Entity}
    (hnode : w.nodes.get? obj.node = some node) (he : w.entities.get? e = some obj) (name : Name) :
    resolve obj.kind node.controlBlock name w = some e ↔
      HoldsSlot w e obj ∧ name = registerName obj.kind obj.name := by
  -- whatever a lookup finds `e` under is what `e` registered with
  have hkey : ∀ id name, (lookup obj.kind id name w).1 = some e →
      id = node.controlBlock ∧ id = obj.nodeId ∧ name = registerName obj.kind obj.name := by
    intro id name hfound
    rw [lookup_fst] at hfound
    have hf := lookup_frame obj.kind id name w
    have hi' := inv_lookup hi obj.kind id name
    obtain ⟨n, hn⟩ := hi'.recorded _ _ _ _ hfound
    have hfaithful := hi'.faithful _ hn obj (by rw [hf.entities, he])
    simp only [registrationOf, Registration.mk.injEq, true_and, and_true] at hfaithful
    obtain ⟨rfl, hid, hname⟩ := hfaithful
    have hown := ((hi'.owned _ hn).2 obj.node node (by rw [hf.nodes, hnode])).mpr rfl
    exact ⟨hown.symm, hid, hname⟩
  have hlive : ∀ id name, resolve obj.kind id name w = some e ↔
      (lookup obj.kind id name w).1 = some e := by
    intro id name
    have hf := lookup_frame obj.kind id name w
    rw [resolve, hf.entities, ObjectStore.lock_eq_some_iff]
    exact ⟨fun h => h.1, fun h => ⟨h, ObjectStore.alive_of_get? he⟩⟩
  have hholds : HoldsSlot w e obj ↔
      (lookup obj.kind obj.nodeId (registerName obj.kind obj.name) w).1 = some e := by
    rw [HoldsSlot, lookup, getFor_eq, getUnder_fst]
  rw [hlive, hholds]
  constructor
  · intro hfound
    obtain ⟨-, hid, rfl⟩ := hkey _ _ hfound
    rw [hid] at hfound
    exact ⟨hfound, rfl⟩
  · rintro ⟨hholds, rfl⟩
    obtain ⟨hid, -, -⟩ := hkey _ _ hholds
    rw [hid] at hholds
    exact hholds

end Rtest.World
