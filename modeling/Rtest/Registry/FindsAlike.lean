import Mathlib.Data.List.Nodup
import Rtest.Registry.Ahead

/-!
# Worlds that no `find*` call tells apart

A lookup that registers pending entities ahead of time goes unnoticed exactly when each of them was
first in line for a free slot: otherwise a death, or a birth's becoming shared, brings the order to
light.

## Main definitions

- `World.FindsAlike` — every `find*` call ends alike in both worlds

## Main results

- `World.Ahead.findsAlike`, `World.InTurn.of_findsAlike` — the two directions
-/

namespace Rtest.World

open StaticMocksRegistry

variable {w w' : World} {k : Kind} {id : NodeId} {name : Name} {gone : List EntityRef}

/-- Every `find*` call has the same outcome in both worlds, and leaves the same mocks attached. -/
def FindsAlike (w w' : World) : Prop :=
  ∀ k T n node name, w.nodes.get? n = some node →
    let found := find k T node.controlBlock name w
    let found' := find k T node.controlBlock name w'
    found'.1 = found.1 ∧ found'.2.mocks = found.2.mocks ∧
      found'.2.registry.mockRegistry = found.2.registry.mockRegistry

theorem Ahead.findsAlike (hi : Inv w) (hi' : Inv w') (h : Ahead gone w w') : FindsAlike w w' := by
  intro k T n node name _
  obtain ⟨houtcome, hafter⟩ := h.find hi hi' k T node.controlBlock name
  exact ⟨houtcome, hafter.mocks, hafter.table⟩

/-- A `find*` function for actions finds nothing just if the name resolves to nothing. -/
theorem find_notFound_iff (hk : k.isAction = true) (T : Interface) (id : NodeId) (name : Name) :
    (find k T id name w).1 = .notFound ↔ resolve k id name w = none := by
  have hsub : k ≠ .subscription := by
    rintro rfl
    cases hk
  have hname : rejectsEmpty k = true → name ≠ [] := by
    cases k <;> simp_all [Kind.isAction, rejectsEmpty]
  have hkey : findName k name = name := by
    cases k <;> simp_all [Kind.isAction, findName]
  rw [find_eq_findMock hsub hname, hkey]
  cases hres : resolve k id name w with
  | none => simp [findMock_of_unresolved _ hres]
  | some e =>
    obtain ⟨-, obj, hobj⟩ := resolve_eq_some hres
    rw [findMock_of_resolve _ hres hobj]
    cases k with
    | actionServer =>
      simp only [typeCheck, reduceCtorEq, false_and, if_false, iff_false]
      split
      · simp
      · split <;> simp [makeMock]
    | actionClient =>
      simp only [typeCheck, reduceCtorEq, false_and, if_false, iff_false]
      split
      · simp
      · simp [makeMock]
    | publisher | subscription | service | serviceClient => cases hk

theorem FindsAlike.resolve_eq_none_iff (h : FindsAlike w w') (hk : k.isAction = true) {n : NodeRef}
    {node : Node} (hn : w.nodes.get? n = some node) (name : Name) :
    resolve k node.controlBlock name w' = none ↔ resolve k node.controlBlock name w = none := by
  rw [← find_notFound_iff hk 0, ← find_notFound_iff hk 0, (h k 0 n node name hn).1]

theorem step_destroyEntity {e : EntityRef} {obj : Entity} (hobj : w.entities.get? e = some obj) :
    w.step (.destroyEntity e) = some (w.destroyEntity e) := by
  simp [step, enabled, act, ObjectStore.alive_of_get? hobj]

/-- If the entity that comes into a slot is not the pending one, its death shows the difference:
the pending one would have come in its place. -/
theorem not_findsAlike_of_holder (hi : Inv w) {it : LazyInitEntry}
    (hit : it ∈ w.registry.lazyInit k) (hs : w.initSucceeds it.initCallback = true) {obj : Entity}
    (hobj : w.entities.get? it.initCallback = some obj) {node : Node}
    (hn : w.nodes.get? obj.node = some node) (hid : node.controlBlock = obj.nodeId)
    (id₀ : NodeId) (name₀ : Name) {y : EntityRef}
    (hy : (lookup k id₀ name₀ w).2.holder k obj.nodeId obj.name = some y)
    (hne : it.initCallback ≠ y) :
    ∃ ops u u', Runs.run step w ops = some u ∧
      Runs.run step (lookup k id₀ name₀ w).2 ops = some u' ∧ ¬ FindsAlike u u' := by
  have hf := lookup_frame k id₀ name₀ w
  have hk := (hi.pending k it hit).1
  obtain ⟨dead, hdead'⟩ := ObjectStore.alive_iff.mp (ObjectStore.lock_eq_some_iff.mp hy).2
  have hdead : w.entities.get? y = some dead := by rw [← hf.entities, hdead']
  have hstep := step_destroyEntity hdead
  have hstep' := step_destroyEntity hdead'
  refine ⟨[.destroyEntity y], w.destroyEntity y, (lookup k id₀ name₀ w).2.destroyEntity y,
    by simp [hstep], by simp [hstep'], fun halike => ?_⟩
  have hnodes : (w.destroyEntity y).nodes.get? obj.node = some node := by
    rw [nodes_destroyEntity, hn]
  have hiff := halike.resolve_eq_none_iff hk hnodes obj.name
  rw [hid] at hiff
  have hi₁ := inv_step _ _ _ (inv_lookup hi k id₀ name₀) hstep'
  have hget : (w.destroyEntity y).entities.get? it.initCallback = some obj := by
    simp only [destroyEntity, hdead, ObjectStore.get?_free, if_neg hne, hobj]
  have hshared : obj.shared = true := by simpa [initSucceeds, hobj] using hs
  refine resolve_ne_none (inv_step _ _ _ hi hstep) (?_ : it ∈ _) ?_ ?_ (hiff.mp ?_)
  · rw [lazyInit_destroyEntity hi]
    exact List.mem_filter.mpr ⟨hit, by simpa using hne⟩
  · simp [onKey, hget]
  · simp [initSucceeds, hget, hshared]
  · rw [resolve_of_failing hi₁ (failing_destroyEntity_lookup hi k id₀ name₀ y),
      holder_destroyEntity hdead', hy]
    simp

/-- If the pending entity comes into the slot before another one that is first in line, the order
shows once that one is shared: whichever came into the slot, the other does not follow it. -/
theorem not_findsAlike_of_line (hi : Inv w) {it first : LazyInitEntry}
    (hit : it ∈ w.registry.lazyInit k) {obj : Entity} {node : Node}
    (hn : w.nodes.get? obj.node = some node) (hid : node.controlBlock = obj.nodeId)
    (id₀ : NodeId) (name₀ : Name)
    (hy : (lookup k id₀ name₀ w).2.holder k obj.nodeId obj.name = some it.initCallback)
    (hfree : w.holder k obj.nodeId obj.name = none)
    (hline : w.nextInLine k obj.nodeId obj.name = some first)
    (hne : it.initCallback ≠ first.initCallback) :
    ∃ ops u u', Runs.run step w ops = some u ∧
      Runs.run step (lookup k id₀ name₀ w).2 ops = some u' ∧ ¬ FindsAlike u u' := by
  have hf := lookup_frame k id₀ name₀ w
  have hi₁ := inv_lookup hi k id₀ name₀
  have hk := (hi.pending k it hit).1
  obtain ⟨-, obj', hobj', -⟩ := hi.pending k first (List.mem_of_find?_eq_some hline)
  have halive := ObjectStore.alive_of_get? hobj'
  -- share the first in line, look up, and destroy it again: in either world
  have hrun : ∀ v : World, Inv v → v.nodes = w.nodes → v.entities = w.entities →
      let shared := v.act (.share first.initCallback)
      let served := (lookup k obj.nodeId obj.name shared).2
      Inv shared ∧ Runs.run step v [.share first.initCallback, .lookup k obj.node obj.name,
          .destroyEntity first.initCallback] = some (served.destroyEntity first.initCallback) ∧
        (∃ dead, served.entities.get? first.initCallback = some dead) ∧
        Inv (served.destroyEntity first.initCallback) := by
    intro v hv hnodes hentities shared served
    have hshare : v.step (.share first.initCallback) = some shared := by
      simp [step, enabled, hentities, halive, shared]
    have hshared := inv_step _ _ _ hv hshare
    have hlookup : shared.step (.lookup k obj.node obj.name) = some served := by
      have hn' : shared.nodes.get? obj.node = some node := by
        show v.nodes.get? obj.node = some node
        rw [hnodes, hn]
      simp [step, enabled, act, ObjectStore.alive_of_get? hn', hn', hid, served]
    have hserved := inv_step _ _ _ hshared hlookup
    have hdead : ∃ dead, served.entities.get? first.initCallback = some dead := by
      refine ObjectStore.alive_iff.mp ?_
      rw [(lookup_frame k obj.nodeId obj.name shared).entities]
      simp [shared, act, hentities, halive]
    obtain ⟨dead, hdead⟩ := hdead
    have hdestroy := step_destroyEntity hdead
    refine ⟨hshared, ?_, ⟨dead, hdead⟩, inv_step _ _ _ hserved hdestroy⟩
    simp [hshare, hlookup, hdestroy]
  obtain ⟨hshared, hops, ⟨dead, hdead⟩, hend⟩ := hrun w hi rfl rfl
  obtain ⟨hshared', hops', ⟨dead', hdead'⟩, hend'⟩ := hrun _ hi₁ hf.nodes hf.entities
  refine ⟨_, _, _, hops, hops', fun halike => ?_⟩
  have hnodes : ((lookup k obj.nodeId obj.name
      (w.act (.share first.initCallback))).2.destroyEntity first.initCallback).nodes.get?
        obj.node = some node := by
    rw [nodes_destroyEntity, (lookup_frame ..).nodes]
    exact hn
  have hiff := halike.resolve_eq_none_iff hk hnodes obj.name
  rw [hid, resolve_of_failing hend (failing_destroyEntity_lookup hshared _ _ _ _),
    resolve_of_failing hend' (failing_destroyEntity_lookup hshared' _ _ _ _),
    holder_destroyEntity hdead, holder_destroyEntity hdead', holder_lookup_self hshared,
    holder_lookup_self hshared', holder_share, holder_share, hy, hfree] at hiff
  -- without the call the slot goes to the first in line, with it to the other
  have hserved : ((w.act (.share first.initCallback)).registry.lazyInit k).find? (fun x =>
      (w.act (.share first.initCallback)).onKey obj.nodeId obj.name x.initCallback &&
        (w.act (.share first.initCallback)).initSucceeds x.initCallback) = some first := by
    simp only [onKey_share]
    refine find?_and_of_find?
      (q := fun x => (w.act (.share first.initCallback)).initSucceeds x.initCallback) hline ?_
    simp [initSucceeds_share, halive]
  rw [hserved] at hiff
  simp [Option.filter, hne] at hiff

/-- **A lookup nobody notices** registers only whose turn it is: if no later `find*` call behaves
otherwise than without it, each pending entity it registered was first in line for a free slot. -/
theorem InTurn.of_findsAlike (hi : Inv w) (hp : PendingInv w) (id₀ : NodeId) (name₀ : Name)
    (h : ∀ ops u u', Runs.run step w ops = some u →
      Runs.run step (lookup k id₀ name₀ w).2 ops = some u' → FindsAlike u u') : InTurn k w := by
  intro it hit hs id name hon
  obtain ⟨hk, obj, hobj, hkind, -⟩ := hi.pending k it hit
  obtain ⟨node, hn, hid⟩ := hi.nodeHeld _ obj hobj (by rwa [hkind])
  obtain ⟨rfl, rfl⟩ : obj.nodeId = id ∧ obj.name = name := by simpa [onKey, hobj] using hon
  have hcontra : ¬ ∃ ops u u', Runs.run step w ops = some u ∧
      Runs.run step (lookup k id₀ name₀ w).2 ops = some u' ∧ ¬ FindsAlike u u' := by
    rintro ⟨ops, u, u', hu, hu', hno⟩
    exact hno (h ops u u' hu hu')
  have hheld := holder_lookup_self hi k id₀ name₀ obj.nodeId obj.name
  have hcomes : (lookup k id₀ name₀ w).2.holder k obj.nodeId obj.name = some it.initCallback := by
    have hsome : (lookup k id₀ name₀ w).2.holder k obj.nodeId obj.name ≠ none := by
      rw [hheld, Ne, Option.or_eq_none_iff, Option.map_eq_none_iff, List.find?_eq_none]
      rintro ⟨-, hnone⟩
      exact hnone it hit (by simp [hon, hs])
    obtain ⟨y, hy⟩ := Option.ne_none_iff_exists'.mp hsome
    by_cases hne : it.initCallback = y
    · rw [hy, hne]
    · exact absurd (not_findsAlike_of_holder hi hit hs hobj hn hid id₀ name₀ hy hne) hcontra
  -- who waits is not registered, so it was no holder before
  have hfree : w.holder k obj.nodeId obj.name = none := by
    cases hx : w.holder k obj.nodeId obj.name with
    | none => rfl
    | some x =>
      rw [hcomes, hx, Option.some_or] at hheld
      obtain rfl := Option.some.inj hheld
      obtain ⟨m, hm⟩ := hi.recorded k obj.nodeId obj.name _ (ObjectStore.lock_eq_some_iff.mp hx).1
      have hreg : w.registered it.initCallback = true :=
        List.any_eq_true.mpr ⟨_, hm, by simp⟩
      rw [hp.not_registered ⟨it, hit, rfl⟩] at hreg
      cases hreg
  refine ⟨hfree, ?_⟩
  have hsome : w.nextInLine k obj.nodeId obj.name ≠ none := by
    rw [nextInLine, Ne, List.find?_eq_none]
    exact fun hnone => hnone it hit hon
  obtain ⟨first, hfirst⟩ := Option.ne_none_iff_exists'.mp hsome
  rw [hfirst]
  by_cases hne : it.initCallback = first.initCallback
  · have hnodup : ((w.registry.lazyInit k).map (·.initCallback)).Nodup := by
      rw [hp.listed k]
      exact (hp.once k).filter _
    rw [List.inj_on_of_nodup_map hnodup hit (List.mem_of_find?_eq_some hfirst) hne]
  · exact absurd (not_findsAlike_of_line hi hit hn hid id₀ name₀ hcomes hfree hfirst hne)
      hcontra

end Rtest.World
