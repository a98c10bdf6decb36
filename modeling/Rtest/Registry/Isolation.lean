import Rtest.Registry.Invariant

/-!
# Node isolation

Names and addresses of nodes may repeat; what a lookup is keyed by is a control block, and the
registry's own key keeps that from being reused. So a lookup with a living node's handle answers
for that node alone, and the node's timers are exactly those registered for it.
-/

namespace Rtest.World

open StaticMocksRegistry

variable {w : World}

/-- What the registry holds under a living node's handle was registered for that node, and for no
other. -/
theorem Inv.slot_isolated (hi : Inv w) {n : NodeRef} {node : Node}
    (hn : w.nodes.get? n = some node) {k : Kind} {name : Name} {e : EntityRef}
    (hslot : w.registry.slot k node.controlBlock name = some e) :
    (⟨k, n, node.controlBlock, name, e⟩ : Registration) ∈ w.history.registrations ∧
      ∀ r ∈ w.history.registrations, r.entity = e → r.node = n := by
  obtain ⟨m, hm⟩ := hi.recorded k node.controlBlock name e hslot
  have hown : n = m := ((hi.owned _ hm).2 n node hn).mp rfl
  subst hown
  refine ⟨hm, fun r hr he => ?_⟩
  rw [hi.agree r hr _ hm he]

/-- The timers a living node finds are those registered for it that are still alive, in order. -/
theorem Inv.findTimers_eq (hi : Inv w) {n : NodeRef} {node : Node}
    (hn : w.nodes.get? n = some node) :
    w.registry.findTimers w.timers node.controlBlock =
      ((w.history.timerRegistrations.filter (·.node = n)).map (·.timer)).filter w.timers.alive := by
  have hfilter : w.history.timerRegistrations.filter (·.nodeId = node.controlBlock) =
      w.history.timerRegistrations.filter (·.node = n) := by
    apply List.filter_congr
    intro r hr
    have hown := (hi.timersOwned r hr).2 n node hn
    rw [decide_eq_decide, eq_comm, hown, eq_comm]
  have hmap : ∀ rs : List TimerRegistration,
      rs.map (fun r => some r.timer) = (rs.map (·.timer)).map some := by
    intro rs
    simp
  rw [findTimers, hi.timersListed, hfilter, hmap, ObjectStore.filterMap_lock]

/-- **Node isolation.** In every run, with equal names and reused memory, a lookup with a living
node's handle returns an entity registered with that node itself since the last reset under that
kind and key, and registered with no other node; and `findTimers` returns the living timers
registered for the node since the last reset, in order of registration, each once. -/
theorem lookup_isolated (h : Reachable w) {n : NodeRef} {node : Node}
    (hn : w.nodes.get? n = some node) :
    (∀ k name e, (lookup k node.controlBlock name w).1 = some e →
      let w' := (lookup k node.controlBlock name w).2
      (⟨k, n, node.controlBlock, name, e⟩ : Registration) ∈ w'.history.registrations ∧
        ∀ r ∈ w'.history.registrations, r.entity = e → r.node = n) ∧
    w.registry.findTimers w.timers node.controlBlock =
      ((w.history.timerRegistrations.filter (·.node = n)).map (·.timer)).filter w.timers.alive ∧
    (w.registry.findTimers w.timers node.controlBlock).Nodup := by
  have hi := h.inv
  refine ⟨fun k name e hfound => ?_, hi.findTimers_eq hn, ?_⟩
  · rw [lookup_fst] at hfound
    have hn' : (lookup k node.controlBlock name w).2.nodes.get? n = some node := by
      rw [(lookup_frame k node.controlBlock name w).nodes, hn]
    exact (inv_lookup hi k node.controlBlock name).slot_isolated hn' hfound
  · rw [hi.findTimers_eq hn]
    have hsub : ((w.history.timerRegistrations.filter (·.node = n)).map (·.timer)).Sublist
        (w.history.timerRegistrations.map (·.timer)) := List.filter_sublist.map _
    exact (hi.timersOnce.sublist hsub).filter _

/-- A node is destroyed and a second one of the same name gets the memory of its handle. -/
def recreateNode : List Op :=
  [.createNode ⟨1, 100, "/".toList, "node".toList⟩,
    .createEntity .publisher 7 10 0 "/topic".toList,
    .createTimer 0,
    .destroyNode 0,
    .createNode ⟨2, 100, "/".toList, "node".toList⟩,
    .createEntity .publisher 7 20 1 "/topic".toList,
    .createTimer 1]

theorem recreateNode_isolated :
    (∀ k name e, (lookup k 2 name (after recreateNode)).1 = some e →
      let w' := (lookup k 2 name (after recreateNode)).2
      (⟨k, 1, 2, name, e⟩ : Registration) ∈ w'.history.registrations ∧
        ∀ r ∈ w'.history.registrations, r.entity = e → r.node = 1) ∧
    (after recreateNode).registry.findTimers (after recreateNode).timers 2 =
      (((after recreateNode).history.timerRegistrations.filter (·.node = 1)).map (·.timer)).filter
        (after recreateNode).timers.alive ∧
    ((after recreateNode).registry.findTimers (after recreateNode).timers 2).Nodup :=
  @lookup_isolated _ ⟨recreateNode, run_after (by decide)⟩ 1 ⟨2, 100, "/".toList, "node".toList⟩
    (by decide)

end Rtest.World
