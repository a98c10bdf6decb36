import Rtest.Registry.TopicNames

/-!
# Names of services and actions

A service or client registers under the name its node's code gives it, less one leading slash, and
is looked up that way too; an action server or client registers and is looked up under the name as
it stands. The node's namespace is seen by none of them. So a lookup follows name resolution where
the two names differ both as slots and as resolved names, and where they are one slot and one name.

## Main definitions

- `World.LooksAt` — a `find*` call hands out a mock for the entity, or finds it mocked
- `World.Interchangeable` — two names that are one slot and resolve to one name
-/

namespace Rtest

open StaticMocksRegistry

theorem skipSlash_of_isAbsolute {name : Name} (h : isAbsolute name) :
    name = '/' :: skipSlash name := by
  cases name with
  | nil => cases h
  | cons c name =>
    obtain rfl := Option.some.inj h
    rfl

theorem skipSlash_of_not_isAbsolute {name : Name} (h : ¬ isAbsolute name) :
    skipSlash name = name := by
  rw [skipSlash.eq_2]
  rintro name rfl
  exact h rfl

/-- Two names are one slot for services only if they are equal or a leading slash apart. -/
theorem skipSlash_eq_cases {n m : Name} (h : skipSlash n = skipSlash m) :
    n = m ∨ (n = '/' :: m ∧ ¬ isAbsolute m) ∨ (m = '/' :: n ∧ ¬ isAbsolute n) := by
  by_cases hn : isAbsolute n
  · by_cases hm : isAbsolute m
    · left
      rw [skipSlash_of_isAbsolute hn, skipSlash_of_isAbsolute hm, h]
    · right; left
      refine ⟨?_, hm⟩
      rw [skipSlash_of_isAbsolute hn, h, skipSlash_of_not_isAbsolute hm]
  · by_cases hm : isAbsolute m
    · right; right
      refine ⟨?_, hn⟩
      rw [skipSlash_of_isAbsolute hm, ← h, skipSlash_of_not_isAbsolute hn]
    · left
      rw [← skipSlash_of_not_isAbsolute hn, h, skipSlash_of_not_isAbsolute hm]

/-- What stands after a slash in a valid name starts with no tilde. -/
theorem not_isPrivate_of_valid {name : Name} (h : validTopicName ('/' :: name) = true) :
    ¬ isPrivate name := by
  intro hpriv
  cases name with
  | nil => cases hpriv
  | cons c name =>
    obtain rfl := Option.some.inj hpriv
    simp only [validTopicName, validTokens, List.splitOn] at h
    have hsplit : ('~' :: name).splitOnP (· == '/') =
        (name.splitOnP (· == '/')).modifyHead (List.cons '~') := by
      rw [List.splitOnP_cons_eq_if_modifyHead]
      rfl
    rw [hsplit] at h
    obtain ⟨t, ts, hts⟩ := List.exists_cons_of_ne_nil (List.splitOnP_ne_nil (· == '/') name)
    have htilde : validToken ('~' :: t) = false := by
      simp [validToken]
    simp [hts, htilde] at h

theorem expandTopicName_relative (node : Node) {name : Name} (habs : ¬ isAbsolute name)
    (hpriv : ¬ isPrivate name) :
    expandTopicName node name =
      if node.nodeNamespace = ['/'] then '/' :: name else node.nodeNamespace ++ '/' :: name := by
  apply expandTopicName.eq_3
  · rintro name rfl
    exact habs rfl
  · rintro name rfl
    exact hpriv rfl

/-- A relative name and the same name with a slash in front resolve to one name in the root
namespace only. -/
theorem expandTopicName_cons_iff {node : Node} (hnode : validNode node = true) {name : Name}
    (hrel : ¬ isAbsolute name) (hvalid : validTopicName ('/' :: name) = true) :
    expandTopicName node ('/' :: name) = expandTopicName node name ↔
      node.nodeNamespace = ['/'] := by
  rw [expandTopicName_relative node hrel (not_isPrivate_of_valid hvalid)]
  have habs : expandTopicName node ('/' :: name) = '/' :: name := rfl
  rw [habs]
  by_cases hroot : node.nodeNamespace = ['/']
  · simp [hroot]
  · rw [if_neg hroot]
    refine iff_of_false (fun heq => ?_) hroot
    have hlen := congrArg List.length heq
    have hpos := List.length_pos_iff.mpr (nodeNamespace_ne_nil hnode)
    simp only [List.length_cons, List.length_append] at hlen
    omega

namespace World

variable {w : World} {k : Kind} {node : Node} {n m : Name}

theorem kind_cases (hk : k ≠ .publisher ∧ k ≠ .subscription) :
    k = .service ∨ k = .serviceClient ∨ k = .actionServer ∨ k = .actionClient := by
  cases k with
  | publisher => exact absurd rfl hk.1
  | subscription => exact absurd rfl hk.2
  | service | serviceClient | actionServer | actionClient => simp

/-- The names are equal or, for a service or client in the root namespace, a leading slash
apart. -/
def Interchangeable (k : Kind) (node : Node) (n m : Name) : Prop :=
  n = m ∨ (k.isAction = false ∧ node.nodeNamespace = ['/'] ∧ skipSlash n = skipSlash m)

/-- Names are one slot and resolve to one name just if they are interchangeable. -/
theorem interchangeable_iff (hk : k ≠ .publisher ∧ k ≠ .subscription)
    (hnode : validNode node = true)
    (hn : validTopicName n = true) (hm : validTopicName m = true) :
    (registerName k n = registerName k m ∧ expandTopicName node n = expandTopicName node m) ↔
      Interchangeable k node n m := by
  have hname : ∀ name, registerName k name = if k.isAction then name else skipSlash name := by
    intro name
    rcases kind_cases hk with rfl | rfl | rfl | rfl <;> rfl
  rw [hname, hname, Interchangeable]
  cases haction : k.isAction with
  | true =>
    simp only [if_true, reduceCtorEq, false_and, or_false]
    constructor
    · exact fun h => h.1
    · rintro rfl
      exact ⟨rfl, rfl⟩
  | false =>
    simp only [Bool.false_eq_true, if_false, true_and]
    constructor
    · rintro ⟨hslot, hexpand⟩
      rcases skipSlash_eq_cases hslot with rfl | ⟨rfl, hrel⟩ | ⟨rfl, hrel⟩
      · exact Or.inl rfl
      · exact Or.inr ⟨(expandTopicName_cons_iff hnode hrel hn).mp hexpand, hslot⟩
      · exact Or.inr ⟨(expandTopicName_cons_iff hnode hrel hm).mp hexpand.symm, hslot⟩
    · rintro (rfl | ⟨hroot, hslot⟩)
      · exact ⟨rfl, rfl⟩
      · refine ⟨hslot, ?_⟩
        rcases skipSlash_eq_cases hslot with rfl | ⟨rfl, hrel⟩ | ⟨rfl, hrel⟩
        · rfl
        · exact (expandTopicName_cons_iff hnode hrel hn).mpr hroot
        · exact ((expandTopicName_cons_iff hnode hrel hm).mpr hroot).symm

-- ════════════════════════════════════════════════════════════════════════
-- What a `find*` call looks at
-- ════════════════════════════════════════════════════════════════════════

/-- The entity a `find*` call looks at: the call hands out a mock for it, or says that it has one
already. -/
def LooksAt (k : Kind) (T : Interface) (node : NodeId) (name : Name) (e : EntityRef) (w : World) :
    Prop :=
  match (find k T node name w).1 with
  | .mock m => (find k T node name w).2.receiver e = some m
  | .alreadyAttached => resolve k node (findName k name) w = some e
  | _ => False

/-- A `find*` call with the type of a living entity looks at it just if its name resolves to it. -/
theorem looksAt_iff (hi : Inv w) (hm : MockInv w) (hk : k ≠ .publisher ∧ k ≠ .subscription)
    {e : EntityRef} {obj : Entity} (he : w.entities.get? e = some obj) (id : NodeId)
    (name : Name) :
    LooksAt k obj.interface id name e w ↔ resolve k id (findName k name) w = some e := by
  have hnever : rejectsEmpty k = true → name ≠ [] := by
    intro h
    rcases kind_cases hk with rfl | rfl | rfl | rfl <;> cases h
  rw [← finds_iff hi hm he hnever]
  simp only [LooksAt, Finds]
  cases hfind : (find k obj.interface id name w).1 with
  | subscription e' => exact absurd hfind (find_ne_subscription hk.2 hnever)
  | _ => exact Iff.rfl

-- ════════════════════════════════════════════════════════════════════════
-- Lookup against name resolution
-- ════════════════════════════════════════════════════════════════════════

/-- A name treats an entity as name resolution does: a `find*` call with it looks at the entity
just if the two names resolve to one, and if they do not, an entity created under that name gets
a slot of its own. -/
structure FollowsResolution (w : World) (node : Node) (e : EntityRef) (obj : Entity) (m : Name) :
    Prop where
  found : LooksAt obj.kind obj.interface node.controlBlock m e w ↔
    expandTopicName node obj.name = expandTopicName node m
  apart : expandTopicName node obj.name ≠ expandTopicName node m →
    registerName obj.kind obj.name ≠ registerName obj.kind m

/-- **When lookup follows name resolution.** A service, client, action server or action client is
found under a valid name just when the two names resolve to one, and shares no slot with another
name, exactly when the names differ both as slots and as resolved names, or the entity holds its
slot and the names are equal or, for a service or client in the root namespace, a slash apart. -/
theorem service_found_iff (h : Reachable w) {node : Node} {e : EntityRef} {obj : Entity}
    (hk : obj.kind ≠ .publisher ∧ obj.kind ≠ .subscription)
    (hnode : w.nodes.get? obj.node = some node) (hvalid : validNode node = true)
    (he : w.entities.get? e = some obj) (hn : validTopicName obj.name = true) {m : Name}
    (hm : validTopicName m = true) :
    FollowsResolution w node e obj m ↔
      (HoldsSlot w e obj ∧ Interchangeable obj.kind node obj.name m) ∨
        (registerName obj.kind obj.name ≠ registerName obj.kind m ∧
          expandTopicName node obj.name ≠ expandTopicName node m) := by
  obtain ⟨ops, hrun⟩ := h
  obtain ⟨hi, hmocks⟩ := Runs.run_invariant mockInv_step ⟨inv_init, mockInv_init⟩ hrun
  have hfind : findName obj.kind m = registerName obj.kind m := by
    rcases kind_cases hk with hk | hk | hk | hk <;> rw [hk] <;> rfl
  have hlooks : LooksAt obj.kind obj.interface node.controlBlock m e w ↔
      HoldsSlot w e obj ∧ registerName obj.kind m = registerName obj.kind obj.name := by
    rw [looksAt_iff hi hmocks hk he, resolve_iff_holdsSlot hi hnode he, hfind]
  have hnames := interchangeable_iff hk hvalid hn hm
  constructor
  · intro hfollows
    by_cases hsame : expandTopicName node obj.name = expandTopicName node m
    · obtain ⟨hholds, hslot⟩ := hlooks.mp (hfollows.found.mpr hsame)
      exact Or.inl ⟨hholds, hnames.mp ⟨hslot.symm, hsame⟩⟩
    · exact Or.inr ⟨hfollows.apart hsame, hsame⟩
  · rintro (⟨hholds, hinter⟩ | ⟨hslot, hdiff⟩)
    · obtain ⟨hslot, hsame⟩ := hnames.mpr hinter
      exact ⟨iff_of_true (hlooks.mpr ⟨hholds, hslot.symm⟩) hsame, fun hdiff => absurd hsame hdiff⟩
    · refine ⟨iff_of_false (fun hfound => hslot ?_) hdiff, fun _ => hslot⟩
      exact (hlooks.mp hfound).2.symm

/-- A node in the root namespace creates a service under an absolute name. -/
def rootService : List Op :=
  [.createNode ⟨1, 100, "/".toList, "node".toList⟩,
    .createEntity .service 7 10 0 "/srv".toList]

theorem service_found_rootService :
    FollowsResolution (after rootService) ⟨1, 100, "/".toList, "node".toList⟩ 0
        ⟨.service, 7, 10, 0, 1, "/srv".toList, true⟩ "srv".toList ↔
      (HoldsSlot (after rootService) 0 ⟨.service, 7, 10, 0, 1, "/srv".toList, true⟩ ∧
        Interchangeable .service ⟨1, 100, "/".toList, "node".toList⟩ "/srv".toList "srv".toList) ∨
        (registerName .service "/srv".toList ≠ registerName .service "srv".toList ∧
          expandTopicName ⟨1, 100, "/".toList, "node".toList⟩ "/srv".toList ≠
            expandTopicName ⟨1, 100, "/".toList, "node".toList⟩ "srv".toList) :=
  @service_found_iff (after rootService) ⟨rootService, run_after (by decide)⟩
    ⟨1, 100, "/".toList, "node".toList⟩ 0 ⟨.service, 7, 10, 0, 1, "/srv".toList, true⟩
    (by decide) (by decide) (by decide) (by decide) (by decide) "srv".toList (by decide)

/-- A node in the namespace `/ns` creates a service under `/srv`, a second one under `srv`, and an
action server under `dock`. -/
def namespacedServices : List Op :=
  [.createNode ⟨1, 100, "/ns".toList, "node".toList⟩,
    .createEntity .service 7 10 0 "/srv".toList,
    .createEntity .service 7 20 0 "srv".toList,
    .createEntity .actionServer 9 30 0 "dock".toList,
    .share 2]

/-- The relative name finds the service of the absolute one, the second service is not found at
all, and the action server not under its absolute name. -/
theorem namespacedServices_confused :
    let w := after namespacedServices
    let node : Node := ⟨1, 100, "/ns".toList, "node".toList⟩
    Reachable w ∧ w.nodes.get? 0 = some node ∧ validNode node = true ∧
      w.entities.get? 0 = some ⟨.service, 7, 10, 0, 1, "/srv".toList, true⟩ ∧
      w.entities.get? 1 = some ⟨.service, 7, 20, 0, 1, "srv".toList, true⟩ ∧
      expandTopicName node "/srv".toList ≠ expandTopicName node "srv".toList ∧
      registerName .service "/srv".toList = registerName .service "srv".toList ∧
      LooksAt .service 7 1 "srv".toList 0 w ∧ ¬ LooksAt .service 7 1 "srv".toList 1 w ∧
      expandTopicName node "dock".toList = expandTopicName node "/ns/dock".toList ∧
      LooksAt .actionServer 9 1 "dock".toList 2 w ∧
      ¬ LooksAt .actionServer 9 1 "/ns/dock".toList 2 w := by
  have hsrv : (find .service 7 1 "srv".toList (after namespacedServices)).1 = .mock 0 := by decide
  have hdock : (find .actionServer 9 1 "dock".toList (after namespacedServices)).1 = .mock 0 := by
    decide
  have hmissed : (find .actionServer 9 1 "/ns/dock".toList (after namespacedServices)).1 =
      .notFound := by decide
  refine ⟨⟨namespacedServices, run_after (by decide)⟩, by decide, by decide, by decide, by decide,
    by decide, by decide, ?_, ?_, by decide, ?_, ?_⟩
  · simp only [LooksAt, hsrv]
    decide
  · simp only [LooksAt, hsrv]
    decide
  · simp only [LooksAt, hdock]
    decide
  · simp only [LooksAt, hmissed, not_false_eq_true]

end World

end Rtest
