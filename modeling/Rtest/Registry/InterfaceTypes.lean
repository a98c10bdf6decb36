import Rtest.Registry.FindsAlike

/-!
# Interface types

An entity casts its attached mock to its own mock type without a check, so a `find*` call with
another interface type must not attach one. Publishers, subscriptions, services and action servers
are guarded, by a cast that comes first or by a constructor that throws; the clients are not. And a
refused call for an action has still registered the pending action entities of its kind.

## Main definitions

- `World.Harmless` — the call returns nothing, and every later one behaves as if it had not been made
- `World.SameType` — the mock has the entity's kind and interface type
-/

namespace Rtest.World

open StaticMocksRegistry

variable {w w' : World} {k : Kind}

/-- The `find*` call with type `U` hands out nothing and leaves the mocks and their table alone, and
whatever is done after it, every `find*` call then behaves as it would have without it. -/
structure Harmless (k : Kind) (U : Interface) (node : NodeId) (name : Name) (w : World) : Prop where
  empty : (find k U node name w).1.isEmpty = true
  table : (find k U node name w).2.registry.mockRegistry = w.registry.mockRegistry
  mocks : (find k U node name w).2.mocks = w.mocks
  later : ∀ ops u u', Runs.run step w ops = some u →
    Runs.run step (find k U node name w).2 ops = some u' → FindsAlike u u'

/-- The mock has the entity's kind and interface type, so that casting to it is right. -/
def SameType (_ : EntityRef) (k : Kind) (T : Interface) (mock : Mock) : Prop :=
  mock.kind = k ∧ mock.interface = T

/-- The name is refused, or the entity it resolves to is of another type than `U` and of a kind
whose function checks it, or a live mock is attached to that entity already. -/
def Refused (k : Kind) (U : Interface) (node : NodeId) (name : Name) (w : World) : Prop :=
  (rejectsEmpty k = true → name ≠ []) →
    ∀ e obj, resolve k node (findName k name) w = some e → w.entities.get? e = some obj →
      (obj.interface ≠ U ∧ unchecked k = false) ∨
        (mockable k = true ∧ (w.attachedMock obj.this).isSome = true)

/-- A refused call does no more than its lookup. -/
theorem Refused.find {U : Interface} {node : NodeId} {name : Name}
    (hname : rejectsEmpty k = true → name ≠ []) (h : Refused k U node name w) :
    ∃ o : FindOutcome, o.isEmpty = true ∧
      find k U node name w = (o, (lookup k node (findName k name) w).2) := by
  cases hres : resolve k node (findName k name) w with
  | none =>
    refine ⟨.notFound, rfl, ?_⟩
    by_cases hk : k = .subscription
    · subst hk
      exact findSubscription_of_unresolved U (hname rfl) hres
    · rw [find_eq_findMock hk hname, findMock_of_unresolved _ hres]
  | some e =>
    obtain ⟨-, obj, hobj⟩ := resolve_eq_some hres
    have hno := h hname e obj hres hobj
    by_cases hk : k = .subscription
    · subst hk
      have hU : obj.interface ≠ U := (hno.resolve_right (fun hm => absurd hm.1 (by decide))).1
      refine ⟨.notFound, rfl, ?_⟩
      rw [findSubscription_of_resolve U (hname rfl) hres hobj, if_neg hU]
    · exact find_refused hname hk hres hobj (hno.symm.imp And.right id)

/-- A call that hands out nothing was refused. -/
theorem Refused.of_isEmpty {U : Interface} {node : NodeId} {name : Name}
    (h : (World.find k U node name w).1.isEmpty = true) : Refused k U node name w := by
  intro hname e obj hres hobj
  by_cases hk : k = .subscription
  · subst hk
    rw [findSubscription_of_resolve U (hname rfl) hres hobj] at h
    by_cases hU : obj.interface = U
    · simp [hU, FindOutcome.isEmpty] at h
    · exact Or.inl ⟨hU, rfl⟩
  · by_contra hno
    have hmockable : mockable k = true := by simpa [mockable] using hk
    simp only [not_or, not_and, Bool.not_eq_false, hmockable, true_implies, Bool.not_eq_true,
      Option.isSome_eq_false_iff, Option.isNone_iff_eq_none] at hno
    have hT : obj.interface = U ∨ unchecked k = true := by
      by_cases hU : obj.interface = U
      · exact Or.inl hU
      · exact Or.inr (hno.1 hU)
    rw [find_makes hname hk hres hobj hno.2 hT] at h
    simp [makeMock, FindOutcome.isEmpty] at h

/-- The empty name is refused before anything is looked up. -/
theorem find_empty_name (h : ¬ (rejectsEmpty k = true → name ≠ [])) (U : Interface) (id : NodeId)
    (w : World) : find k U id name w = (.threw .emptyTopicName, w) := by
  obtain ⟨hr, hnil⟩ := Classical.not_imp.mp h
  obtain rfl := not_not.mp hnil
  cases k <;> first | rfl | simp [rejectsEmpty] at hr

/-- Only the kinds of actions have pending entities to register. -/
theorem inTurn_of_not_isAction (hi : Inv w) (hk : k.isAction = false) : InTurn k w := by
  intro it hit
  have haction := (hi.pending k it hit).1
  rw [hk] at haction
  cases haction

/-- A `find*` call is harmless exactly when it is refused and registers only whose turn it is. -/
theorem harmless_iff (hi : Inv w) (hp : PendingInv w) (U : Interface) (id : NodeId) (name : Name) :
    Harmless k U id name w ↔ Refused k U id name w ∧ InTurn k w := by
  by_cases hname : rejectsEmpty k = true → name ≠ []
  · have hf := lookup_frame k id (findName k name) w
    constructor
    · intro h
      have hrefused := Refused.of_isEmpty h.empty
      obtain ⟨o, -, hfind⟩ := hrefused.find hname
      refine ⟨hrefused, .of_findsAlike hi hp id (findName k name) fun ops u u' hu hu' => ?_⟩
      refine h.later ops u u' hu ?_
      rw [hfind]
      exact hu'
    · rintro ⟨hrefused, hturn⟩
      obtain ⟨o, ho, hfind⟩ := hrefused.find hname
      constructor
      · rw [hfind]
        exact ho
      · rw [hfind]
        exact hf.mockRegistry
      · rw [hfind]
        exact hf.mocks
      · rw [hfind]
        intro ops u u' hu hu'
        obtain ⟨hiu, hiu', hahead⟩ := (hturn.ahead hi id (findName k name)).run hi
          (inv_lookup hi k id (findName k name)) hu hu'
        exact hahead.findsAlike hiu hiu'
  · have hthrows := find_empty_name hname U id w
    have hk : k.isAction = false := by
      cases k <;> first | rfl | simp [rejectsEmpty] at hname
    refine iff_of_true ?_ ⟨fun h => absurd h hname, inTurn_of_not_isAction hi hk⟩
    constructor
    · rw [hthrows]
      rfl
    · rw [hthrows]
    · rw [hthrows]
    · rw [hthrows]
      intro ops u u' hu hu'
      rw [hu] at hu'
      cases hu'
      exact fun _ _ _ _ _ _ => ⟨rfl, rfl, rfl⟩

/-- All along a run every cast of an attached mock is right exactly when no mockable entity is
created where a mock of another type is attached, and no mock of a wrong type is made. -/
theorem sameType_iff {ops : List Op} (h : (Runs.run step init ops).isSome = true) :
    Runs.Always step (DeliversTo SameType) init ops ↔
      Runs.EachStep step (MeetsRelated SameType) init ops := by
  obtain ⟨last, hlast⟩ := Option.isSome_iff_exists.mp h
  refine @Runs.always_iff_eachStep _ _ _ (fun w => Inv w ∧ MockInv w) (AttachedAll SameType)
    (DeliversTo SameType) (MeetsRelated SameType) mockInv_step ?_ ?_ ?_ _ _ _
    ⟨inv_init, mockInv_init⟩ attachedAll_init hlast
  · rintro w - hatt
    exact deliversTo_iff.mpr hatt
  · rintro w op w' ⟨hi, hm⟩ hatt hc hs
    exact hatt.step hi hm (fun _ _ _ _ _ => ⟨rfl, rfl⟩) hc hs
  · rintro w op w' ⟨hi, -⟩ - hs hown
    exact .of_attachedAll hi (fun _ _ _ _ hR => hR.2) hs (deliversTo_iff.mp hown)

/-- **When a wrong interface type changes nothing.** In the state a run ends in, a `find*` call is
harmless exactly when it is refused and every pending entity it registers was first in line for a
free slot; and the casts of attached mocks are all right along the run exactly when no mockable
entity is created where a mock of another type is attached and no mock of a wrong type is made. -/
theorem wrongType_iff {ops : List Op} (h : Runs.run step init ops = some w) :
    (∀ k U id name, Harmless k U id name w ↔ Refused k U id name w ∧ InTurn k w) ∧
    (Runs.Always step (DeliversTo SameType) init ops ↔
      Runs.EachStep step (MeetsRelated SameType) init ops) := by
  have hreach : Reachable w := ⟨ops, h⟩
  refine ⟨fun k U id name => harmless_iff hreach.inv hreach.pendingInv U id name, sameType_iff ?_⟩
  rw [h]
  rfl

/-- A server is registered under `/dock`, and a second one waits. -/
def secondServer : List Op :=
  [.createNode ⟨1, 100, "/".toList, "node".toList⟩,
    .createEntity .actionServer 7 10 0 "/dock".toList,
    .share 0,
    .lookup .actionServer 0 "/dock".toList,
    .createEntity .actionServer 7 20 0 "/dock".toList,
    .share 1]

/-- A call with type 8 throws, but it uses up the second server's turn: once the first one dies the
second is found only if the call was not made. -/
example :
    let w := after secondServer
    let w' := (find .actionServer 8 1 "/dock".toList w).2
    (find .actionServer 8 1 "/dock".toList w).1 = .threw .invalidActionType ∧
      (find .actionServer 7 1 "/dock".toList (w'.destroyEntity 0)).1 = .notFound ∧
      (find .actionServer 7 1 "/dock".toList (w.destroyEntity 0)).1 = .mock 0 := by decide

/-- A service client of type 7 is asked for with type 8. -/
def mistypedClient : List Op :=
  [.createNode ⟨1, 100, "/".toList, "node".toList⟩,
    .createEntity .serviceClient 7 10 0 "/service".toList]

theorem wrongType_mistypedClient :
    (∀ k U id name, Harmless k U id name (after mistypedClient) ↔
      Refused k U id name (after mistypedClient) ∧ InTurn k (after mistypedClient)) ∧
    (Runs.Always step (DeliversTo SameType) init mistypedClient ↔
      Runs.EachStep step (MeetsRelated SameType) init mistypedClient) :=
  wrongType_iff (run_after (by decide))

/-- The call hands out a mock of the wrong type, attaches it, and the right type is refused from
then on. -/
theorem mistypedClient_attached :
    let w := after mistypedClient
    let w' := (find .serviceClient 8 1 "service".toList w).2
    Reachable w ∧ (find .serviceClient 8 1 "service".toList w).1 = .mock 0 ∧
      ¬ Harmless .serviceClient 8 1 "service".toList w ∧
      w'.receiver 0 = some 0 ∧ (w'.mocks.get? 0).map (·.interface) = some 8 ∧
      (w'.entities.get? 0).map (·.interface) = some 7 ∧
      (find .serviceClient 7 1 "service".toList w').1 = .alreadyAttached := by
  refine ⟨⟨mistypedClient, run_after (by decide)⟩, by decide, fun h => ?_, by decide, by decide,
    by decide, by decide⟩
  have hempty := h.empty
  have hmock : (find .serviceClient 8 1 "service".toList (after mistypedClient)).1 = .mock 0 := by
    decide
  rw [hmock] at hempty
  cases hempty

end Rtest.World
