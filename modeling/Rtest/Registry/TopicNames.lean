import Rtest.Registry.Findable
import Rtest.Registry.Found

/-!
# Topic names

A publisher or subscription registers under the name the middleware gives it; a `find*` call turns
the name it is asked for into a key by itself, by putting a slash in front. The two agree on
absolute names, and on relative ones in the root namespace.

## Main definitions

- `validTopicName`, `validNode` — the names the middleware accepts
- `GetTopicName` — what is relied on of `rcl_publisher_get_topic_name` and its sibling

## Main results

- `World.topic_found_iff` — when a lookup follows name resolution
-/

namespace Rtest

/-- A token of a topic name: letters, digits and underscores, no digit first. -/
def validToken (t : Name) : Bool :=
  t.all (fun c => c.isAlphanum || c = '_') && t.head?.any fun c => !c.isDigit

/-- Tokens with a slash between two of them. -/
def validTokens (name : Name) : Bool := (name.splitOn '/').all validToken

/-- A topic name without substitutions: absolute, relative, or of the node's own namespace. -/
def validTopicName : Name → Bool
  | '/' :: name => validTokens name
  | ['~'] => true
  | '~' :: '/' :: name => validTokens name
  | name => validTokens name

/-- The namespace is the root or an absolute name, and the name is one token. -/
def validNode (node : Node) : Bool :=
  (node.nodeNamespace = ['/'] || match node.nodeNamespace with
    | '/' :: name => validTokens name
    | _ => false) && validToken node.name

def isAbsolute (name : Name) : Prop := name.head? = some '/'

/-- The name is the node's own, `~` or `~/...`. -/
def isPrivate (name : Name) : Prop := name.head? = some '~'

instance (name : Name) : Decidable (isAbsolute name) := inferInstanceAs (Decidable (_ = _))
instance (name : Name) : Decidable (isPrivate name) := inferInstanceAs (Decidable (_ = _))

/-- `get_topic_name()` of an entity that a node created under a name: the name, expanded. -/
structure GetTopicName (getTopicName : Node → Name → Name) : Prop where
  absolute : ∀ node name, validNode node = true → validTopicName name = true →
    isAbsolute name → getTopicName node name = name
  relative : ∀ node name, validNode node = true → validTopicName name = true →
    ¬ isAbsolute name → ¬ isPrivate name → getTopicName node name =
      if node.nodeNamespace = ['/'] then '/' :: name else node.nodeNamespace ++ '/' :: name
  ownNamespace : ∀ node name, validNode node = true → validTopicName ('~' :: name) = true →
    getTopicName node ('~' :: name) = node.fullyQualifiedName ++ name

/-- The expansion, as documented. -/
def expandTopicName (node : Node) : Name → Name
  | '/' :: name => '/' :: name
  | '~' :: name => node.fullyQualifiedName ++ name
  | name => if node.nodeNamespace = ['/'] then '/' :: name else node.nodeNamespace ++ '/' :: name

theorem getTopicName_expandTopicName : GetTopicName expandTopicName where
  absolute := by
    intro node name _ _ h
    cases name with
    | nil => cases h
    | cons c name =>
      obtain rfl := Option.some.inj h
      rfl
  relative := by
    intro node name _ _ habs hpriv
    rw [expandTopicName.eq_3]
    · rintro name rfl
      exact habs rfl
    · rintro name rfl
      exact hpriv rfl
  ownNamespace := fun _ _ _ _ => rfl

theorem prefixSlash_of_isAbsolute {name : Name} (h : isAbsolute name) :
    World.prefixSlash name = name := by
  cases name with
  | nil => cases h
  | cons c name =>
    obtain rfl := Option.some.inj h
    rfl

theorem prefixSlash_of_not_isAbsolute {name : Name} (h : ¬ isAbsolute name) :
    World.prefixSlash name = '/' :: name := by
  rw [World.prefixSlash.eq_2]
  rintro name rfl
  exact h rfl

theorem nodeNamespace_ne_nil {node : Node} (h : validNode node = true) :
    node.nodeNamespace ≠ [] := by
  intro hnil
  simp [validNode, hnil] at h

theorem name_ne_tilde {node : Node} (h : validNode node = true) : node.name ≠ ['~'] := by
  intro htilde
  have hchar : validToken ['~'] = false := by decide
  simp [validNode, htilde, hchar] at h

/-- The fully-qualified name of a node is never `/~`. -/
theorem fullyQualifiedName_ne {node : Node} (h : validNode node = true) :
    node.fullyQualifiedName ≠ ['/', '~'] := by
  intro heq
  rw [Node.fullyQualifiedName] at heq
  split at heq
  · exact name_ne_tilde h (List.cons.inj heq).2
  · obtain ⟨c, ns, hns⟩ := List.exists_cons_of_ne_nil (nodeNamespace_ne_nil h)
    rw [hns] at heq
    cases ns with
    | nil => simp at heq
    | cons d ns => simp at heq

/-- The slash in front is what the middleware puts there exactly for absolute names, and for
relative ones in the root namespace. -/
theorem prefixSlash_eq_iff {getTopicName : Node → Name → Name} (hget : GetTopicName getTopicName)
    {node : Node} {name : Name} (hnode : validNode node = true)
    (hname : validTopicName name = true) :
    World.prefixSlash name = getTopicName node name ↔
      isAbsolute name ∨ (¬ isPrivate name ∧ node.nodeNamespace = ['/']) := by
  by_cases habs : isAbsolute name
  · rw [prefixSlash_of_isAbsolute habs, hget.absolute node name hnode hname habs]
    exact iff_of_true rfl (Or.inl habs)
  · rw [prefixSlash_of_not_isAbsolute habs]
    by_cases hpriv : isPrivate name
    · refine iff_of_false ?_ (by simp [habs, hpriv])
      cases name with
      | nil => cases hpriv
      | cons c name =>
        obtain rfl := Option.some.inj hpriv
        rw [hget.ownNamespace node name hnode hname]
        intro heq
        have heq : ['/', '~'] ++ name = node.fullyQualifiedName ++ name := heq
        exact fullyQualifiedName_ne hnode (List.append_cancel_right heq).symm
    · rw [hget.relative node name hnode hname habs hpriv]
      by_cases hroot : node.nodeNamespace = ['/']
      · simp [hroot, hpriv]
      · rw [if_neg hroot]
        refine iff_of_false ?_ (by simp [habs, hroot])
        intro heq
        have hlen := congrArg List.length heq
        have hpos := List.length_pos_iff.mpr (nodeNamespace_ne_nil hnode)
        simp only [List.length_cons, List.length_append] at hlen
        omega

namespace World

open StaticMocksRegistry

variable {w : World}

/-- As long as no step has destroyed the oldest of several, an entity that is the only living one
registered under its name holds its slot. -/
theorem holdsSlot_of_sole {ops : List Op} (hrun : Runs.run step init ops = some w)
    (hkeep : Runs.EachStep step KeepsOldest init ops) {node : Node} {e : EntityRef} {obj : Entity}
    (haction : obj.kind.isAction = false) (hnode : w.nodes.get? obj.node = some node)
    (hsole : w.liveUnder obj.kind obj.node (registerName obj.kind obj.name) = [e])
    (he : w.entities.get? e = some obj) : HoldsSlot w e obj := by
  obtain ⟨hi, hold⟩ := (always_oldestHeld hkeep).last hrun
  have hlock := hold obj.kind (registerName obj.kind obj.name) obj.node node hnode
  rw [hsole] at hlock
  have hres : resolve obj.kind node.controlBlock (registerName obj.kind obj.name) w = some e := by
    simpa [resolve, lookup, haction] using hlock
  exact ((resolve_iff_holdsSlot hi hnode he _).mp hres).1

/-- **When topic lookup follows name resolution.** A living publisher or subscription created under
a valid name `n` is found under a valid name `m` just when `n` and `m` expand to one name, exactly
when the registry holds it and `m` is absolute, or relative and the node in the root namespace, or
`n` and `m` expand differently and the registry does not hold it under `/m`. -/
theorem topic_found_iff {getTopicName : Node → Name → Name} (hget : GetTopicName getTopicName)
    (h : Reachable w) {node : Node} {e : EntityRef} {obj : Entity}
    (hk : obj.kind = .publisher ∨ obj.kind = .subscription)
    (hnode : w.nodes.get? obj.node = some node) (hvalid : validNode node = true)
    (he : w.entities.get? e = some obj) {n m : Name} (hn : obj.name = getTopicName node n)
    (hm : validTopicName m = true) :
    (Finds obj.kind obj.interface node.controlBlock m e w ↔
        getTopicName node n = getTopicName node m) ↔
      (HoldsSlot w e obj ∧ (isAbsolute m ∨ (¬ isPrivate m ∧ node.nodeNamespace = ['/']))) ∨
        (getTopicName node n ≠ getTopicName node m ∧
          ¬ (HoldsSlot w e obj ∧ getTopicName node n = prefixSlash m)) := by
  obtain ⟨ops, hrun⟩ := h
  obtain ⟨hi, hmocks⟩ := Runs.run_invariant mockInv_step ⟨inv_init, mockInv_init⟩ hrun
  have hne : m ≠ [] := by
    rintro rfl
    exact absurd hm (by decide)
  have hregister : registerName obj.kind obj.name = obj.name := by
    rcases hk with hk | hk <;> rw [hk] <;> rfl
  have hkey : findName obj.kind m = prefixSlash m := by
    rcases hk with hk | hk <;> rw [hk] <;> rfl
  have hfound : Finds obj.kind obj.interface node.controlBlock m e w ↔
      HoldsSlot w e obj ∧ getTopicName node n = prefixSlash m := by
    rw [finds_iff hi hmocks he (fun _ => hne), resolve_iff_holdsSlot hi hnode he, hregister, hkey,
      hn, @eq_comm _ (prefixSlash m)]
  rw [hfound, ← prefixSlash_eq_iff hget hvalid hm]
  constructor
  · intro hiff
    by_cases hsame : getTopicName node n = getTopicName node m
    · obtain ⟨hholds, hprefix⟩ := hiff.mpr hsame
      exact Or.inl ⟨hholds, hprefix.symm.trans hsame⟩
    · exact Or.inr ⟨hsame, fun hfinds => hsame (hiff.mp hfinds)⟩
  · rintro (⟨hholds, hagree⟩ | ⟨hdiff, hmissed⟩)
    · rw [hagree]
      exact ⟨fun hfinds => hfinds.2, fun hsame => ⟨hholds, hsame⟩⟩
    · exact iff_of_false hmissed hdiff

/-- A node in the namespace `/ns` creates a publisher under the relative name `topic` and another
one under `/other`, and then the first anew. -/
def namespacedTopic : List Op :=
  [.createNode ⟨1, 100, "/ns".toList, "node".toList⟩,
    .createEntity .publisher 7 10 0
      (expandTopicName ⟨1, 100, "/ns".toList, "node".toList⟩ "topic".toList),
    .createEntity .publisher 8 20 0 "/other".toList,
    .destroyEntity 0,
    .createEntity .publisher 7 30 0
      (expandTopicName ⟨1, 100, "/ns".toList, "node".toList⟩ "topic".toList)]

theorem topic_found_namespacedTopic :
    let node : Node := ⟨1, 100, "/ns".toList, "node".toList⟩
    let obj : Entity := ⟨.publisher, 7, 30, 0, 1, "/ns/topic".toList, true⟩
    (Finds .publisher 7 1 "/ns/topic".toList 2 (after namespacedTopic) ↔
        expandTopicName node "topic".toList = expandTopicName node "/ns/topic".toList) ↔
      (HoldsSlot (after namespacedTopic) 2 obj ∧ (isAbsolute "/ns/topic".toList ∨
        (¬ isPrivate "/ns/topic".toList ∧ node.nodeNamespace = ['/']))) ∨
      (expandTopicName node "topic".toList ≠ expandTopicName node "/ns/topic".toList ∧
        ¬ (HoldsSlot (after namespacedTopic) 2 obj ∧
          expandTopicName node "topic".toList = prefixSlash "/ns/topic".toList)) :=
  @topic_found_iff (after namespacedTopic) expandTopicName getTopicName_expandTopicName
    ⟨namespacedTopic, run_after (by decide)⟩ ⟨1, 100, "/ns".toList, "node".toList⟩ 2
    ⟨.publisher, 7, 30, 0, 1, "/ns/topic".toList, true⟩ (Or.inl rfl) (by decide) (by decide)
    (by decide) "topic".toList "/ns/topic".toList (by decide) (by decide)

/-- It is the only one registered under its name, and not found under the very name it was created
with. -/
theorem namespacedTopic_missed :
    let w := after namespacedTopic
    Reachable w ∧ w.liveUnder .publisher 0 "/ns/topic".toList = [2] ∧
      HoldsSlot w 2 ⟨.publisher, 7, 30, 0, 1, "/ns/topic".toList, true⟩ ∧
      validTopicName "topic".toList = true ∧
      (find .publisher 7 1 "topic".toList w).1 = .notFound ∧
      ¬ Finds .publisher 7 1 "topic".toList 2 w := by
  have hmissed : (find .publisher 7 1 "topic".toList (after namespacedTopic)).1 = .notFound := by
    decide
  refine ⟨⟨namespacedTopic, run_after (by decide)⟩, by decide, ?_, by decide, hmissed, ?_⟩
  · show (after namespacedTopic).registry.slot .publisher 1 "/ns/topic".toList = some 2
    decide
  · simp only [Finds, hmissed, not_false_eq_true]

end World

end Rtest
