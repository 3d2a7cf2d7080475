import GraphMapping.Proofs.Walk.Keys

/-!
# Walks among settled nodes

Nodes are settled if each of them holds its key and can be stored, and whatever its relationship fields
refer to leads to one of them again.  A walk among settled nodes cannot fail, whatever it has met before.
It plans these nodes only, none of them as new, and takes no key from the generator.
-/

namespace GraphMapping

namespace WalkState

/-- No key was taken from the generator, and none was put down. -/
structure SameKeys (s t : WalkState) : Prop where
  taken : t.taken = s.taken
  assigned : t.plan.assigned = s.plan.assigned

theorem SameKeys.refl (s : WalkState) : SameKeys s s :=
  ⟨rfl, rfl⟩

theorem SameKeys.trans {s t u : WalkState} (h : SameKeys s t) (h' : SameKeys t u) : SameKeys s u :=
  ⟨h'.taken.trans h.taken, h'.assigned.trans h.assigned⟩

end WalkState

namespace Walk

variable {α β : Type} {x : Walk α} {P : α → Prop} {Q : β → Prop}

/-- A step succeeds from every state, and generates no key; `P` holds of what it gives. -/
def Settles (x : Walk α) (P : α → Prop) : Prop :=
  ∀ s, ∃ a t, Gives x s a t ∧ P a ∧ s.SameKeys t

theorem Settles.pure {a : α} (ha : P a) : Settles (pure a) P :=
  fun s => ⟨a, s, gives_pure.2 ⟨rfl, rfl⟩, ha, .refl s⟩

theorem Settles.liftM {a : α} {x : Except Error α} (hx : x = .ok a) (ha : P a) :
    Settles (liftM x) P :=
  fun s => ⟨a, s, gives_liftM.2 ⟨hx, rfl⟩, ha, .refl s⟩

/-- Two steps in a row succeed if the second does after whatever the first gives. -/
theorem Settles.bind {f : α → Walk β} (hx : Settles x P) (hf : ∀ a, P a → Settles (f a) Q) :
    Settles (x >>= f) Q := by
  intro s
  obtain ⟨a, t, hGives, ha, hFirst⟩ := hx s
  obtain ⟨b, u, hNext, hb, hSecond⟩ := hf a ha t
  exact ⟨b, u, gives_bind.2 ⟨a, t, hGives, hNext⟩, hb, hFirst.trans hSecond⟩

theorem Settles.forM {f : α → Walk Unit} {items : List α}
    (h : ∀ a ∈ items, Settles (f a) fun _ => True) : Settles (items.forM f) fun _ => True := by
  induction items with
  | nil => exact fun s => ⟨(), s, gives_forM_nil.2 rfl, trivial, .refl s⟩
  | cons a rest ih =>
      intro s
      obtain ⟨_, t, hHere, -, hFirst⟩ := h a List.mem_cons_self s
      obtain ⟨_, u, hRest, -, hSecond⟩ := ih (fun b hb => h b (List.mem_cons_of_mem _ hb)) t
      exact ⟨(), u, gives_forM_cons.2 ⟨t, hHere, hRest⟩, trivial, hFirst.trans hSecond⟩

end Walk

namespace Walker

open Walk WalkState

variable {σ : Type} (w : Walker σ)

/-- The usable key that an object holds. -/
def heldKey (r : Ref) : Option String :=
  match w.descriptor r with
  | .ok d => d.key?.bind fun pk => (w.heap.value w.model r pk.field).key?
  | .error _ => none

/-- A relationship-object that can be stored under the key it has, where it needs one. -/
structure SettledObject (r : Ref) (d : TypeDescriptor) : Prop where
  stored : ∃ params, snapshot w.model d (w.heap.stateOf r) = .ok params
  keyed : w.registry.strategy.isNative = true ∨ d.key? = none ∨ (w.heldKey r).isSome

/-- Nodes that hold their keys and can be stored, and whose relationship fields lead to one of them: at once,
or by way of a relationship-object that joins the field's owner to one of them. -/
structure Settled (nodes : Ref → Prop) : Prop where
  node : ∀ r, nodes r → ∃ d key params, w.NodeAs r d ∧ w.heldKey r = some key ∧
    snapshot w.model d (w.heap.stateOf r) = .ok params
  reference : ∀ r, nodes r → ∀ role target, (role, target) ∈ w.referencesOf r → nodes target ∨
    ∃ d start finish, w.ObjectAs target d start finish ∧ nodes start ∧ nodes finish ∧
      (start = r ∨ finish = r) ∧ w.SettledObject target d

/-- A relationship is planned from a relationship-object that a field of one of the nodes refers to: it is of
the field's type and joins the keys that the object's ends hold. -/
def ComesFrom (nodes : Ref → Prop) (e : PlannedEdge) (o : Ref) : Prop :=
  ∃ owner role d start finish, nodes owner ∧ (role, o) ∈ w.referencesOf owner ∧
    w.ObjectAs o d start finish ∧ e.object = true ∧ e.label = role.label ∧
    w.heldKey start = some e.start ∧ w.heldKey finish = some e.finish

variable {w} {nodes : Ref → Prop} {r owner target start finish root : Ref} {d : TypeDescriptor}
  {i : Identity} {key ownerKey label : String} {role : RelationshipRole} {came : Option String}
  {s : WalkState} {m : Move} {e : PlannedEdge} {p : Plan} {depth taken hops : Nat}

theorem heldKey_eq_some_iff : w.heldKey r = some key ↔ ∃ d pk, w.descriptor r = .ok d ∧
    d.key? = some pk ∧ (w.heap.value w.model r pk.field).key? = some key := by
  unfold heldKey
  constructor
  · intro h
    cases hType : w.descriptor r with
    | error e =>
        rw [hType] at h
        cases h
    | ok d =>
        rw [hType] at h
        obtain ⟨pk, hPk, hKey⟩ := Option.bind_eq_some_iff.1 h
        exact ⟨d, pk, rfl, hPk, hKey⟩
  · rintro ⟨d, pk, hType, hPk, hKey⟩
    rw [hType]
    exact Option.bind_eq_some_iff.2 ⟨pk, hPk, hKey⟩

/-! ## Steps that cannot fail -/

theorem recordNode_settles (h : ∃ params, snapshot w.model d (w.heap.stateOf r) = .ok params) :
    Settles (w.recordNode r d i) fun _ => True := by
  intro s
  obtain ⟨params, hParams⟩ := h
  by_cases hSeen : (d.label, i.key) ∈ s.nodesSeen
  · exact ⟨(), s, recordNode_iff.2 (.inl ⟨hSeen, rfl⟩), trivial, .refl s⟩
  · exact ⟨(), _, recordNode_iff.2 (.inr ⟨params, hSeen, hParams, rfl⟩), trivial, rfl, rfl⟩

theorem recordEdge_settles : Settles (recordEdge e) fun _ => True := by
  intro s
  by_cases hSeen : edgeMark e ∈ s.edgesSeen
  · exact ⟨(), s, recordEdge_iff.2 (.inl ⟨hSeen, rfl⟩), trivial, .refl s⟩
  · exact ⟨(), _, recordEdge_iff.2 (.inr ⟨hSeen, rfl⟩), trivial, rfl, rfl⟩

/-- No key is generated for a relationship-object that holds a usable one or needs none. -/
theorem objectKey_settles (hType : w.descriptor r = .ok d) (h : w.SettledObject r d) :
    ∃ v, ∀ s, Gives (w.objectKey r d) s v s := by
  unfold objectKey
  cases hPk : d.key? with
  | none => exact ⟨none, fun s => gives_pure.2 ⟨rfl, rfl⟩⟩
  | some pk =>
      dsimp only
      by_cases hNative : w.registry.strategy.isNative = true
      · simp only [hNative, if_true]
        exact ⟨none, fun s => gives_pure.2 ⟨rfl, rfl⟩⟩
      · have hHeld : (w.heldKey r).isSome :=
          (h.keyed.resolve_left hNative).resolve_left (by rw [hPk]; simp)
        obtain ⟨key, hKey⟩ := Option.isSome_iff_exists.1 hHeld
        obtain ⟨d', pk', hType', hPk', hValue⟩ := heldKey_eq_some_iff.1 hKey
        cases ok_unique hType hType'
        cases hPk.symm.trans hPk'
        have hUsable : (w.heap.value w.model r pk.field).key?.isSome = true := by rw [hValue]; rfl
        simp only [hNative, hUsable, Bool.false_eq_true, if_false, if_true]
        exact ⟨_, fun s => gives_pure.2 ⟨rfl, rfl⟩⟩

theorem recordObject_settles {startKey finishKey : String} (hType : w.descriptor r = .ok d)
    (h : w.SettledObject r d) :
    Settles (w.recordObject r d label startKey finishKey) fun _ => True := by
  intro s
  obtain ⟨v, hKey⟩ := objectKey_settles hType h
  obtain ⟨params, hParams⟩ := h.stored
  have hAll : ∃ all, w.objectParams r d v = .ok all := by
    unfold objectParams
    rw [hParams]
    cases d.key? <;> cases v <;> exact ⟨_, rfl⟩
  obtain ⟨all, hAll⟩ := hAll
  by_cases hSeen : r ∈ s.objectsSeen
  · exact ⟨(), s, recordObject_iff.2 (.inl ⟨hSeen, rfl⟩), trivial, .refl s⟩
  · exact ⟨(), _, recordObject_iff.2 (.inr ⟨v, all, _, hSeen, hKey _, hAll, rfl⟩), trivial, rfl, rfl⟩

/-- One of the ends is the object that the walk came from, so that there is another one. -/
theorem opposite_settles {startKey finishKey : String} (hOwner : start = owner ∨ finish = owner) :
    ∃ other, opposite d owner ownerKey start finish startKey finishKey = .ok other ∧
      (other.1 = start ∨ other.1 = finish) := by
  unfold opposite
  split
  · exact ⟨_, rfl, .inr rfl⟩
  · rename_i hNotStart
    have hFinish : finish = owner := hOwner.resolve_left fun h => hNotStart (.inl h)
    rw [if_pos (.inl hFinish)]
    exact ⟨_, rfl, .inl rfl⟩

/-- Going on at a node, unless the walk turns back. -/
theorem onward_settles {visit : Ref → Option String → Walk Unit}
    (hVisit : ∀ r, nodes r → ∀ came, Settles (visit r came) fun _ => True) (hr : nodes r) :
    Settles (if came = some key ∨ key = ownerKey then pure () else visit r (some ownerKey))
      fun _ => True := by
  split
  · exact .pure trivial
  · exact hVisit r hr _

section

variable (h : w.Settled nodes)

include h

theorem Settled.nodeAs (hr : nodes r) : ∃ d, w.NodeAs r d := by
  obtain ⟨d, _, _, hNode, -⟩ := h.node r hr
  exact ⟨d, hNode⟩

theorem Settled.identify (hr : nodes r) (hType : w.descriptor r = .ok d) :
    Settles (w.identify r d) fun _ => True := by
  intro s
  obtain ⟨-, key, -, -, hKey, -⟩ := h.node r hr
  obtain ⟨d', pk, hType', hPk, hValue⟩ := heldKey_eq_some_iff.1 hKey
  cases ok_unique hType hType'
  cases hKnown : s.identities.lookup r with
  | some known => exact ⟨known, s, gives_identify_known hKnown, trivial, .refl s⟩
  | none => exact ⟨_, _, gives_identify_held hKnown hPk hValue, trivial, rfl, rfl⟩

theorem Settled.enter (hr : nodes r) :
    Settles (w.enter r) fun found => w.descriptor r = .ok found.1 := by
  obtain ⟨d, -, params, hNode, -, hParams⟩ := h.node r hr
  unfold Walker.enter
  refine .bind (.liftM hNode.1 rfl) ?_
  rintro _ rfl
  simp only [hNode.2, Bool.false_eq_true, if_false]
  refine .bind (h.identify hr hNode.1) fun i _ => ?_
  exact .bind (recordNode_settles ⟨params, hParams⟩) fun _ _ => .pure hNode.1

theorem Settled.follow {visit : Ref → Option String → Walk Unit}
    (hVisit : ∀ r, nodes r → ∀ came, Settles (visit r came) fun _ => True) (hOwner : nodes owner)
    (hReference : (role, target) ∈ w.referencesOf owner) :
    Settles (w.follow visit owner ownerKey came role target) fun _ => True := by
  unfold Walker.follow
  rcases h.reference owner hOwner role target hReference with hTarget |
    ⟨d, start, finish, ⟨hType, hObject, hEnds⟩, hStart, hFinish, hSide, hSettled⟩
  · obtain ⟨d, hType, hNode⟩ := h.nodeAs hTarget
    refine .bind (.liftM hType rfl) ?_
    rintro _ rfl
    simp only [hNode, Bool.false_eq_true, if_false]
    unfold followNode
    refine .bind (h.identify hTarget hType) fun i _ => ?_
    exact .bind recordEdge_settles fun _ _ => onward_settles hVisit hTarget
  · refine .bind (.liftM hType rfl) ?_
    rintro _ rfl
    simp only [hObject, if_true]
    unfold followObject
    obtain ⟨dStart, hStartType, -⟩ := h.nodeAs hStart
    obtain ⟨dFinish, hFinishType, -⟩ := h.nodeAs hFinish
    refine .bind (.liftM hEnds rfl) ?_
    rintro _ rfl
    refine .bind (.liftM hStartType rfl) ?_
    rintro _ rfl
    refine .bind (h.identify hStart hStartType) fun i _ => ?_
    refine .bind (.liftM hFinishType rfl) ?_
    rintro _ rfl
    refine .bind (h.identify hFinish hFinishType) fun j _ => ?_
    obtain ⟨other, hOther, hEnd⟩ := opposite_settles hSide
    refine .bind (.liftM hOther rfl) ?_
    rintro _ rfl
    refine .bind (recordObject_settles hType hSettled) fun _ _ => onward_settles hVisit ?_
    rcases hEnd with hEnd | hEnd
    · rw [hEnd]
      exact hStart
    · rw [hEnd]
      exact hFinish

/-- A walk among settled nodes succeeds. -/
theorem Settled.visit (hops : Nat) : ∀ r, nodes r → ∀ came, Settles (w.visit hops r came) fun _ => True := by
  -- On the hops left: the visits from the references have one hop less.
  induction hops with
  | zero => exact fun r hr came => .bind (h.enter hr) fun _ _ => .pure trivial
  | succ hops ih =>
      intro r hr came
      unfold Walker.visit
      refine .bind (h.enter hr) ?_
      rintro ⟨d, key⟩ hType
      refine .forM fun reference hReference => h.follow ih hr ?_
      unfold referencesOf
      rw [hType]
      exact hReference

/-- A plan is made from every settled node, and generates no key. -/
theorem Settled.make (hRoot : nodes root) (hDepth : depth ≤ maxDepth) (taken : Nat) :
    ∃ p, Plan.make w.model w.registry w.heap root depth taken = (.ok p, taken) ∧ p.assigned = [] := by
  obtain ⟨d, hType, hNode⟩ := h.nodeAs hRoot
  have hChecked : checkDepth depth = .ok () := if_neg (Nat.not_lt.2 hDepth)
  have hStarts : checkRoot w.registry (w.heap.typeOf root) = .ok () := by
    change (w.descriptor root >>= _) = _
    rw [hType]
    change (if d.isObject = true then _ else _) = _
    rw [hNode]
    rfl
  obtain ⟨_, s, hGives, -, hTaken, hAssigned⟩ := h.visit depth root hRoot none (.start taken)
  refine ⟨s.plan, ?_, hAssigned⟩
  unfold Plan.make
  rw [hChecked, hStarts]
  have hRun : (w.visit depth root none).run (.start taken) = (.ok (), s) := hGives
  simp only [hRun]
  rw [hTaken]
  rfl

/-! ## What is planned -/

/-- A walk from a settled node stays among settled nodes. -/
theorem Settled.visits {keyOf : Ref → String} {start : Option String} (hRoot : nodes root)
    (hVisit : w.Visits keyOf depth root start hops r came) : nodes r := by
  induction hVisit with
  | root => exact hRoot
  | @onward hops r target next came role _ hReference hBeyond _ ih =>
      rcases h.reference r ih role target hReference with hTarget |
        ⟨d, start, finish, hObject, hStart, hFinish, -⟩
      · obtain ⟨d, hType, hNode⟩ := h.nodeAs hTarget
        rw [beyond_of_node hType hNode] at hBeyond
        cases hBeyond
        exact hTarget
      · rcases hObject.beyond_iff.1 hBeyond with ⟨-, rfl⟩ | ⟨-, -, rfl⟩
        · exact hFinish
        · exact hStart

theorem Settled.followed {keyOf : Ref → String} {start : Option String} (hRoot : nodes root)
    (hMove : Move.follow owner role target ∈ w.trail keyOf depth root start) :
    nodes owner ∧ (role, target) ∈ w.referencesOf owner := by
  obtain ⟨hReference, left, came, hVisit⟩ := follow_mem_trail_iff.1 hMove
  exact ⟨h.visits hRoot hVisit, hReference⟩

/-- A node that a relationship field of a settled node refers to is settled. -/
theorem Settled.node_of_reference (hOwner : nodes owner) (hReference : (role, target) ∈ w.referencesOf owner)
    (hNode : w.NodeAs target d) : nodes target := by
  rcases h.reference owner hOwner role target hReference with hTarget | ⟨_, _, _, hObject, -⟩
  · exact hTarget
  · exact absurd hNode hObject.not_node

/-- The ends of a relationship-object that a field of a settled node refers to are settled. -/
theorem Settled.ends_of_reference (hOwner : nodes owner) (hReference : (role, target) ∈ w.referencesOf owner)
    (hObject : w.ObjectAs target d start finish) : nodes start ∧ nodes finish := by
  rcases h.reference owner hOwner role target hReference with hTarget |
    ⟨_, _, _, hObject', hStart, hFinish, -⟩
  · obtain ⟨d', hNode⟩ := h.nodeAs hTarget
    exact absurd hNode hObject.not_node
  · obtain ⟨-, rfl, rfl⟩ := hObject'.unique hObject
    exact ⟨hStart, hFinish⟩

/-- Whatever a walk from a settled node identifies is settled. -/
theorem Settled.concerned {keyOf : Ref → String} {start : Option String} (hRoot : nodes root)
    (hMove : m ∈ w.trail keyOf depth root start) (hConcerns : w.Concerns m r) : nodes r := by
  cases hConcerns with
  | entered =>
      obtain ⟨hops, came, hVisit⟩ := enter_mem_trail_iff.1 hMove
      exact h.visits hRoot hVisit
  | target hNode =>
      obtain ⟨hOwner, hReference⟩ := h.followed hRoot hMove
      exact h.node_of_reference hOwner hReference hNode
  | start hObject =>
      obtain ⟨hOwner, hReference⟩ := h.followed hRoot hMove
      exact (h.ends_of_reference hOwner hReference hObject).1
  | finish hObject =>
      obtain ⟨hOwner, hReference⟩ := h.followed hRoot hMove
      exact (h.ends_of_reference hOwner hReference hObject).2

/-- The identity of a settled node is the key that it holds. -/
theorem Settled.origin (hr : nodes r) (hOrigin : w.Origin r i) :
    i.isNew = false ∧ w.heldKey r = some i.key := by
  obtain ⟨-, key, -, -, hKey, -⟩ := h.node r hr
  obtain ⟨d, pk, hType, hPk, hValue⟩ := heldKey_eq_some_iff.1 hKey
  cases hOrigin with
  | held hType' hPk' hHeld => exact ⟨rfl, heldKey_eq_some_iff.2 ⟨_, _, hType', hPk', hHeld⟩⟩
  | temporary hType' hPk' hNone =>
      cases ok_unique hType hType'
      cases hPk.symm.trans hPk'
      rw [hNone] at hValue
      cases hValue
  | generated hType' hPk' hNone =>
      cases ok_unique hType hType'
      cases hPk.symm.trans hPk'
      rw [hNone] at hValue
      cases hValue

end

section

variable (h : w.Settled nodes) (hRoot : nodes root) (hFinished : w.Finished root depth taken p s)
  (hIdentities : w.IdentityRecords (w.trail (w.givenKey root depth taken) depth root none) s)

include h hRoot hFinished hIdentities

theorem Settled.identified (hr : Identified s r) :
    nodes r ∧ w.heldKey r = some (w.givenKey root depth taken r) := by
  obtain ⟨m, hMove, hConcerns⟩ := hIdentities.reason r hr
  have hNode := h.concerned hRoot hMove hConcerns
  obtain ⟨i, hi⟩ := hr
  refine ⟨hNode, ?_⟩
  rw [(h.origin hNode (hIdentities.origin r i hi)).2, hFinished.given hi]

/-- The planned nodes are settled ones, with the labels of their types and under the keys that they hold. -/
theorem Settled.planned_node {n : PlannedNode} (hn : n ∈ p.allNodes) :
    nodes n.ref ∧ (∃ d, w.NodeAs n.ref d ∧ n.label = d.label) ∧ n.isNew = false ∧
      w.heldKey n.ref = some n.identity := by
  rw [← hFinished.plan] at hn
  obtain ⟨hMove, d, i, params, hAs, hi, -, hEq⟩ := hFinished.recorded.nodes.planned n hn
  have hNode := h.concerned hRoot hMove .entered
  obtain ⟨hOld, hKey⟩ := h.origin hNode (hIdentities.origin _ i hi)
  refine ⟨hNode, ⟨d, hAs, ?_⟩, ?_, ?_⟩
  · rw [hEq]
    rfl
  · rw [hEq]
    exact hOld
  · rw [hKey, hEq]
    rfl

/-- A planned relationship without an object is that of a reference from one settled node to another. -/
theorem Settled.planned_plain (he : e ∈ p.allEdges) (hPlain : e.object = false) :
    ∃ owner role target ownerKey targetKey, nodes owner ∧ nodes target ∧
      (role, target) ∈ w.referencesOf owner ∧ w.heldKey owner = some ownerKey ∧
      w.heldKey target = some targetKey ∧ e = plainEdge role ownerKey targetKey := by
  rw [← hFinished.plan] at he
  obtain ⟨owner, role, target, d, hMove, hNode, hEdge⟩ :=
    hFinished.recorded.edges.planned e he hPlain
  obtain ⟨hReference, left, came, hVisit⟩ := follow_mem_trail_iff.1 hMove
  obtain ⟨hOwner, hOwnerKey⟩ :=
    h.identified hRoot hFinished hIdentities (identified_of_visit hFinished hVisit)
  obtain ⟨hTarget, hTargetKey⟩ := h.identified hRoot hFinished hIdentities
    (hFinished.recorded.edges.met owner role target d hMove hNode).1
  exact ⟨owner, role, target, _, _, hOwner, hTarget, hReference, hOwnerKey, hTargetKey, hEdge⟩

/-- The planned relationships with objects are those of different relationship-objects that settled nodes
refer to, each between the ends of its object. -/
theorem Settled.planned_objects : ∃ objects : List Ref, objects.Nodup ∧
    List.Forall₂ (w.ComesFrom nodes) (p.allEdges.filter (·.object)) objects := by
  obtain ⟨objects, hSame, hEach⟩ := hFinished.recorded.objects.each
  rw [hFinished.plan] at hEach
  refine ⟨objects, hSame.nodup_iff.1 hFinished.recorded.objects.once, hEach.imp ?_⟩
  rintro e o ⟨⟨owner, role, d, start, finish, key, params, hMove, hObject, -, rfl⟩, -⟩
  obtain ⟨hOwner, hReference⟩ := h.followed hRoot hMove
  obtain ⟨-, hStart, hFinish, -⟩ := met_of_object hFinished hMove hObject
  exact ⟨owner, role, d, start, finish, hOwner, hReference, hObject, rfl, rfl,
    (h.identified hRoot hFinished hIdentities hStart).2,
    (h.identified hRoot hFinished hIdentities hFinish).2⟩

end

end Walker

end GraphMapping
