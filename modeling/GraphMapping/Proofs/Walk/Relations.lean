import GraphMapping.Proofs.Walk.Visits

/-!
# What planned relationships relate

A planned relationship names its ends by their keys only.  `Relates` says between which objects it
stands in the object graph.  Every planned relationship stands between two objects, and the keys of both
are keys of planned nodes, also where the walk has turned back instead of visiting the second one.
-/

namespace GraphMapping

/-- Owner and target of a relationship field as the start and the end of the relationship. -/
def oriented {α : Type} (direction : Direction) (owner target : α) : α × α :=
  match direction with
  | .incoming => (target, owner)
  | _ => (owner, target)

theorem plainEdge_ends (role : RelationshipRole) (ownerKey targetKey : String) :
    ((plainEdge role ownerKey targetKey).start, (plainEdge role ownerKey targetKey).finish) =
      oriented role.direction ownerKey targetKey := by
  cases hDirection : role.direction <;> simp only [plainEdge, hDirection, oriented]

namespace Walker

open WalkState

variable {σ : Type} (w : Walker σ)

/-- The label of an object, or the relationship type that it stands for. -/
def labelOf (r : Ref) : Option String :=
  match w.descriptor r with
  | .ok d => some d.label
  | .error _ => none

/-- Objects of different labels have different keys. -/
def KeysApart (root : Ref) (depth taken : Nat) : Prop :=
  ∀ a b key, w.identityOf root depth taken a = some key →
    w.identityOf root depth taken b = some key → w.labelOf a = w.labelOf b

/-- A planned relationship is that of a relationship-object between two ends: it stands between their
identities, under the type of a node's field that lists the object, and has the object's properties. -/
def IsRelationshipOf (root : Ref) (depth taken : Nat) (e : PlannedEdge)
    (object start finish : Ref) : Prop :=
  ∃ owner dOwner role d, w.NodeAs owner dOwner ∧ (role, object) ∈ w.referencesOf owner ∧
    w.ObjectAs object d start finish ∧ e.label = role.label ∧ e.object = true ∧
    w.identityOf root depth taken start = some e.start ∧
    w.identityOf root depth taken finish = some e.finish ∧
    w.objectParams object d e.key = .ok e.params

/-- A planned relationship stands between two objects: they are the owner and the target of a
relationship field, as its direction says, or the ends of a relationship-object. -/
inductive Relates (root : Ref) (depth taken : Nat) (e : PlannedEdge) : Ref → Ref → Prop
  | plain {owner target : Ref} {role : RelationshipRole} {d : TypeDescriptor}
      {ownerKey targetKey : String}
      (hReference : (role, target) ∈ w.referencesOf owner) (hNode : w.NodeAs target d)
      (hOwner : w.identityOf root depth taken owner = some ownerKey)
      (hTarget : w.identityOf root depth taken target = some targetKey)
      (hEdge : e = plainEdge role ownerKey targetKey) :
      Relates root depth taken e (oriented role.direction owner target).1
        (oriented role.direction owner target).2
  | object {object start finish : Ref}
      (hRelationship : w.IsRelationshipOf root depth taken e object start finish) :
      Relates root depth taken e start finish

variable {w} {root r target next : Ref} {depth taken hops : Nat} {p : Plan} {s : WalkState}
  {role : RelationshipRole} {came : Option String} {e : PlannedEdge}

theorem labelOf_eq_some {label : String} :
    w.labelOf r = some label ↔ ∃ d, w.descriptor r = .ok d ∧ d.label = label := by
  unfold labelOf
  cases hType : w.descriptor r with
  | error e =>
      constructor
      · intro h
        cases h
      · rintro ⟨d, h, -⟩
        cases h
  | ok d =>
      constructor
      · intro h
        exact ⟨d, rfl, Option.some.inj h⟩
      · rintro ⟨d', h, rfl⟩
        cases h
        rfl

/-- The objects that a relationship stands between have the keys of its ends. -/
theorem Relates.keys {a b : Ref} (h : w.Relates root depth taken e a b) :
    w.identityOf root depth taken a = some e.start ∧
      w.identityOf root depth taken b = some e.finish := by
  cases h with
  | @plain owner target role d ownerKey targetKey hReference hNode hOwner hTarget hEdge =>
      have hEnds := plainEdge_ends role ownerKey targetKey
      rw [← hEdge] at hEnds
      have hStart : e.start = (oriented role.direction ownerKey targetKey).1 :=
        congrArg Prod.fst hEnds
      have hFinish : e.finish = (oriented role.direction ownerKey targetKey).2 :=
        congrArg Prod.snd hEnds
      rw [hStart, hFinish]
      cases role.direction <;> first | exact ⟨hOwner, hTarget⟩ | exact ⟨hTarget, hOwner⟩
  | object hRelationship =>
      obtain ⟨_, _, _, _, -, -, -, -, -, hStart, hFinish, -⟩ := hRelationship
      exact ⟨hStart, hFinish⟩

section

variable (hFinished : w.Finished root depth taken p s)

include hFinished

theorem identified_of_visit
    (h : w.Visits (w.givenKey root depth taken) depth root none hops r came) : Identified s r := by
  have hEnter := enter_mem_trail_iff.2 ⟨hops, came, h⟩
  exact (hFinished.recorded.nodes.entered r hEnter).1

theorem node_of_visit
    (h : w.Visits (w.givenKey root depth taken) depth root none hops r came) :
    ∃ d, w.NodeAs r d := by
  obtain ⟨-, d, hNode, -⟩ := hFinished.recorded.nodes.entered r (enter_mem_trail_iff.2 ⟨hops, came, h⟩)
  exact ⟨d, hNode⟩

/-- A planned node has the label and the identity of its object. -/
theorem planned_node {n : PlannedNode} (hn : n ∈ p.allNodes) :
    ∃ d, w.NodeAs n.ref d ∧ n.label = d.label ∧
      w.identityOf root depth taken n.ref = some n.identity := by
  rw [← hFinished.plan] at hn
  obtain ⟨-, d, i, params, hNode, hi, -, hEq⟩ := hFinished.recorded.nodes.planned n hn
  refine ⟨d, hNode, ?_, ?_⟩
  · rw [hEq]
    rfl
  · rw [hFinished.identity, hi, hEq]
    rfl

/-- Where no two labels share a key, a planned node has the label of every object with its key. -/
theorem planned_label (hApart : w.KeysApart root depth taken) {n : PlannedNode}
    (hn : n ∈ p.allNodes) (hKey : w.identityOf root depth taken r = some n.identity) :
    w.labelOf r = some n.label := by
  obtain ⟨d, hNode, hLabel, hGiven⟩ := planned_node hFinished hn
  rw [hApart r n.ref n.identity hKey hGiven, labelOf_eq_some]
  exact ⟨d, hNode.1, hLabel.symm⟩

/-- A followed relationship-object is recorded, both of its ends have identities, and its owner is one
of them. -/
theorem met_of_object {owner object start finish : Ref} {d : TypeDescriptor}
    (hMove : Move.follow owner role object ∈ w.trail (w.givenKey root depth taken) depth root none)
    (hObject : w.ObjectAs object d start finish) :
    object ∈ s.objectsSeen ∧ Identified s start ∧ Identified s finish ∧
      ∃ other, opposite d owner (w.givenKey root depth taken owner) start finish
        (w.givenKey root depth taken start) (w.givenKey root depth taken finish) = .ok other := by
  rcases hFinished.recorded.objects.met owner role object hMove with
    ⟨d', hNode⟩ | ⟨d', start', finish', other, hObject', hSeen, hStart, hFinish, hOther⟩
  · exact absurd hNode hObject.not_node
  · obtain ⟨rfl, rfl, rfl⟩ := hObject'.unique hObject
    exact ⟨hSeen, hStart, hFinish, other, hOther⟩

/-- What is planned for a relationship-object is its relationship. -/
theorem isRelationshipOf_of_carries {object : Ref}
    (h : w.Carries (w.givenKey root depth taken)
      (w.trail (w.givenKey root depth taken) depth root none) e object) :
    ∃ start finish, w.IsRelationshipOf root depth taken e object start finish := by
  obtain ⟨owner, role, d, start, finish, key, params, hMove, hObject, hParams, rfl⟩ := h
  obtain ⟨hReference, left, came, hVisit⟩ := follow_mem_trail_iff.1 hMove
  obtain ⟨dOwner, hOwner⟩ := node_of_visit hFinished hVisit
  obtain ⟨-, hStart, hFinish, -⟩ := met_of_object hFinished hMove hObject
  exact ⟨start, finish, owner, dOwner, role, d, hOwner, hReference, hObject, rfl, rfl,
    hFinished.identified_iff.1 hStart, hFinished.identified_iff.1 hFinish, hParams⟩

/-- Each planned relationship comes from a reference that the walk has followed. -/
theorem planned_edge_cases (he : e ∈ p.allEdges) :
    (∃ owner role target d, Move.follow owner role target ∈
        w.trail (w.givenKey root depth taken) depth root none ∧ w.NodeAs target d ∧
      e = plainEdge role (w.givenKey root depth taken owner) (w.givenKey root depth taken target)) ∨
    ∃ object, w.Carries (w.givenKey root depth taken)
      (w.trail (w.givenKey root depth taken) depth root none) e object := by
  rw [← hFinished.plan] at he
  cases hObject : e.object with
  | false =>
      exact .inl (hFinished.recorded.edges.planned e he hObject)
  | true =>
      obtain ⟨pairs, hPerm, -, hCarries⟩ := hFinished.recorded.objects.planned
      have hMem : e ∈ pairs.map (·.1) := by
        rw [hPerm.mem_iff]
        exact List.mem_filter.2 ⟨he, hObject⟩
      obtain ⟨pair, hPair, rfl⟩ := List.mem_map.1 hMem
      exact .inr ⟨pair.2, (hCarries pair hPair).1⟩

/-- Every planned relationship stands between two objects. -/
theorem relates_of_planned (he : e ∈ p.allEdges) : ∃ a b, w.Relates root depth taken e a b := by
  rcases planned_edge_cases hFinished he with ⟨owner, role, target, d, hMove, hNode, hEdge⟩ |
    ⟨object, hCarries⟩
  · obtain ⟨hReference, left, came, hVisit⟩ := follow_mem_trail_iff.1 hMove
    have hOwner := identified_of_visit hFinished hVisit
    have hTarget := (hFinished.recorded.edges.met owner role target d hMove hNode).1
    exact ⟨_, _, .plain hReference hNode (hFinished.identified_iff.1 hOwner)
      (hFinished.identified_iff.1 hTarget) hEdge⟩
  · obtain ⟨start, finish, hRelationship⟩ := isRelationshipOf_of_carries hFinished hCarries
    exact ⟨start, finish, .object hRelationship⟩

theorem placed_of_visit
    (h : w.Visits (w.givenKey root depth taken) depth root none hops r came) :
    ∃ n ∈ p.allNodes, n.identity = w.givenKey root depth taken r := by
  have hEnter := enter_mem_trail_iff.2 ⟨hops, came, h⟩
  obtain ⟨-, d, -, n, hn, -, hIdentity⟩ := hFinished.recorded.nodes.entered r hEnter
  rw [hFinished.plan] at hn
  exact ⟨n, hn, hIdentity⟩

theorem placed_of_came {key : String}
    (h : w.Visits (w.givenKey root depth taken) depth root none hops r came)
    (hCame : came = some key) : ∃ n ∈ p.allNodes, n.identity = key := by
  cases h with
  | root => cases hCame
  | onward hVisit _ _ _ =>
      cases hCame
      exact placed_of_visit hFinished hVisit

/-- The key of the node that a reference leads to is planned, whether or not the walk goes there. -/
theorem placed_of_beyond
    (hVisit : w.Visits (w.givenKey root depth taken) depth root none (hops + 1) r came)
    (hReference : (role, target) ∈ w.referencesOf r)
    (hBeyond : w.beyond (w.givenKey root depth taken) r target = some next) :
    ∃ n ∈ p.allNodes, n.identity = w.givenKey root depth taken next := by
  -- Where the walk turns back, it came from a node with this key or stands on one.
  by_cases hBack : came = some (w.givenKey root depth taken next) ∨
      w.givenKey root depth taken next = w.givenKey root depth taken r
  · rcases hBack with hCame | hStay
    · exact placed_of_came hFinished hVisit hCame
    · rw [hStay]
      exact placed_of_visit hFinished hVisit
  · exact placed_of_visit hFinished (.onward hVisit hReference hBeyond hBack)

/-- Both keys that a planned relationship names are keys of planned nodes. -/
theorem placed_of_planned (he : e ∈ p.allEdges) :
    (∃ n ∈ p.allNodes, n.identity = e.start) ∧ ∃ n ∈ p.allNodes, n.identity = e.finish := by
  rcases planned_edge_cases hFinished he with ⟨owner, role, target, d, hMove, hNode, hEdge⟩ |
    ⟨object, owner, role, d, start, finish, key, params, hMove, hObject, -, rfl⟩
  · obtain ⟨hReference, left, came, hVisit⟩ := follow_mem_trail_iff.1 hMove
    have hBeyond : w.beyond (w.givenKey root depth taken) owner target = some target :=
      beyond_of_node hNode.1 hNode.2
    have hOwner := placed_of_visit hFinished hVisit
    have hTarget := placed_of_beyond hFinished hVisit hReference hBeyond
    have hEnds := plainEdge_ends role (w.givenKey root depth taken owner)
      (w.givenKey root depth taken target)
    rw [← hEdge] at hEnds
    have hStart := congrArg Prod.fst hEnds
    have hFinish := congrArg Prod.snd hEnds
    simp only at hStart hFinish
    rw [hStart, hFinish]
    cases role.direction <;> first | exact ⟨hOwner, hTarget⟩ | exact ⟨hTarget, hOwner⟩
  · obtain ⟨hReference, left, came, hVisit⟩ := follow_mem_trail_iff.1 hMove
    have hOwner := placed_of_visit hFinished hVisit
    obtain ⟨-, -, -, other, hOther⟩ := met_of_object hFinished hMove hObject
    have hBeyond : w.beyond (w.givenKey root depth taken) owner object = some other.1 :=
      beyond_of_object hObject.1 hObject.2.1 hObject.2.2 hOther
    have hNext := placed_of_beyond hFinished hVisit hReference hBeyond
    -- The owner is one of the ends and was visited; the other end lies beyond the object.
    rcases hObject.beyond_iff.1 hBeyond with ⟨hKey, hFar⟩ | ⟨-, hKey, hFar⟩
    · rw [hKey, hFar]
      exact ⟨hOwner, hNext⟩
    · rw [hKey, hFar]
      exact ⟨hNext, hOwner⟩

end

end Walker

end GraphMapping
