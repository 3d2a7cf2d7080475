import GraphMapping.Proofs.Dict.Groups
import GraphMapping.Proofs.Results
import GraphMapping.Proofs.Walk.Trail
import Mathlib.Data.List.Forall2
import Mathlib.Data.List.Perm.Basic

/-!
# What a walk records

A walk records each node once for its label and key, each plain relationship once for its type and its
ends' keys, and each relationship-object once.  The three invariants of this file say what the records
are after any number of moves: nothing but what the moves are about, and all of that.
-/

namespace GraphMapping

namespace Plan

theorem allNodes_eq (p : Plan) : p.allNodes = Dict.members p.nodes := rfl

theorem allEdges_eq (p : Plan) : p.allEdges = Dict.members p.edges := rfl

end Plan

namespace Walker

open Walk WalkState

variable {σ : Type} (w : Walker σ)

/-- The object is of a registered node type with this descriptor. -/
def NodeAs (r : Ref) (d : TypeDescriptor) : Prop :=
  w.descriptor r = .ok d ∧ d.isObject = false

/-- The object is of a registered relationship-object type and has both ends. -/
def ObjectAs (r : Ref) (d : TypeDescriptor) (start finish : Ref) : Prop :=
  w.descriptor r = .ok d ∧ d.isObject = true ∧ w.endsOf r d = .ok (start, finish)

/-- The walk has given the object an identity. -/
def Identified (s : WalkState) (r : Ref) : Prop :=
  ∃ i, s.identities.lookup r = some i

/-- A planned node is what the walk makes of its object. -/
def Depicts (s : WalkState) (n : PlannedNode) : Prop :=
  ∃ d i params, w.NodeAs n.ref d ∧ s.identities.lookup n.ref = some i ∧
    snapshot w.model d (w.heap.stateOf n.ref) = .ok params ∧ n = w.plannedNode n.ref d i params

/-- A planned relationship is what the walk makes of a relationship-object between two ends. -/
def Carries (keyOf : Ref → String) (moves : List Move) (e : PlannedEdge) (r : Ref) : Prop :=
  ∃ owner role d start finish key params, Move.follow owner role r ∈ moves ∧
    w.ObjectAs r d start finish ∧ w.objectParams r d key = .ok params ∧
    e = ⟨keyOf start, keyOf finish, role.label, false, true, key, params⟩

/-- The key of a relationship-object's relationship: none if its type has no key or the database assigns
keys, else the one that the object holds, or a generated one if it holds none. -/
inductive Bears (r : Ref) : Option Value → Prop
  | keyless {d : TypeDescriptor} (hType : w.descriptor r = .ok d)
      (hNone : d.key? = none ∨ w.registry.strategy.isNative = true) : Bears r none
  | held {d : TypeDescriptor} {pk : FieldDescriptor} (hType : w.descriptor r = .ok d)
      (hPk : d.key? = some pk) (hNative : w.registry.strategy.isNative = false)
      (hKey : (w.heap.value w.model r pk.field).key?.isSome = true) :
      Bears r (some (w.heap.value w.model r pk.field))
  | generated {d : TypeDescriptor} {pk : FieldDescriptor} {n : Nat} {key : Option Value}
      (hType : w.descriptor r = .ok d) (hPk : d.key? = some pk)
      (hNative : w.registry.strategy.isNative = false)
      (hNone : (w.heap.value w.model r pk.field).key? = none)
      (hValue : (w.registry.strategy.generate n).1 = .ok key) : Bears r key

/-- What is recorded of nodes after some moves. -/
structure NodeRecords (keyOf : Ref → String) (moves : List Move) (s : WalkState) : Prop where
  groups : Dict.Groups PlannedNode.label s.plan.nodes
  planned : ∀ n ∈ s.plan.allNodes, Move.enter n.ref ∈ moves ∧ w.Depicts s n
  distinct : (s.plan.allNodes.map fun n => (n.label, n.identity)).Nodup
  seen : ∀ place, place ∈ s.nodesSeen ↔ ∃ n ∈ s.plan.allNodes, (n.label, n.identity) = place
  entered : ∀ r, Move.enter r ∈ moves → Identified s r ∧
    ∃ d, w.NodeAs r d ∧ ∃ n ∈ s.plan.allNodes, n.label = d.label ∧ n.identity = keyOf r

/-- What is recorded of plain relationships after some moves. -/
structure EdgeRecords (keyOf : Ref → String) (moves : List Move) (s : WalkState) : Prop where
  groups : Dict.Groups PlannedEdge.label s.plan.edges
  planned : ∀ e ∈ s.plan.allEdges, e.object = false → ∃ owner role target d,
    Move.follow owner role target ∈ moves ∧ w.NodeAs target d ∧
      e = plainEdge role (keyOf owner) (keyOf target)
  marked : ∀ mark ∈ s.edgesSeen, ∃ e ∈ s.plan.allEdges, e.object = false ∧ edgeMark e = mark
  met : ∀ owner role target d, Move.follow owner role target ∈ moves → w.NodeAs target d →
    Identified s target ∧ edgeMark (plainEdge role (keyOf owner) (keyOf target)) ∈ s.edgesSeen

/-- What is recorded of relationship-objects after some moves. -/
structure ObjectRecords (keyOf : Ref → String) (moves : List Move) (s : WalkState) : Prop where
  once : s.objectsSeen.Nodup
  planned : ∃ pairs : List (PlannedEdge × Ref),
    (pairs.map (·.1)).Perm (s.plan.allEdges.filter (·.object)) ∧
    pairs.map (·.2) = s.objectsSeen ∧
    ∀ pair ∈ pairs, w.Carries keyOf moves pair.1 pair.2 ∧ w.Bears pair.2 pair.1.key
  met : ∀ owner role r, Move.follow owner role r ∈ moves →
    (∃ d, w.NodeAs r d) ∨
    ∃ d start finish other, w.ObjectAs r d start finish ∧ r ∈ s.objectsSeen ∧ Identified s start ∧
      Identified s finish ∧
      opposite d owner (keyOf owner) start finish (keyOf start) (keyOf finish) = .ok other

variable {w} {keyOf : Ref → String} {moves : List Move} {m : Move} {s t u : WalkState}

theorem NodeAs.unique {r : Ref} {d d' : TypeDescriptor} (h : w.NodeAs r d) (h' : w.NodeAs r d') :
    d = d' :=
  ok_unique h.1 h'.1

theorem ObjectAs.not_node {r start finish : Ref} {d d' : TypeDescriptor}
    (h : w.ObjectAs r d start finish) : ¬ w.NodeAs r d' := by
  intro h'
  have hObject := h.2.1
  rw [ok_unique h.1 h'.1, h'.2] at hObject
  cases hObject

theorem ObjectAs.unique {r start finish start' finish' : Ref} {d d' : TypeDescriptor}
    (h : w.ObjectAs r d start finish) (h' : w.ObjectAs r d' start' finish') :
    d = d' ∧ start = start' ∧ finish = finish' := by
  have hType : d = d' := ok_unique h.1 h'.1
  subst hType
  exact ⟨rfl, Prod.ext_iff.1 (ok_unique h.2.2 h'.2.2)⟩

/-- A reference to a relationship-object leads from an owner with the key of its start to its end, else
from one with the key of its end to its start. -/
theorem ObjectAs.beyond_iff {owner target start finish next : Ref} {d : TypeDescriptor}
    (h : w.ObjectAs target d start finish) : w.beyond keyOf owner target = some next ↔
      (keyOf start = keyOf owner ∧ finish = next) ∨
        (keyOf start ≠ keyOf owner ∧ keyOf finish = keyOf owner ∧ start = next) := by
  obtain ⟨hType, hObject, hEnds⟩ := h
  have hSameKey : ∀ q, (q = owner ∨ keyOf q = keyOf owner) ↔ keyOf q = keyOf owner :=
    fun q => ⟨fun h => h.elim (congrArg keyOf) id, .inr⟩
  simp only [beyond, hType, hObject, hEnds, if_true, opposite, hSameKey]
  by_cases hStart : keyOf start = keyOf owner
  · simp [hStart, Except.toOption]
  · by_cases hFinish : keyOf finish = keyOf owner
    · simp [hStart, hFinish, Except.toOption]
    · simp [hStart, hFinish, Except.toOption]

theorem Identified.mono {r : Ref} (h : Identified s r) (hRemembers : Remembers s t) :
    Identified t r := by
  obtain ⟨i, hi⟩ := h
  exact ⟨i, hRemembers r i hi⟩

theorem Depicts.mono {n : PlannedNode} (h : w.Depicts s n) (hRemembers : Remembers s t) :
    w.Depicts t n := by
  obtain ⟨d, i, params, hNode, hi, hParams, hn⟩ := h
  exact ⟨d, i, params, hNode, hRemembers _ _ hi, hParams, hn⟩

theorem Carries.mono {e : PlannedEdge} {r : Ref} {more : List Move}
    (h : w.Carries keyOf moves e r) : w.Carries keyOf (moves ++ more) e r := by
  obtain ⟨owner, role, d, start, finish, key, params, hMove, hObject, hParams, he⟩ := h
  exact ⟨owner, role, d, start, finish, key, params, List.mem_append_left _ hMove, hObject, hParams,
    he⟩

/-! ## What a move leaves alone -/

theorem recordNode_keeps {r : Ref} {d : TypeDescriptor} {i : Identity}
    (h : Gives (w.recordNode r d i) s () t) :
    t.identities = s.identities ∧ t.plan.edges = s.plan.edges ∧ t.edgesSeen = s.edgesSeen ∧
      t.objectsSeen = s.objectsSeen := by
  obtain ⟨-, rfl⟩ | ⟨params, -, -, rfl⟩ := recordNode_iff.1 h <;> exact ⟨rfl, rfl, rfl, rfl⟩

theorem recordEdge_keeps {e : PlannedEdge} (h : Gives (recordEdge e) s () t) :
    t.identities = s.identities ∧ t.plan.nodes = s.plan.nodes ∧ t.nodesSeen = s.nodesSeen ∧
      t.objectsSeen = s.objectsSeen := by
  obtain ⟨-, rfl⟩ | ⟨-, rfl⟩ := recordEdge_iff.1 h <;> exact ⟨rfl, rfl, rfl, rfl⟩

theorem recordObject_keeps {r : Ref} {d : TypeDescriptor} {label start finish : String}
    (h : Gives (w.recordObject r d label start finish) s () t) :
    t.identities = s.identities ∧ t.plan.nodes = s.plan.nodes ∧ t.nodesSeen = s.nodesSeen ∧
      t.edgesSeen = s.edgesSeen := by
  obtain ⟨-, rfl⟩ | ⟨key, params, v, -, hKey, -, rfl⟩ := recordObject_iff.1 h
  · exact ⟨rfl, rfl, rfl, rfl⟩
  · obtain ⟨hSame, hIdentities⟩ := objectKey_sameRecords hKey
    exact ⟨hIdentities, hSame.nodes, hSame.nodesSeen, hSame.edgesSeen⟩

/-- What a followed reference to a node does: the target is identified and the relationship recorded. -/
theorem Moves.plain_cases {owner target : Ref} {role : RelationshipRole} {d : TypeDescriptor}
    (h : w.Moves keyOf (.follow owner role target) s t) (hNode : w.NodeAs target d) :
    ∃ u, SameRecords s u ∧ Remembers s u ∧ Identified u target ∧
      Gives (recordEdge (plainEdge role (keyOf owner) (keyOf target))) u () t := by
  cases h with
  | plain hType hTarget hIdentify hKey hRecord =>
      obtain ⟨hSame, hRemembers, hKnown⟩ := identify_keeps hIdentify
      exact ⟨_, hSame, hRemembers, ⟨_, hKnown⟩, hRecord⟩
  | object hType hObject hEnds _ _ _ _ _ _ _ _ =>
      exact absurd hNode (ObjectAs.not_node ⟨hType, hObject, hEnds⟩)

/-- What a followed reference to a relationship-object does: both ends are identified, the owner is one
of them, and the relationship is recorded. -/
theorem Moves.object_cases {owner target start finish : Ref} {role : RelationshipRole}
    {d : TypeDescriptor} (h : w.Moves keyOf (.follow owner role target) s t)
    (hObject : w.ObjectAs target d start finish) :
    ∃ u other, SameRecords s u ∧ Remembers s u ∧ Identified u start ∧ Identified u finish ∧
      opposite d owner (keyOf owner) start finish (keyOf start) (keyOf finish) = .ok other ∧
      Gives (w.recordObject target d role.label (keyOf start) (keyOf finish)) u () t := by
  cases h with
  | plain hType hTarget hIdentify hKey hRecord =>
      exact absurd ⟨hType, hTarget⟩ hObject.not_node
  | object hType hIsObject hEnds hStartType hStart hStartKey hFinishType hFinish hFinishKey
      hOpposite hRecord =>
      obtain ⟨rfl, rfl, rfl⟩ := ObjectAs.unique ⟨hType, hIsObject, hEnds⟩ hObject
      obtain ⟨hSame, hFirst, hStartKnown⟩ := identify_keeps hStart
      obtain ⟨hSame', hSecond, hFinishKnown⟩ := identify_keeps hFinish
      exact ⟨_, _, hSame.trans hSame', hFirst.trans hSecond, ⟨_, hSecond _ _ hStartKnown⟩,
        ⟨_, hFinishKnown⟩, hOpposite, hRecord⟩

/-- A followed reference leads to a node or to a relationship-object with both ends. -/
theorem Moves.target_cases {owner target : Ref} {role : RelationshipRole}
    (h : w.Moves keyOf (.follow owner role target) s t) :
    (∃ d, w.NodeAs target d) ∨ ∃ d start finish, w.ObjectAs target d start finish := by
  cases h with
  | plain hType hTarget _ _ _ => exact .inl ⟨_, hType, hTarget⟩
  | object hType hObject hEnds _ _ _ _ _ _ _ _ => exact .inr ⟨_, _, _, hType, hObject, hEnds⟩

/-- Following a reference forgets nothing and leaves the nodes alone. -/
theorem Moves.follow_keeps {owner target : Ref} {role : RelationshipRole}
    (h : w.Moves keyOf (.follow owner role target) s t) :
    Remembers s t ∧ t.plan.nodes = s.plan.nodes ∧ t.nodesSeen = s.nodesSeen := by
  obtain ⟨d, hNode⟩ | ⟨d, start, finish, hObject⟩ := h.target_cases
  · obtain ⟨u, hSame, hRemembers, -, hRecord⟩ := h.plain_cases hNode
    obtain ⟨hIdentities, hNodes, hSeen, -⟩ := recordEdge_keeps hRecord
    exact ⟨hRemembers.trans (.of_eq hIdentities), hNodes.trans hSame.nodes,
      hSeen.trans hSame.nodesSeen⟩
  · obtain ⟨u, other, hSame, hRemembers, -, -, -, hRecord⟩ := h.object_cases hObject
    obtain ⟨hIdentities, hNodes, hSeen, -⟩ := recordObject_keeps hRecord
    exact ⟨hRemembers.trans (.of_eq hIdentities), hNodes.trans hSame.nodes,
      hSeen.trans hSame.nodesSeen⟩

/-- Entering a node forgets nothing and leaves the relationships alone. -/
theorem Moves.enter_keeps {r : Ref} (h : w.Moves keyOf (.enter r) s t) :
    Remembers s t ∧ t.plan.edges = s.plan.edges ∧ t.edgesSeen = s.edgesSeen ∧
      t.objectsSeen = s.objectsSeen := by
  cases h with
  | enter hType hNode hIdentify hKey hRecord =>
      obtain ⟨hSame, hRemembers, -⟩ := identify_keeps hIdentify
      obtain ⟨hIdentities, hEdges, hEdgesSeen, hObjectsSeen⟩ := recordNode_keeps hRecord
      exact ⟨hRemembers.trans (.of_eq hIdentities), hEdges.trans hSame.edges,
        hEdgesSeen.trans hSame.edgesSeen, hObjectsSeen.trans hSame.objectsSeen⟩

theorem Moves.remembers (h : w.Moves keyOf m s t) : Remembers s t := by
  cases m with
  | enter r => exact h.enter_keeps.1
  | follow owner role target => exact h.follow_keeps.1

/-! ## One move keeps the invariants -/

theorem NodeRecords.of_same (h : w.NodeRecords keyOf moves s) (hRemembers : Remembers s t)
    (hNodes : t.plan.nodes = s.plan.nodes) (hSeen : t.nodesSeen = s.nodesSeen)
    (hEnter : ∀ r, Move.enter r ∈ moves ++ [m] → Move.enter r ∈ moves ∨ (Identified t r ∧
      ∃ d, w.NodeAs r d ∧ ∃ n ∈ s.plan.allNodes, n.label = d.label ∧ n.identity = keyOf r)) :
    w.NodeRecords keyOf (moves ++ [m]) t := by
  have hAll : t.plan.allNodes = s.plan.allNodes := by
    rw [Plan.allNodes_eq, Plan.allNodes_eq, hNodes]
  refine ⟨?_, ?_, ?_, ?_, ?_⟩
  · rw [hNodes]
    exact h.groups
  · intro n hn
    rw [hAll] at hn
    obtain ⟨hMove, hDepicts⟩ := h.planned n hn
    exact ⟨List.mem_append_left _ hMove, hDepicts.mono hRemembers⟩
  · rw [hAll]
    exact h.distinct
  · rw [hAll, hSeen]
    exact h.seen
  · intro r hr
    rw [hAll]
    rcases hEnter r hr with hOld | hNew
    · obtain ⟨hKnown, hPlanned⟩ := h.entered r hOld
      exact ⟨hKnown.mono hRemembers, hPlanned⟩
    · exact hNew

theorem enter_mem_append_enter {r q : Ref} (h : Move.enter q ∈ moves ++ [.enter r]) :
    Move.enter q ∈ moves ∨ q = r := by
  rcases List.mem_append.1 h with h | h
  · exact .inl h
  · cases List.mem_singleton.1 h
    exact .inr rfl

theorem enter_mem_append_follow {owner target q : Ref} {role : RelationshipRole}
    (h : Move.enter q ∈ moves ++ [.follow owner role target]) : Move.enter q ∈ moves := by
  rcases List.mem_append.1 h with h | h
  · exact h
  · cases List.mem_singleton.1 h

theorem follow_mem_append_enter {owner target q : Ref} {role : RelationshipRole}
    (h : Move.follow owner role target ∈ moves ++ [.enter q]) :
    Move.follow owner role target ∈ moves := by
  rcases List.mem_append.1 h with h | h
  · exact h
  · cases List.mem_singleton.1 h

/-- Entering a node plans it, unless its label and key are planned already. -/
theorem NodeRecords.enter {r : Ref} (h : w.NodeRecords keyOf moves s)
    (hMove : w.Moves keyOf (.enter r) s t) : w.NodeRecords keyOf (moves ++ [.enter r]) t := by
  have hRemembersAll : Remembers s t := hMove.remembers
  cases hMove with
  | @enter _ d i _ u _ hType hNode hIdentify hKey hRecord =>
  obtain ⟨hSame, hRemembers, hKnown⟩ := identify_keeps hIdentify
  obtain ⟨hSeen, rfl⟩ | ⟨params, hNew, hParams, rfl⟩ := recordNode_iff.1 hRecord
  · -- Another object, or this one before, was planned under the same label and key.
    rw [hSame.nodesSeen] at hSeen
    obtain ⟨n, hn, hPlace⟩ := (h.seen _).1 hSeen
    refine h.of_same hRemembersAll hSame.nodes hSame.nodesSeen fun q hq => ?_
    rcases enter_mem_append_enter hq with hq | rfl
    · exact .inl hq
    · refine .inr ⟨⟨i, hKnown⟩, d, ⟨hType, hNode⟩, n, hn, congrArg Prod.fst hPlace, ?_⟩
      rw [← hKey]
      exact congrArg Prod.snd hPlace
  · -- The new node is the last one, up to the order of the labels.
    rw [hSame.nodesSeen] at hNew
    have hSorted : Dict.Sorted u.plan.nodes := by
      rw [hSame.nodes]
      exact h.groups.sorted
    have hAll : ∀ n, n ∈ Dict.members (u.plan.nodes.push d.label (w.plannedNode r d i params)) ↔
        n ∈ s.plan.allNodes ∨ n = w.plannedNode r d i params := by
      intro n
      rw [Dict.mem_members_push hSorted, hSame.nodes, Plan.allNodes_eq]
    refine ⟨?_, ?_, ?_, ?_, ?_⟩
    · have hGroups : Dict.Groups PlannedNode.label u.plan.nodes := by
        rw [hSame.nodes]
        exact h.groups
      exact hGroups.push (w.plannedNode r d i params)
    · intro n hn
      rcases (hAll n).1 hn with hOld | rfl
      · obtain ⟨hMove, hDepicts⟩ := h.planned n hOld
        exact ⟨List.mem_append_left _ hMove, hDepicts.mono hRemembersAll⟩
      · refine ⟨List.mem_append_right _ (List.mem_singleton.2 rfl), ?_⟩
        exact ⟨d, i, params, ⟨hType, hNode⟩, hKnown, hParams, rfl⟩
    · refine Dict.nodup_map_members_push hSorted ?_ fun n hn hPlace => ?_
      · rw [hSame.nodes]
        exact h.distinct
      · -- A place that is planned would have been seen.
        rw [hSame.nodes] at hn
        exact hNew ((h.seen _).2 ⟨n, hn, hPlace⟩)
    · intro place
      change place ∈ (d.label, i.key) :: u.nodesSeen ↔ ∃ n ∈ Dict.members _, _
      rw [List.mem_cons, hSame.nodesSeen, h.seen]
      constructor
      · rintro (rfl | ⟨n, hn, rfl⟩)
        · exact ⟨_, (hAll _).2 (.inr rfl), rfl⟩
        · exact ⟨n, (hAll n).2 (.inl hn), rfl⟩
      · rintro ⟨n, hn, rfl⟩
        rcases (hAll n).1 hn with hOld | rfl
        · exact .inr ⟨n, hOld, rfl⟩
        · exact .inl rfl
    · intro q hq
      rcases enter_mem_append_enter hq with hq | rfl
      · obtain ⟨hQ, d', hNode', n, hn, hLabel, hIdentity⟩ := h.entered q hq
        exact ⟨hQ.mono hRemembersAll, d', hNode', n, (hAll n).2 (.inl hn), hLabel, hIdentity⟩
      · exact ⟨⟨i, hKnown⟩, d, ⟨hType, hNode⟩, _, (hAll _).2 (.inr rfl), rfl, hKey⟩

theorem NodeRecords.step (h : w.NodeRecords keyOf moves s) (hMove : w.Moves keyOf m s t) :
    w.NodeRecords keyOf (moves ++ [m]) t := by
  cases m with
  | enter r => exact h.enter hMove
  | follow owner role target =>
      obtain ⟨hRemembers, hNodes, hSeen⟩ := hMove.follow_keeps
      exact h.of_same hRemembers hNodes hSeen fun r hr => .inl (enter_mem_append_follow hr)

theorem EdgeRecords.of_same (h : w.EdgeRecords keyOf moves s) (hRemembers : Remembers s t)
    (hEdges : t.plan.edges = s.plan.edges) (hSeen : t.edgesSeen = s.edgesSeen)
    (hMet : ∀ owner role target d, Move.follow owner role target ∈ moves ++ [m] →
      w.NodeAs target d → Move.follow owner role target ∈ moves ∨ (Identified t target ∧
        edgeMark (plainEdge role (keyOf owner) (keyOf target)) ∈ s.edgesSeen)) :
    w.EdgeRecords keyOf (moves ++ [m]) t := by
  have hAll : t.plan.allEdges = s.plan.allEdges := by
    rw [Plan.allEdges_eq, Plan.allEdges_eq, hEdges]
  refine ⟨?_, ?_, ?_, ?_⟩
  · rw [hEdges]
    exact h.groups
  · intro e he hPlain
    rw [hAll] at he
    obtain ⟨owner, role, target, d, hMove, hNode, hEdge⟩ := h.planned e he hPlain
    exact ⟨owner, role, target, d, List.mem_append_left _ hMove, hNode, hEdge⟩
  · rw [hAll, hSeen]
    exact h.marked
  · intro owner role target d hMove hNode
    rw [hSeen]
    rcases hMet owner role target d hMove hNode with hOld | hNew
    · obtain ⟨hKnown, hMark⟩ := h.met owner role target d hOld hNode
      exact ⟨hKnown.mono hRemembers, hMark⟩
    · exact hNew

theorem follow_mem_append_follow {owner owner' target target' : Ref} {role role' : RelationshipRole}
    (h : Move.follow owner' role' target' ∈ moves ++ [.follow owner role target]) :
    Move.follow owner' role' target' ∈ moves ∨
      (owner' = owner ∧ role' = role ∧ target' = target) := by
  rcases List.mem_append.1 h with h | h
  · exact .inl h
  · cases List.mem_singleton.1 h
    exact .inr ⟨rfl, rfl, rfl⟩

/-- Pushing one relationship that is neither planned nor an object's. -/
theorem EdgeRecords.follow_plain {owner target : Ref} {role : RelationshipRole} {d : TypeDescriptor}
    (h : w.EdgeRecords keyOf moves s) (hMove : w.Moves keyOf (.follow owner role target) s t)
    (hNode : w.NodeAs target d) :
    w.EdgeRecords keyOf (moves ++ [.follow owner role target]) t := by
  have hRemembersAll : Remembers s t := hMove.remembers
  obtain ⟨u, hSame, hRemembers, hTarget, hRecord⟩ := hMove.plain_cases hNode
  obtain ⟨hSeen, rfl⟩ | ⟨hNew, rfl⟩ := recordEdge_iff.1 hRecord
  · -- The same relationship was planned before, maybe for another field.
    rw [hSame.edgesSeen] at hSeen
    refine h.of_same hRemembersAll hSame.edges hSame.edgesSeen fun owner' role' target' d' hm _ => ?_
    rcases follow_mem_append_follow hm with hOld | ⟨rfl, rfl, rfl⟩
    · exact .inl hOld
    · exact .inr ⟨hTarget, hSeen⟩
  · have hGroups : Dict.Groups PlannedEdge.label u.plan.edges := by
      rw [hSame.edges]
      exact h.groups
    have hAll : ∀ e, e ∈ Dict.members (u.plan.edges.push role.label
        (plainEdge role (keyOf owner) (keyOf target))) ↔
        e ∈ s.plan.allEdges ∨ e = plainEdge role (keyOf owner) (keyOf target) := by
      intro e
      rw [Dict.mem_members_push hGroups.sorted, hSame.edges, Plan.allEdges_eq]
    have hPlainEdge : ∀ ownerKey targetKey, (plainEdge role ownerKey targetKey).object = false :=
      fun _ _ => rfl
    refine ⟨hGroups.push (plainEdge role (keyOf owner) (keyOf target)), ?_, ?_, ?_⟩
    · intro e he hPlain
      rcases (hAll e).1 he with hOld | rfl
      · obtain ⟨owner', role', target', d', hOldMove, hOldNode, hEdge⟩ := h.planned e hOld hPlain
        exact ⟨owner', role', target', d', List.mem_append_left _ hOldMove, hOldNode, hEdge⟩
      · exact ⟨owner, role, target, d, List.mem_append_right _ (List.mem_singleton.2 rfl), hNode,
          rfl⟩
    · intro mark hMark
      rcases List.mem_cons.1 hMark with rfl | hMark
      · exact ⟨_, (hAll _).2 (.inr rfl), hPlainEdge _ _, rfl⟩
      · rw [hSame.edgesSeen] at hMark
        obtain ⟨e, he, hPlain, hEq⟩ := h.marked mark hMark
        exact ⟨e, (hAll e).2 (.inl he), hPlain, hEq⟩
    · intro owner' role' target' d' hm hNode'
      rcases follow_mem_append_follow hm with hOld | ⟨rfl, rfl, rfl⟩
      · obtain ⟨hKnown, hMark⟩ := h.met owner' role' target' d' hOld hNode'
        refine ⟨hKnown.mono hRemembersAll, List.mem_cons_of_mem _ ?_⟩
        rw [hSame.edgesSeen]
        exact hMark
      · exact ⟨hTarget, List.mem_cons_self⟩

/-- Recording a relationship-object pushes at most one relationship, which is not a plain one. -/
theorem EdgeRecords.follow_object {owner target start finish : Ref} {role : RelationshipRole}
    {d : TypeDescriptor} (h : w.EdgeRecords keyOf moves s)
    (hMove : w.Moves keyOf (.follow owner role target) s t)
    (hObject : w.ObjectAs target d start finish) :
    w.EdgeRecords keyOf (moves ++ [.follow owner role target]) t := by
  have hRemembersAll : Remembers s t := hMove.remembers
  have hOldMove : ∀ owner' role' target' d',
      Move.follow owner' role' target' ∈ moves ++ [.follow owner role target] →
      w.NodeAs target' d' → Move.follow owner' role' target' ∈ moves := by
    intro owner' role' target' d' hm hNode'
    rcases follow_mem_append_follow hm with hOld | ⟨rfl, rfl, rfl⟩
    · exact hOld
    · exact absurd hNode' hObject.not_node
  obtain ⟨u, other, hSame, -, -, -, -, hRecord⟩ := hMove.object_cases hObject
  obtain ⟨-, rfl⟩ | ⟨key, params, v, -, hKey, -, rfl⟩ := recordObject_iff.1 hRecord
  · exact h.of_same hRemembersAll hSame.edges hSame.edgesSeen fun owner' role' target' d' hm hNode' =>
      .inl (hOldMove owner' role' target' d' hm hNode')
  · obtain ⟨hSame', -⟩ := objectKey_sameRecords hKey
    have hEdges : v.plan.edges = s.plan.edges := hSame'.edges.trans hSame.edges
    have hSeen : v.edgesSeen = s.edgesSeen := hSame'.edgesSeen.trans hSame.edgesSeen
    have hGroups : Dict.Groups PlannedEdge.label v.plan.edges := by
      rw [hEdges]
      exact h.groups
    have hAll : ∀ e, e ∈ Dict.members (v.plan.edges.push role.label
        ⟨keyOf start, keyOf finish, role.label, false, true, key, params⟩) ↔
        e ∈ s.plan.allEdges ∨
          e = ⟨keyOf start, keyOf finish, role.label, false, true, key, params⟩ := by
      intro e
      rw [Dict.mem_members_push hGroups.sorted, hEdges, Plan.allEdges_eq]
    refine ⟨hGroups.push ⟨keyOf start, keyOf finish, role.label, false, true, key, params⟩, ?_, ?_, ?_⟩
    · intro e he hPlain
      rcases (hAll e).1 he with hOld | rfl
      · obtain ⟨owner', role', target', d', hOld, hNode', hEdge⟩ := h.planned e hOld hPlain
        exact ⟨owner', role', target', d', List.mem_append_left _ hOld, hNode', hEdge⟩
      · cases hPlain
    · intro mark hMark
      change mark ∈ v.edgesSeen at hMark
      rw [hSeen] at hMark
      obtain ⟨e, he, hPlain, hEq⟩ := h.marked mark hMark
      exact ⟨e, (hAll e).2 (.inl he), hPlain, hEq⟩
    · intro owner' role' target' d' hm hNode'
      obtain ⟨hKnown, hMark⟩ := h.met owner' role' target' d' (hOldMove _ _ _ _ hm hNode') hNode'
      refine ⟨hKnown.mono hRemembersAll, ?_⟩
      change _ ∈ v.edgesSeen
      rw [hSeen]
      exact hMark

theorem EdgeRecords.step (h : w.EdgeRecords keyOf moves s) (hMove : w.Moves keyOf m s t) :
    w.EdgeRecords keyOf (moves ++ [m]) t := by
  cases m with
  | enter r =>
      obtain ⟨hRemembers, hEdges, hSeen, -⟩ := hMove.enter_keeps
      exact h.of_same hRemembers hEdges hSeen fun _ _ _ _ hm _ => .inl (follow_mem_append_enter hm)
  | follow owner role target =>
      obtain ⟨d, hNode⟩ | ⟨d, start, finish, hObject⟩ := hMove.target_cases
      · exact h.follow_plain hMove hNode
      · exact h.follow_object hMove hObject

theorem bears_of_objectKey {r : Ref} {d : TypeDescriptor} {key : Option Value}
    (hType : w.descriptor r = .ok d) (h : Gives (w.objectKey r d) s key t) : w.Bears r key := by
  obtain ⟨rfl, -, hNone⟩ | ⟨pk, hPk, hNative, ⟨hKey, rfl, -⟩ | ⟨hNone, hValue, -⟩⟩ :=
    objectKey_cases h
  · exact .keyless hType hNone
  · exact .held hType hPk hNative hKey
  · exact .generated hType hPk hNative hNone hValue

theorem ObjectRecords.of_same (h : w.ObjectRecords keyOf moves s) (hRemembers : Remembers s t)
    (hEdges : (t.plan.allEdges.filter (·.object)).Perm (s.plan.allEdges.filter (·.object)))
    (hSeen : t.objectsSeen = s.objectsSeen)
    (hMet : ∀ owner role r, Move.follow owner role r ∈ moves ++ [m] →
      Move.follow owner role r ∈ moves ∨ (∃ d, w.NodeAs r d) ∨
      ∃ d start finish other, w.ObjectAs r d start finish ∧ r ∈ s.objectsSeen ∧
        Identified t start ∧ Identified t finish ∧
        opposite d owner (keyOf owner) start finish (keyOf start) (keyOf finish) = .ok other) :
    w.ObjectRecords keyOf (moves ++ [m]) t := by
  refine ⟨?_, ?_, ?_⟩
  · rw [hSeen]
    exact h.once
  · obtain ⟨pairs, hPerm, hObjects, hCarries⟩ := h.planned
    rw [hSeen]
    exact ⟨pairs, hPerm.trans hEdges.symm, hObjects, fun pair hp => (hCarries pair hp).imp_left .mono⟩
  · intro owner role r hm
    rw [hSeen]
    rcases hMet owner role r hm with hOld | hNew
    · rcases h.met owner role r hOld with hNode |
        ⟨d, start, finish, other, hObject, hMem, hStart, hFinish, hOther⟩
      · exact .inl hNode
      · exact .inr ⟨d, start, finish, other, hObject, hMem, hStart.mono hRemembers,
          hFinish.mono hRemembers, hOther⟩
    · exact hNew

theorem ObjectRecords.follow_plain {owner target : Ref} {role : RelationshipRole}
    {d : TypeDescriptor} (hEdgeRecords : w.EdgeRecords keyOf moves s)
    (h : w.ObjectRecords keyOf moves s) (hMove : w.Moves keyOf (.follow owner role target) s t)
    (hNode : w.NodeAs target d) :
    w.ObjectRecords keyOf (moves ++ [.follow owner role target]) t := by
  have hRemembersAll : Remembers s t := hMove.remembers
  obtain ⟨u, hSame, -, -, hRecord⟩ := hMove.plain_cases hNode
  have hMet : ∀ owner' role' r, Move.follow owner' role' r ∈ moves ++ [.follow owner role target] →
      Move.follow owner' role' r ∈ moves ∨ (∃ d, w.NodeAs r d) := by
    intro owner' role' r hm
    rcases follow_mem_append_follow hm with hOld | ⟨rfl, rfl, rfl⟩
    · exact .inl hOld
    · exact .inr ⟨d, hNode⟩
  have hObjects : t.objectsSeen = s.objectsSeen :=
    (recordEdge_keeps hRecord).2.2.2.trans hSame.objectsSeen
  refine h.of_same hRemembersAll ?_ hObjects fun owner' role' r hm =>
    (hMet owner' role' r hm).imp_right .inl
  obtain ⟨-, rfl⟩ | ⟨-, rfl⟩ := recordEdge_iff.1 hRecord
  · rw [Plan.allEdges_eq, Plan.allEdges_eq, hSame.edges]
  · have hSorted : Dict.Sorted u.plan.edges := by
      rw [hSame.edges]
      exact hEdgeRecords.groups.sorted
    -- The pushed relationship is plain, so that the filter drops it.
    have hPerm : ((Dict.members (u.plan.edges.push role.label
        (plainEdge role (keyOf owner) (keyOf target)))).filter (·.object)).Perm _ :=
      Dict.filter_members_push_of_neg hSorted rfl
    exact hPerm.trans (by rw [hSame.edges, Plan.allEdges_eq])

theorem ObjectRecords.follow_object {owner target start finish : Ref} {role : RelationshipRole}
    {d : TypeDescriptor} (hEdgeRecords : w.EdgeRecords keyOf moves s)
    (h : w.ObjectRecords keyOf moves s) (hMove : w.Moves keyOf (.follow owner role target) s t)
    (hObject : w.ObjectAs target d start finish) :
    w.ObjectRecords keyOf (moves ++ [.follow owner role target]) t := by
  have hRemembersAll : Remembers s t := hMove.remembers
  obtain ⟨u, other, hSame, hRemembers, hStart, hFinish, hOther, hRecord⟩ := hMove.object_cases hObject
  have hLate : Remembers u t := .of_eq (recordObject_keeps hRecord).1
  obtain ⟨hSeen, rfl⟩ | ⟨key, params, v, hNew, hKey, hParams, rfl⟩ := recordObject_iff.1 hRecord
  · rw [hSame.objectsSeen] at hSeen
    refine h.of_same hRemembersAll ?_ hSame.objectsSeen fun owner' role' r hm => ?_
    · rw [Plan.allEdges_eq, Plan.allEdges_eq, hSame.edges]
    · rcases follow_mem_append_follow hm with hOld | ⟨rfl, rfl, rfl⟩
      · exact .inl hOld
      · exact .inr (.inr ⟨d, start, finish, other, hObject, hSeen, hStart, hFinish, hOther⟩)
  · obtain ⟨hSame', -⟩ := objectKey_sameRecords hKey
    have hEdges : v.plan.edges = s.plan.edges := hSame'.edges.trans hSame.edges
    have hSeen : v.objectsSeen = target :: s.objectsSeen := by
      rw [hSame'.objectsSeen]
      exact congrArg (target :: ·) hSame.objectsSeen
    rw [hSame.objectsSeen] at hNew
    have hSorted : Dict.Sorted v.plan.edges := by
      rw [hEdges]
      exact hEdgeRecords.groups.sorted
    refine ⟨?_, ?_, ?_⟩
    · change v.objectsSeen.Nodup
      rw [hSeen]
      exact List.nodup_cons.2 ⟨hNew, h.once⟩
    · obtain ⟨pairs, hPerm, hObjects, hCarries⟩ := h.planned
      let e : PlannedEdge :=
        ⟨keyOf start, keyOf finish, role.label, false, true, key, params⟩
      refine ⟨(e, target) :: pairs, ?_, ?_, ?_⟩
      · -- The pair is put first and the relationship pushed last, which is the same up to order.
        have hAll : ((Dict.members (v.plan.edges.push role.label e)).filter (·.object)).Perm _ :=
          Dict.filter_members_push_of_pos hSorted rfl
        refine List.Perm.trans ?_ hAll.symm
        rw [hEdges]
        exact (hPerm.cons e).trans (@List.perm_append_comm _ [e] _)
      · change target :: pairs.map (·.2) = v.objectsSeen
        rw [hObjects, hSeen]
      · intro pair hp
        rcases List.mem_cons.1 hp with rfl | hp
        · exact ⟨⟨owner, role, d, start, finish, key, params,
            List.mem_append_right _ (List.mem_singleton.2 rfl), hObject, hParams, rfl⟩,
            bears_of_objectKey hObject.1 hKey⟩
        · exact (hCarries pair hp).imp_left .mono
    · intro owner' role' r hm
      change _ ∨ ∃ d start finish other, _ ∧ r ∈ v.objectsSeen ∧ _
      rw [hSeen]
      rcases follow_mem_append_follow hm with hOld | ⟨rfl, rfl, rfl⟩
      · rcases h.met owner' role' r hOld with hNode |
          ⟨d', start', finish', other', hObject', hMem, hStart', hFinish', hOther'⟩
        · exact .inl hNode
        · exact .inr ⟨d', start', finish', other', hObject', List.mem_cons_of_mem _ hMem,
            hStart'.mono hRemembersAll, hFinish'.mono hRemembersAll, hOther'⟩
      · exact .inr ⟨d, start, finish, other, hObject, List.mem_cons_self, hStart.mono hLate,
          hFinish.mono hLate, hOther⟩

theorem ObjectRecords.step (hEdgeRecords : w.EdgeRecords keyOf moves s)
    (h : w.ObjectRecords keyOf moves s) (hMove : w.Moves keyOf m s t) :
    w.ObjectRecords keyOf (moves ++ [m]) t := by
  cases m with
  | enter r =>
      obtain ⟨hRemembers, hEdges, -, hObjects⟩ := hMove.enter_keeps
      refine h.of_same hRemembers ?_ hObjects fun _ _ _ hm => .inl (follow_mem_append_enter hm)
      rw [Plan.allEdges_eq, Plan.allEdges_eq, hEdges]
  | follow owner role target =>
      obtain ⟨d, hNode⟩ | ⟨d, start, finish, hObject⟩ := hMove.target_cases
      · exact h.follow_plain hEdgeRecords hMove hNode
      · exact h.follow_object hEdgeRecords hMove hObject

/-- Each planned relationship with an object is that of one of the objects that were met, and each object
has one. -/
theorem ObjectRecords.each (h : w.ObjectRecords keyOf moves s) :
    ∃ objects : List Ref, s.objectsSeen.Perm objects ∧
      List.Forall₂ (fun e o => w.Carries keyOf moves e o ∧ w.Bears o e.key)
        (s.plan.allEdges.filter (·.object)) objects := by
  obtain ⟨pairs, hPerm, hObjects, hCarries⟩ := h.planned
  have hPairs : List.Forall₂ (fun e o => w.Carries keyOf moves e o ∧ w.Bears o e.key)
      (pairs.map (·.1)) (pairs.map (·.2)) := by
    rw [List.forall₂_map_left_iff, List.forall₂_map_right_iff, List.forall₂_same]
    exact hCarries
  -- The walk lists the objects latest first, and the plan groups their relationships by type.
  obtain ⟨objects, hEach, hSame⟩ := List.perm_comp_forall₂ hPerm.symm hPairs
  rw [hObjects] at hSame
  exact ⟨objects, hSame.symm, hEach⟩

/-! ## Whole walks -/

/-- What is recorded after some moves. -/
structure Recorded (w : Walker σ) (keyOf : Ref → String) (moves : List Move) (s : WalkState) :
    Prop where
  nodes : w.NodeRecords keyOf moves s
  edges : w.EdgeRecords keyOf moves s
  objects : w.ObjectRecords keyOf moves s

theorem Recorded.start (w : Walker σ) (keyOf : Ref → String) (taken : Nat) :
    w.Recorded keyOf [] (.start taken) where
  nodes := {
    groups := .nil _
    planned := fun _ h => absurd h List.not_mem_nil
    distinct := List.nodup_nil
    seen := fun _ => ⟨fun h => absurd h List.not_mem_nil, fun ⟨_, h, _⟩ => absurd h List.not_mem_nil⟩
    entered := fun _ h => absurd h List.not_mem_nil }
  edges := {
    groups := .nil _
    planned := fun _ h => absurd h List.not_mem_nil
    marked := fun _ h => absurd h List.not_mem_nil
    met := fun _ _ _ _ h => absurd h List.not_mem_nil }
  objects := {
    once := List.nodup_nil
    planned := ⟨[], .nil, rfl, fun _ h => absurd h List.not_mem_nil⟩
    met := fun _ _ _ h => absurd h List.not_mem_nil }

theorem Recorded.step (h : w.Recorded keyOf moves s) (hMove : w.Moves keyOf m s t) :
    w.Recorded keyOf (moves ++ [m]) t :=
  ⟨h.nodes.step hMove, h.edges.step hMove, h.objects.step h.edges hMove⟩

/-- After a walk just what its moves are about is recorded. -/
theorem Recorded.of_takes {taken : Nat} (h : w.Takes keyOf moves (.start taken) t) :
    w.Recorded keyOf moves t := by
  have hAll := h.invariant (fun ms m s t hs hMove => hs.step hMove) (Recorded.start w keyOf taken)
  exact hAll

/-- A move plans more nodes or as many. -/
theorem Moves.nodes_subset (hSorted : Dict.Sorted s.plan.nodes) (h : w.Moves keyOf m s t) :
    s.plan.allNodes ⊆ t.plan.allNodes := by
  cases m with
  | enter r =>
      cases h with
      | enter _ _ hIdentify _ hRecord =>
          obtain ⟨hSame, -, -⟩ := identify_keeps hIdentify
          obtain ⟨-, rfl⟩ | ⟨params, -, -, rfl⟩ := recordNode_iff.1 hRecord
          · rw [Plan.allNodes_eq, Plan.allNodes_eq, hSame.nodes]
            exact List.Subset.refl _
          · intro n hn
            rw [← hSame.nodes] at hSorted
            refine (Dict.mem_members_push hSorted).2 (.inl ?_)
            rw [hSame.nodes]
            exact hn
  | follow owner role target =>
      rw [Plan.allNodes_eq, Plan.allNodes_eq, h.follow_keeps.2.1]
      exact List.Subset.refl _

/-- The object that a walk enters first is planned as itself. -/
theorem planned_first {taken : Nat} {r : Ref}
    (h : w.Takes keyOf (.enter r :: moves) (.start taken) t) : ∃ n ∈ t.plan.allNodes, n.ref = r := by
  obtain _ | ⟨hFirst, hRest⟩ := h
  have hBegun := (Recorded.start w keyOf taken).step hFirst
  obtain ⟨-, d, -, n, hn, -⟩ := hBegun.nodes.entered r (List.mem_singleton.2 rfl)
  have hOwn : n.ref = r := by
    cases List.mem_singleton.1 (hBegun.nodes.planned n hn).1
    rfl
  -- What is planned stays so in the moves after the first.
  have hAll := hRest.invariant
    (P := fun ms s => w.Recorded keyOf ms s ∧ n ∈ s.plan.allNodes)
    (fun ms m s t hs hMove => ⟨hs.1.step hMove, hMove.nodes_subset hs.1.nodes.groups.sorted hs.2⟩)
    ⟨hBegun, hn⟩
  exact ⟨n, hAll.2, hOwn⟩

end Walker

end GraphMapping
