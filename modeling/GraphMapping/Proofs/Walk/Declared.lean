import GraphMapping.Proofs.Mapping.Bindings
import GraphMapping.Proofs.Walk.Relations

/-!
# Planned relationships are declared

A walk picks the direction and the ends of a relationship by itself; the registry has its own table of
what may stand between two labels.  Where fields refer to objects of the declared types only, and no two
labels share a key, the table has every relationship that a walk plans, with the object that the walk
has taken it from.
-/

namespace GraphMapping

namespace Walker

variable {σ : Type} (w : Walker σ)

/-- Relationship fields and ends refer to objects of the declared types. -/
structure WellTyped : Prop where
  related : ∀ r d f role target, w.descriptor r = .ok d → (f, role) ∈ d.relationships →
    target ∈ w.model.related (w.heap.stateOf r) f.field → w.heap.typeOf target = role.target
  ends : ∀ r d start finish a z, w.descriptor r = .ok d → d.endpoints = some (start, finish) →
    w.model.ends (w.heap.stateOf r) = some ⟨some a, some z⟩ →
    w.heap.typeOf a = start ∧ w.heap.typeOf z = finish

/-- A planned relationship is declared between the labels of two planned nodes that have its keys.  It
has the object that it was taken from, and none if it was taken from no object. -/
def Resolves (root : Ref) (depth taken : Nat) (p : Plan) (e : PlannedEdge) : Prop :=
  ∃ a ∈ p.allNodes, ∃ z ∈ p.allNodes, a.identity = e.start ∧ z.identity = e.finish ∧
    ∃ m, w.registry.resolve ⟨a.label, e.label, z.label⟩ = .ok m ∧
      (m.start.isSome ∨ m.finish.isSome) ∧ (e.object = false → m.object = none) ∧
      (e.object = true → ∃ o start finish, w.IsRelationshipOf root depth taken e o start finish) ∧
      ∀ o start finish, w.IsRelationshipOf root depth taken e o start finish →
        m.object = some (w.heap.typeOf o)

variable {w} {root r o target start finish : Ref} {depth taken : Nat} {p : Plan} {s : WalkState}
  {role : RelationshipRole} {d : TypeDescriptor} {e : PlannedEdge} {builder : RegistryBuilder}

theorem mem_of_descriptor (h : w.descriptor r = .ok d) :
    d ∈ w.registry.types ∧ d.type = w.heap.typeOf r :=
  Registry.mem_of_descriptor h

theorem descriptor_of_findType {type : TypeName} (hType : w.heap.typeOf r = type)
    (h : findType w.registry.types type = some d) : w.descriptor r = .ok d := by
  unfold descriptor Registry.descriptor
  rw [hType, h]

theorem mem_referencesOf (hType : w.descriptor r = .ok d) (h : (role, target) ∈ w.referencesOf r) :
    ∃ f, (f, role) ∈ d.relationships ∧ target ∈ w.model.related (w.heap.stateOf r) f.field := by
  unfold referencesOf at h
  rw [hType] at h
  unfold references at h
  obtain ⟨⟨f, role'⟩, hField, hTarget⟩ := List.mem_flatMap.1 h
  obtain ⟨target', hRelated, hEq⟩ := List.mem_map.1 hTarget
  cases hEq
  exact ⟨f, hField, hRelated⟩

theorem ends_of_endsOf (h : w.endsOf r d = .ok (start, finish)) :
    w.model.ends (w.heap.stateOf r) = some ⟨some start, some finish⟩ := by
  unfold endsOf at h
  split at h
  · cases h
  · rename_i a z hEnds
    cases h
    exact hEnds
  · cases h

theorem oriented_place (role : RelationshipRole) (here there : String) :
    ∃ side, (⟨(oriented role.direction here there).1, role.label,
        (oriented role.direction here there).2⟩, side) ∈
      RegistryBuilder.plainSides role.direction role.label here there := by
  cases hDirection : role.direction
  · exact ⟨.finish, by simp [RegistryBuilder.plainSides, oriented]⟩
  · exact ⟨.start, by simp [RegistryBuilder.plainSides, oriented]⟩
  · exact ⟨.start, by simp [RegistryBuilder.plainSides, oriented]⟩

/-- A reference from one node to another is declared as a relationship without an object. -/
theorem plain_declared (hFrozen : builder.build = .ok w.registry) (hTyped : w.WellTyped)
    {dOwner : TypeDescriptor} (hOwner : w.NodeAs r dOwner) (hTarget : w.NodeAs target d)
    (hReference : (role, target) ∈ w.referencesOf r) :
    ∃ m, w.registry.resolve ⟨(oriented role.direction dOwner.label d.label).1, role.label,
      (oriented role.direction dOwner.label d.label).2⟩ = .ok m ∧ m.object = none := by
  obtain ⟨f, hField, hRelated⟩ := mem_referencesOf hOwner.1 hReference
  have hType : w.heap.typeOf target = role.target := hTyped.related _ _ _ _ _ hOwner.1 hField hRelated
  obtain ⟨sides, object, hSides, hResolves⟩ :=
    Registry.field_resolves hFrozen (mem_of_descriptor hOwner.1).1 hOwner.2 hField
  obtain ⟨t, ht, ⟨-, rfl, rfl⟩ | ⟨_, _, _, _, hEnds, -⟩⟩ := RegistryBuilder.sidesOf_cases hSides
  all_goals
    have hSame : d = t := ok_unique hTarget.1 (descriptor_of_findType hType ht)
    subst hSame
  · obtain ⟨side, hPlace⟩ := oriented_place role dOwner.label d.label
    exact hResolves _ hPlace
  · have hNode : d.endpoints.isSome = false := hTarget.2
    rw [hEnds] at hNode
    cases hNode

/-- The relationship of a relationship-object is declared between its ends, with objects of its type. -/
theorem object_declared (hFrozen : builder.build = .ok w.registry) (hTyped : w.WellTyped)
    (h : w.IsRelationshipOf root depth taken e o start finish) :
    ∃ dStart dFinish m, w.NodeAs start dStart ∧ w.NodeAs finish dFinish ∧
      w.registry.resolve ⟨dStart.label, e.label, dFinish.label⟩ = .ok m ∧
      m.object = some (w.heap.typeOf o) := by
  obtain ⟨owner, dOwner, role, d, hOwner, hReference, hObject, hLabel, -, -, -, -⟩ := h
  obtain ⟨f, hField, hRelated⟩ := mem_referencesOf hOwner.1 hReference
  have hType : w.heap.typeOf o = role.target := hTyped.related _ _ _ _ _ hOwner.1 hField hRelated
  obtain ⟨sides, object, hSides, hResolves⟩ :=
    Registry.field_resolves hFrozen (mem_of_descriptor hOwner.1).1 hOwner.2 hField
  obtain ⟨t, ht, ⟨hPlain, -, -⟩ |
    ⟨first, last, x, y, hEnds, hx, hxNode, hy, hyNode, rfl, rfl, hSome⟩⟩ :=
      RegistryBuilder.sidesOf_cases hSides
  all_goals
    have hSame : d = t := ok_unique hObject.1 (descriptor_of_findType hType ht)
    subst hSame
  · have hIsObject : d.endpoints.isSome = true := hObject.2.1
    rw [hPlain] at hIsObject
    cases hIsObject
  · obtain ⟨hFirst, hLast⟩ :=
      hTyped.ends _ _ _ _ _ _ hObject.1 hEnds (ends_of_endsOf hObject.2.2)
    obtain ⟨⟨key, side⟩, hPlace⟩ := List.exists_mem_of_ne_nil _ hSome
    obtain ⟨hKey, -, -⟩ := RegistryBuilder.mem_objectSides.1 hPlace
    obtain ⟨m, hResolve, hTaken⟩ := hResolves _ hPlace
    refine ⟨x, y, m, ⟨descriptor_of_findType hFirst hx, hxNode⟩,
      ⟨descriptor_of_findType hLast hy, hyNode⟩, ?_, ?_⟩
    · rw [hLabel, ← hKey]
      exact hResolve
    · rw [hTaken, hType]

section

variable (hFrozen : builder.build = .ok w.registry) (hTyped : w.WellTyped)
  (hFinished : w.Finished root depth taken p s) (hApart : w.KeysApart root depth taken)
  {a z : PlannedNode} (ha : a ∈ p.allNodes) (hz : z ∈ p.allNodes)

include hFinished hApart in
/-- The node with the key of an object has the label of the object. -/
theorem label_of_key (ha : a ∈ p.allNodes) (hNode : w.NodeAs r d)
    (hKey : w.identityOf root depth taken r = some a.identity) : a.label = d.label := by
  obtain ⟨d', hd', hLabel⟩ := labelOf_eq_some.1 (planned_label hFinished hApart ha hKey)
  rw [ok_unique hNode.1 hd', hLabel]

include hFrozen hFinished ha hz in
theorem bound_of_resolve {type : String} {m : EdgeMatch}
    (hResolve : w.registry.resolve ⟨a.label, type, z.label⟩ = .ok m) :
    m.start.isSome ∨ m.finish.isSome := by
  obtain ⟨da, haNode, haLabel, -⟩ := planned_node hFinished ha
  obtain ⟨dz, hzNode, hzLabel, -⟩ := planned_node hFinished hz
  rw [haLabel, hzLabel] at hResolve
  exact (Registry.fits_of_resolve hFrozen (mem_of_descriptor haNode.1).1
    (mem_of_descriptor hzNode.1).1 haNode.2 hzNode.2 hResolve).bound

include hFrozen hTyped hFinished hApart ha hz

/-- The relationship of a relationship-object resolves between the nodes with its keys. -/
theorem object_resolves (hStart : a.identity = e.start) (hFinish : z.identity = e.finish)
    (h : w.IsRelationshipOf root depth taken e o start finish) :
    ∃ m, w.registry.resolve ⟨a.label, e.label, z.label⟩ = .ok m ∧
      m.object = some (w.heap.typeOf o) := by
  obtain ⟨dStart, dFinish, m, hStartNode, hFinishNode, hResolve, hObject⟩ :=
    object_declared hFrozen hTyped h
  obtain ⟨hStartKey, hFinishKey⟩ := (Relates.object h).keys
  rw [← hStart] at hStartKey
  rw [← hFinish] at hFinishKey
  rw [← label_of_key hFinished hApart ha hStartNode hStartKey,
    ← label_of_key hFinished hApart hz hFinishNode hFinishKey] at hResolve
  exact ⟨m, hResolve, hObject⟩

/-- A plain relationship resolves between the nodes with its keys. -/
theorem plain_resolves (hStart : a.identity = e.start) (hFinish : z.identity = e.finish)
    {owner : Ref}
    (hMove : Move.follow owner role target ∈ w.trail (w.givenKey root depth taken) depth root none)
    (hNode : w.NodeAs target d) (hEdge : e = plainEdge role (w.givenKey root depth taken owner)
      (w.givenKey root depth taken target)) :
    ∃ m, w.registry.resolve ⟨a.label, e.label, z.label⟩ = .ok m ∧ m.object = none := by
  obtain ⟨hReference, left, came, hVisit⟩ := follow_mem_trail_iff.1 hMove
  obtain ⟨dOwner, hOwner⟩ := node_of_visit hFinished hVisit
  obtain ⟨m, hResolve, hNone⟩ := plain_declared hFrozen hTyped hOwner hNode hReference
  have hOwnerKey := hFinished.identified_iff.1 (identified_of_visit hFinished hVisit)
  have hTargetKey := hFinished.identified_iff.1
    (hFinished.recorded.edges.met owner role target d hMove hNode).1
  have hKeys := (Relates.plain hReference hNode hOwnerKey hTargetKey hEdge).keys
  rw [← hStart, ← hFinish] at hKeys
  -- The walk and the registry orient the relationship alike, whatever its direction.
  have hLabels : (a.label, z.label) = oriented role.direction dOwner.label d.label := by
    cases hDirection : role.direction <;> rw [hDirection] at hKeys
    · exact Prod.ext (label_of_key hFinished hApart ha hNode hKeys.1)
        (label_of_key hFinished hApart hz hOwner hKeys.2)
    all_goals
      exact Prod.ext (label_of_key hFinished hApart ha hOwner hKeys.1)
        (label_of_key hFinished hApart hz hNode hKeys.2)
  have hEdgeLabel : e.label = role.label := by rw [hEdge]; rfl
  rw [← hLabels, ← hEdgeLabel] at hResolve
  exact ⟨m, hResolve, hNone⟩

end

theorem IsRelationshipOf.object (h : w.IsRelationshipOf root depth taken e o start finish) :
    e.object = true := by
  obtain ⟨_, _, _, _, -, -, -, -, hObject, -⟩ := h
  exact hObject

/-- Every planned relationship is declared between the labels of planned nodes. -/
theorem resolves_of_planned (hFrozen : builder.build = .ok w.registry) (hTyped : w.WellTyped)
    (hFinished : w.Finished root depth taken p s) (hApart : w.KeysApart root depth taken)
    (he : e ∈ p.allEdges) : w.Resolves root depth taken p e := by
  obtain ⟨⟨a, ha, hStart⟩, z, hz, hFinish⟩ := placed_of_planned hFinished he
  refine ⟨a, ha, z, hz, hStart, hFinish, ?_⟩
  rcases planned_edge_cases hFinished he with ⟨owner, role, target, d, hMove, hNode, hEdge⟩ |
    ⟨object, hCarries⟩
  · obtain ⟨m, hResolve, hNone⟩ := plain_resolves hFrozen hTyped hFinished hApart ha hz hStart hFinish
      hMove hNode hEdge
    have hPlain : e.object ≠ true := by
      rw [hEdge]
      exact Bool.false_ne_true
    exact ⟨m, hResolve, bound_of_resolve hFrozen hFinished ha hz hResolve, fun _ => hNone,
      fun hObject => absurd hObject hPlain, fun o x y h => absurd h.object hPlain⟩
  · obtain ⟨start, finish, hRelationship⟩ := isRelationshipOf_of_carries hFinished hCarries
    obtain ⟨m, hResolve, -⟩ :=
      object_resolves hFrozen hTyped hFinished hApart ha hz hStart hFinish hRelationship
    refine ⟨m, hResolve, bound_of_resolve hFrozen hFinished ha hz hResolve, fun hPlain => ?_,
      fun _ => ⟨object, start, finish, hRelationship⟩, fun o x y h => ?_⟩
    · rw [hRelationship.object] at hPlain
      cases hPlain
    · -- Another object with the same relationship has the same key in the table, so the same type.
      obtain ⟨m', hResolve', hObject⟩ :=
        object_resolves hFrozen hTyped hFinished hApart ha hz hStart hFinish h
      rw [ok_unique hResolve hResolve']
      exact hObject

end Walker

end GraphMapping
