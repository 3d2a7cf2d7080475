import GraphMapping.Proofs.Mapping.Registered
import GraphMapping.Proofs.ObjectGraph.Contents
import GraphMapping.Proofs.ObjectGraph.Snapshots
import GraphMapping.Proofs.Walk.Declared
import GraphMapping.Proofs.Walk.Plain
import GraphMapping.Proofs.Walk.Settled

/-!
# Planning what was loaded

The registry picks the fields that a stored relationship is loaded into.  Whichever it picks, the field is of
the relationship's type and leads from the node that holds it to the other end, or to the relationship's
object.  So a walk through a loaded graph stays among its nodes and finds its relationships again: where the
nodes hold their keys, the plan has nothing new in it.
-/

namespace GraphMapping

namespace Walker

variable {σ : Type} (w : Walker σ)

/-- The nodes of a loaded graph hold usable keys, each its own.  Where keys are generated, so do the
relationship-objects that have a field for one. -/
structure Keyed (graph : ObjectGraph) : Prop where
  nodes : ∀ entry ∈ graph.nodes, (w.heldKey entry.2).isSome
  apart : (graph.nodes.map fun entry => w.heldKey entry.2).Nodup
  objects : w.registry.strategy.isNative = false → ∀ entry ∈ graph.edges, ∀ d,
    w.descriptor entry.2 = .ok d → d.key?.isSome → (w.heldKey entry.2).isSome

/-- A key is held by the node with a number, and by no other node. -/
structure Names (graph : ObjectGraph) (key : String) (n : Int64) : Prop where
  held : ∃ r, graph.get? n = some r ∧ w.heldKey r = some key
  only : ∀ m r, graph.get? m = some r → w.heldKey r = some key → m = n

/-- A planned node is that of a stored node: it stands for the node's object, with the label of its type and
under the key that it holds, and is not new. -/
structure RestoresNode (graph : ObjectGraph) (n : PlannedNode) (stored : StoredNode) : Prop where
  object : graph.get? stored.id = some n.ref
  label : ∃ d, w.registry.withLabels stored.labels = .ok d ∧ n.label = d.label
  old : n.isNew = false
  key : w.heldKey n.ref = some n.identity

/-- A planned relationship is a stored one: it is of the same type, has an object if that one does, and joins
the same two nodes.  It has the same start and the same end, unless it has no direction. -/
structure Restores (graph : ObjectGraph) (e : PlannedEdge) (stored : StoredEdge) : Prop where
  label : e.label = stored.type
  object : e.object = (graph.edges.lookup stored.id).isSome
  ends : (w.Names graph e.start stored.start ∧ w.Names graph e.finish stored.finish) ∨
    e.undirected = true ∧ w.Names graph e.start stored.finish ∧ w.Names graph e.finish stored.start

end Walker

/-! ## Where the entries of fields come from -/

theorem mem_held {many : Bool} {entries : List Ref} {r : Ref} (h : r ∈ held many [] entries) :
    r ∈ entries := by
  cases many with
  | true =>
      rw [held_many] at h
      exact h
  | false =>
      rw [held_one] at h
      exact List.mem_of_getLast? (Option.mem_toList.1 h)

/-- An entry of a field is there for one side of the relationship, on which the field is bound. -/
theorem mem_entries {l : EdgeLink} {nodes : List (Int64 × Ref)} {n : Int64} {field : String} {target : Ref}
    (h : target ∈ l.entries nodes n field) : ∃ side m b, (l.edge.start, l.edge.finish) = side.order n m ∧
      l.taken.on side = some b ∧ b.field = field ∧ l.object.or (nodes.lookup m) = some target := by
  unfold EdgeLink.entries at h
  rcases List.mem_append.1 h with hStart | hFinish
  · split at hStart
    · rename_i hBound
      obtain ⟨b, hb, hField⟩ := (Option.any_eq_true _ _).1 hBound.2
      refine ⟨.start, l.edge.finish, b, ?_, hb, by simpa using hField, Option.mem_toList.1 hStart⟩
      rw [← hBound.1]
      rfl
    · cases hStart
  · split at hFinish
    · rename_i hBound
      obtain ⟨b, hb, hField⟩ := (Option.any_eq_true _ _).1 hBound.2
      refine ⟨.finish, l.edge.start, b, ?_, hb, by simpa using hField, Option.mem_toList.1 hFinish⟩
      rw [← hBound.1]
      rfl
    · cases hFinish

/-- The type on the near side of a relationship is that of the object there. -/
theorem Joins.near {σ : Type} {registry : Registry} {labels : List (Int64 × String)}
    {nodes : List (Int64 × Ref)} {heap : Heap σ} {l : EdgeLink} {first last : TypeDescriptor} {x y r : Ref}
    {side : Side} {n m : Int64} {near far : TypeName} (h : Joins registry labels nodes heap l first last x y)
    (hEnds : (l.edge.start, l.edge.finish) = side.order n m)
    (hOrder : (first.type, last.type) = side.order near far) (hr : nodes.lookup n = some r) :
    near = heap.typeOf r := by
  cases side with
  | start =>
      cases hEnds
      cases hOrder
      cases Option.some.inj (h.start.1.symm.trans hr)
      exact h.start.2.symm
  | finish =>
      cases hEnds
      cases hOrder
      cases Option.some.inj (h.finish.1.symm.trans hr)
      exact h.finish.2.symm

/-- A relationship that is planned from one of its sides has the start and the end that it has there, or,
without a direction, these two the other way round. -/
theorem plainEdge_order {role : RelationshipRole} {side : Side} (h : role.direction ≠ side.against)
    (ownerKey targetKey : String) :
    ((plainEdge role ownerKey targetKey).start, (plainEdge role ownerKey targetKey).finish) =
        side.order ownerKey targetKey ∨
      (plainEdge role ownerKey targetKey).undirected = true ∧
        ((plainEdge role ownerKey targetKey).finish, (plainEdge role ownerKey targetKey).start) =
          side.order ownerKey targetKey := by
  have hEnds := plainEdge_ends role ownerKey targetKey
  cases hDirection : role.direction with
  | incoming =>
      rw [hDirection] at hEnds h
      cases side with
      | start => exact absurd rfl h
      | finish => exact .inl hEnds
  | outgoing =>
      rw [hDirection] at hEnds h
      cases side with
      | start => exact .inl hEnds
      | finish => exact absurd rfl h
  | both =>
      have hUndirected := (Walker.plainEdge_undirected role ownerKey targetKey).2 hDirection
      rw [hDirection] at hEnds
      obtain ⟨hStart, hFinish⟩ := Prod.mk.inj hEnds
      cases side with
      | start => exact .inl hEnds
      | finish => exact .inr ⟨hUndirected, Prod.ext hFinish hStart⟩

namespace Walker

variable {σ : Type} {w : Walker σ} {result : LoadResult} {edges : List StoredEdge} {graph : ObjectGraph}
  {links : List EdgeLink} {l : EdgeLink} {n : Int64} {r o owner target : Ref} {role : RelationshipRole}
  {key : String} {e : PlannedEdge} {builder : RegistryBuilder}

theorem Keyed.names (h : w.Keyed graph) (hr : graph.get? n = some r) (hKey : w.heldKey r = some key) :
    w.Names graph key n := by
  refine ⟨⟨r, hr, hKey⟩, fun m r' hr' hKey' => ?_⟩
  have hSame : (m, r') = (n, r) := List.inj_on_of_nodup_map h.apart (mem_of_lookup hr')
    (mem_of_lookup hr) (hKey'.trans hKey.symm)
  exact congrArg Prod.fst hSame

theorem names_order {side : Side} {m a z : Int64} {ownerKey targetKey start finish : String}
    (hOwner : w.Names graph ownerKey n) (hTarget : w.Names graph targetKey m)
    (hEnds : (a, z) = side.order n m) (hKeys : (start, finish) = side.order ownerKey targetKey) :
    w.Names graph start a ∧ w.Names graph finish z := by
  cases side with
  | start =>
      cases hEnds
      cases hKeys
      exact ⟨hOwner, hTarget⟩
  | finish =>
      cases hEnds
      cases hKeys
      exact ⟨hTarget, hOwner⟩

section

variable (h : Loaded w.model w.registry result edges graph links w.heap)
  (hNames : w.registry.Unambiguous)

include h

/-- The object of a node is that of its first entry. -/
theorem entry_of_loaded (hr : graph.get? n = some r) :
    ∃ node ∈ eachOnce (·.id) (result.primaries ++ result.others), node.id = n := by
  have hNumber : n ∈ graph.nodes.map (·.1) := List.mem_map_of_mem (mem_of_lookup hr)
  rw [h.numbers] at hNumber
  exact List.mem_map.1 hNumber

/-- The object of a relationship knows the objects of its ends. -/
theorem objectAs_of_loaded (hl : l ∈ links) (ho : l.object = some o) :
    ∃ d x y, w.ObjectAs o d x y ∧ graph.get? l.edge.start = some x ∧
      graph.get? l.edge.finish = some y := by
  obtain ⟨first, last, x, y, hReady⟩ := h.ready l hl
  have hJoins := hReady.joins
  have hStart : graph.get? l.edge.start = some x := hJoins.start.1
  have hFinish : graph.get? l.edge.finish = some y := hJoins.finish.1
  have hTaken := hJoins.object
  rw [ho] at hTaken
  obtain ⟨d, hType, hSides⟩ := hJoins.fits.object _ hTaken.symm
  refine ⟨d, x, y, ⟨hType, ?_, ?_⟩, hStart, hFinish⟩
  · unfold TypeDescriptor.isObject
    rw [hSides]
    rfl
  · unfold endsOf
    rw [(h.ends l hl o ho).2, hStart, hFinish]

theorem settledObject_of_loaded (hSeparates : w.model.Separates) (hKeeps : w.model.KeepsMaps w.registry)
    (hKeyed : w.Keyed graph) {d : TypeDescriptor} (hl : l ∈ links) (ho : l.object = some o)
    (hType : w.descriptor o = .ok d) : w.SettledObject o d := by
  obtain ⟨-, d', state, hType', hState, hRead⟩ := (h.ends l hl o ho).1
  cases ok_unique hType hType'
  refine ⟨snapshot_of_populate hSeparates hKeeps (mem_of_descriptor hType).1 hState hRead, ?_⟩
  by_cases hNative : w.registry.strategy.isNative = true
  · exact .inl hNative
  · refine .inr ?_
    cases hPk : d.key? with
    | none => exact .inl rfl
    | some pk =>
        have hMem : (l.edge.id, o) ∈ graph.edges := by
          rw [h.objects]
          exact List.mem_filterMap.2 ⟨l, hl, by rw [ho]; rfl⟩
        exact .inr (hKeyed.objects (by simpa using hNative) _ hMem d hType (by rw [hPk]; rfl))

/-- Links with different objects are of different relationships. -/
theorem apart_of_objects {objects : List Ref} {taken : List EdgeLink} (hNodup : objects.Nodup)
    (hTaken : ∀ l ∈ taken, l ∈ links)
    (hObjects : List.Forall₂ (fun o l => l.object = some o) objects taken) :
    (taken.map (·.edge.id)).Nodup := by
  have hSame : taken.map (·.object) = objects.map some := by
    induction hObjects with
    | nil => rfl
    | cons hHead _ ih =>
        rw [List.map_cons, List.map_cons, hHead, ih (List.nodup_cons.1 hNodup).2
          fun l hl => hTaken l (List.mem_cons_of_mem _ hl)]
  have hApart : taken.Nodup := by
    refine List.Nodup.of_map (·.object) ?_
    rw [hSame]
    exact hNodup.map fun _ _ hSame => Option.some.inj hSame
  exact hApart.map_on fun l hl l' hl' hId =>
    List.inj_on_of_nodup_map h.numbers_nodup (hTaken l hl) (hTaken l' hl') hId

include hNames

/-- A loaded object is of the type that its node's labels stand for, and its fields hold what the
relationships put into them. -/
theorem node_of_loaded {node : StoredNode}
    (hNode : node ∈ eachOnce (·.id) (result.primaries ++ result.others))
    (hr : graph.get? node.id = some r) :
    ∃ d, w.registry.withLabels node.labels = .ok d ∧ w.NodeAs r d ∧
      ∀ f role, (f, role) ∈ d.relationships → w.model.related (w.heap.stateOf r) f.field =
        held role.many [] (links.flatMap fun l => l.entries graph.nodes node.id f.field) := by
  obtain ⟨r', d, -, hr', hLabels, hHolds, -, -, hFields⟩ := h.node node hNode
  cases Option.some.inj (hr.symm.trans hr')
  obtain ⟨hd, hPlain⟩ := Registry.mem_of_withLabels hLabels
  refine ⟨d, hLabels, ⟨?_, hPlain⟩, hFields⟩
  unfold descriptor
  rw [hHolds.2.1]
  exact hNames.descriptor hd

theorem isNode_of_loaded (hr : graph.get? n = some r) : ∃ d, w.NodeAs r d := by
  obtain ⟨node, hNode, rfl⟩ := entry_of_loaded h hr
  obtain ⟨d, -, hAs, -⟩ := node_of_loaded h hNames hNode hr
  exact ⟨d, hAs⟩

/-- The object of a node is of the type that a relationship is looked up with there. -/
theorem nodeAs_of_loaded {d : TypeDescriptor} (hr : graph.get? n = some r) (hd : d ∈ w.registry.types)
    (hType : w.heap.typeOf r = d.type) : w.NodeAs r d := by
  obtain ⟨d', hAs⟩ := isNode_of_loaded h hNames hr
  obtain ⟨hd', hType'⟩ := mem_of_descriptor hAs.1
  cases hNames.type_unique hd' hd (hType'.trans hType)
  exact hAs

/-- Whatever a field of a loaded node refers to comes from a relationship of the field's type.  The node is
at one end of it, and the field leads to the other end or to the relationship's object. -/
theorem link_of_reference (hFrozen : builder.build = .ok w.registry) (hr : graph.get? n = some owner)
    (hReference : (role, target) ∈ w.referencesOf owner) :
    ∃ l ∈ links, ∃ (side : Side) (m : Int64), (l.edge.start, l.edge.finish) = side.order n m ∧
      l.object.or (graph.get? m) = some target ∧ role.label = l.edge.type ∧
      (l.object = none → role.direction ≠ side.against) := by
  obtain ⟨node, hNode, rfl⟩ := entry_of_loaded h hr
  obtain ⟨d, -, hAs, hFields⟩ := node_of_loaded h hNames hNode hr
  obtain ⟨f, hField, hRelated⟩ := mem_referencesOf hAs.1 hReference
  rw [hFields f role hField] at hRelated
  obtain ⟨l, hl, hEntry⟩ := List.mem_flatMap.1 (mem_held hRelated)
  obtain ⟨side, m, b, hEnds, hBound, hName, hTarget⟩ := mem_entries hEntry
  obtain ⟨first, last, x, y, hReady⟩ := h.ready l hl
  have hJoins := hReady.joins
  have hFirst := nodeAs_of_loaded h hNames hJoins.start.1 hJoins.types.1 hJoins.start.2
  have hLast := nodeAs_of_loaded h hNames hJoins.finish.1 hJoins.types.2 hJoins.finish.2
  obtain ⟨near, far, hOrder, hBinds⟩ := Registry.binds_of_resolve hFrozen hJoins.types.1
    hJoins.types.2 hFirst.2 hLast.2 hJoins.resolved hBound
  rw [hJoins.near hEnds hOrder hr, ← (mem_of_descriptor hAs.1).2, hName] at hBinds
  obtain ⟨hLabel, hDirection⟩ := hNames.role_of_binds hBinds (mem_of_descriptor hAs.1).1 hField
  refine ⟨l, hl, side, m, hEnds, hTarget, hLabel, fun hPlain => hDirection ?_⟩
  rw [← hJoins.object, hPlain]
  rfl

/-- The nodes of a loaded graph are settled if they hold their keys. -/
theorem settled_of_loaded (hFrozen : builder.build = .ok w.registry) (hSeparates : w.model.Separates)
    (hKeeps : w.model.KeepsMaps w.registry) (hKeyed : w.Keyed graph) :
    w.Settled fun r => ∃ n, graph.get? n = some r := by
  refine ⟨?_, ?_⟩
  · rintro r ⟨n, hr⟩
    obtain ⟨node, hNode, rfl⟩ := entry_of_loaded h hr
    obtain ⟨d, hLabels, hAs, -⟩ := node_of_loaded h hNames hNode hr
    obtain ⟨r', d', state, hr', hLabels', -, hState, hRead, -⟩ := h.node node hNode
    cases Option.some.inj (hr.symm.trans hr')
    cases ok_unique hLabels hLabels'
    obtain ⟨key, hKey⟩ := Option.isSome_iff_exists.1 (hKeyed.nodes _ (mem_of_lookup hr))
    obtain ⟨params, hParams⟩ :=
      snapshot_of_populate hSeparates hKeeps (mem_of_descriptor hAs.1).1 hState hRead
    exact ⟨d, key, params, hAs, hKey, hParams⟩
  · rintro r ⟨n, hr⟩ role target hReference
    obtain ⟨l, hl, side, m, hEnds, hTarget, -⟩ := link_of_reference h hNames hFrozen hr hReference
    cases hObject : l.object with
    | none =>
        rw [hObject] at hTarget
        exact .inl ⟨m, hTarget⟩
    | some o =>
        rw [hObject] at hTarget
        cases Option.some.inj hTarget
        obtain ⟨d, x, y, hAs, hx, hy⟩ := objectAs_of_loaded h hl hObject
        refine .inr ⟨d, x, y, hAs, ⟨_, hx⟩, ⟨_, hy⟩, ?_,
          settledObject_of_loaded h hSeparates hKeeps hKeyed hl hObject hAs.1⟩
        cases side with
        | start =>
            cases hEnds
            exact .inl (Option.some.inj (hx.symm.trans hr))
        | finish =>
            cases hEnds
            exact .inr (Option.some.inj (hy.symm.trans hr))

/-! ## What is planned is what was loaded -/

/-- A relationship that is planned from a reference to a node is the stored one that the reference comes
from. -/
theorem restores_plain (hFrozen : builder.build = .ok w.registry) (hKeyed : w.Keyed graph) {m : Int64}
    {ownerKey targetKey : String} (hOwner : graph.get? n = some owner)
    (hTarget : graph.get? m = some target) (hReference : (role, target) ∈ w.referencesOf owner)
    (hOwnerKey : w.heldKey owner = some ownerKey) (hTargetKey : w.heldKey target = some targetKey) :
    ∃ l ∈ links, w.Restores graph (plainEdge role ownerKey targetKey) l.edge := by
  obtain ⟨d, hAs⟩ := isNode_of_loaded h hNames hTarget
  obtain ⟨l, hl, side, far, hEnds, hFar, hLabel, hDirection⟩ :=
    link_of_reference h hNames hFrozen hOwner hReference
  have hPlain : l.object = none := by
    cases hObject : l.object with
    | none => rfl
    | some o =>
        rw [hObject] at hFar
        cases Option.some.inj hFar
        obtain ⟨_, _, _, hObjectAs, -⟩ := objectAs_of_loaded h hl hObject
        exact absurd hAs hObjectAs.not_node
  rw [hPlain] at hFar
  have hOwnerNames := hKeyed.names hOwner hOwnerKey
  have hTargetNames := hKeyed.names hFar hTargetKey
  refine ⟨l, hl, ?_, ?_, ?_⟩
  · rw [← hLabel]
    rfl
  · rw [h.lookup_edge hl, hPlain]
    rfl
  · rcases plainEdge_order (hDirection hPlain) ownerKey targetKey with hKeys | ⟨hUndirected, hKeys⟩
    · exact .inl (names_order hOwnerNames hTargetNames hEnds hKeys)
    · exact .inr ⟨hUndirected, (names_order hOwnerNames hTargetNames hEnds hKeys).symm⟩

/-- A relationship that is planned from a relationship-object is the stored one that the object was made
for. -/
theorem restores_object (hFrozen : builder.build = .ok w.registry) (hKeyed : w.Keyed graph)
    (hObject : w.ComesFrom (fun r => ∃ n, graph.get? n = some r) e o) :
    ∃ l, (l ∈ links ∧ w.Restores graph e l.edge) ∧ l.object = some o := by
  obtain ⟨owner, role, d, start, finish, ⟨n, hOwner⟩, hReference, hAs, hHas, hLabel, hStart, hFinish⟩ :=
    hObject
  obtain ⟨l, hl, side, far, -, hFar, hType, -⟩ := link_of_reference h hNames hFrozen hOwner hReference
  have hOwn : l.object = some o := by
    cases hLinked : l.object with
    | none =>
        rw [hLinked] at hFar
        obtain ⟨d', hNodeAs⟩ := isNode_of_loaded h hNames hFar
        exact absurd hNodeAs hAs.not_node
    | some o' =>
        rw [hLinked] at hFar
        exact hFar
  obtain ⟨_, x, y, hAs', hx, hy⟩ := objectAs_of_loaded h hl hOwn
  obtain ⟨-, rfl, rfl⟩ := hAs'.unique hAs
  refine ⟨l, ⟨hl, hLabel.trans hType, ?_, ?_⟩, hOwn⟩
  · rw [h.lookup_edge hl, hOwn, hHas]
    rfl
  · exact .inl ⟨hKeyed.names hx hStart, hKeyed.names hy hFinish⟩

/-- Relationships that are planned from different relationship-objects are different stored ones. -/
theorem restores_objects (hFrozen : builder.build = .ok w.registry) (hKeyed : w.Keyed graph)
    {planned : List PlannedEdge} {objects : List Ref} (hApart : objects.Nodup)
    (hEach : List.Forall₂ (w.ComesFrom fun r => ∃ n, graph.get? n = some r) planned objects) :
    ∃ stored : List StoredEdge, (stored.map (·.id)).Nodup ∧ stored ⊆ eachOnce (·.id) edges ∧
      List.Forall₂ (w.Restores graph) planned stored := by
  obtain ⟨found, hFound, hOwn⟩ := forall₂_through hEach fun e o hObject =>
    restores_object h hNames hFrozen hKeyed hObject
  have hLinks : ∀ l ∈ found, l ∈ links := by
    intro l hl
    obtain ⟨e, -, hMem, -⟩ := (exists_of_forall₂ hFound).2 l hl
    exact hMem
  refine ⟨found.map (·.edge), ?_, ?_, ?_⟩
  · rw [List.map_map]
    exact apart_of_objects h hApart hLinks hOwn
  · intro stored hStored
    obtain ⟨l, hl, rfl⟩ := List.mem_map.1 hStored
    exact h.edge_mem (hLinks l hl)
  · exact List.forall₂_map_right_iff.2 (hFound.imp fun _ _ h => h.2)

end

/-- Planning a loaded graph from one of its matched nodes invents nothing.  If names lead to one type and one
field, and the nodes hold usable keys, each its own, then the plan succeeds at every allowed depth, with no
new node and no generated key.  Every planned node is one that was stored, and so is every planned
relationship: it is of the same type and joins the same nodes, in the same direction if it has one.
Relationships that are planned for different relationship-objects are different ones. -/
theorem replan_restores (w : Walker σ) (strategy : KeyStrategy) (decls : List TypeDecl)
    (hFrozen : Registry.ofDecls strategy decls = .ok w.registry)
    (hNames : ∀ decl ∈ decls, (decl.fields.map (·.name)).Nodup) (hSeparates : w.model.Separates)
    (hRelates : w.model.Relates w.registry) (hKeeps : w.model.KeepsMaps w.registry)
    (result : LoadResult) (heap : Heap σ) (graph : ObjectGraph)
    (h : ObjectGraph.ofResult w.model w.registry result heap = .ok (graph, w.heap))
    (hKeyed : w.Keyed graph) (root : Ref) (hRoot : root ∈ graph.primaryRefs) (depth taken : Nat)
    (hDepth : depth ≤ maxDepth) :
    ∃ p, Plan.make w.model w.registry w.heap root depth taken = (.ok p, taken) ∧ p.assigned = [] ∧
      (∀ n ∈ p.allNodes, ∃ stored ∈ eachOnce (·.id) (result.primaries ++ result.others),
        w.RestoresNode graph n stored) ∧
      ∃ edges, result.relationships = .ok edges ∧
        (∀ e ∈ p.allEdges, ∃ stored ∈ eachOnce (·.id) edges, w.Restores graph e stored) ∧
        ∃ stored : List StoredEdge, (stored.map (·.id)).Nodup ∧ stored ⊆ eachOnce (·.id) edges ∧
          List.Forall₂ (w.Restores graph) (p.allEdges.filter (·.object)) stored := by
  obtain ⟨⟨builder, hBuilt⟩, -⟩ := Registry.ofDecls_cases hFrozen
  have hUnambiguous := Registry.ofDecls_unambiguous hNames hFrozen
  obtain ⟨edges, links, hLoaded⟩ := loaded_of_ofResult hBuilt hSeparates hRelates h
  have hSettled := settled_of_loaded hLoaded hUnambiguous hBuilt hSeparates hKeeps hKeyed
  obtain ⟨first, -, hRoot⟩ := List.mem_filterMap.1 hRoot
  obtain ⟨p, hMake, hAssigned⟩ := hSettled.make ⟨first, hRoot⟩ hDepth taken
  obtain ⟨s, hPlan, -, hIdentity, hTakes⟩ := takes_of_make hMake
  have hFinished : w.Finished root depth taken p s := ⟨hPlan, hIdentity, .of_takes hTakes⟩
  have hIdentities := IdentityRecords.of_takes hTakes
  obtain ⟨objects, hApart, hEach⟩ := hSettled.planned_objects ⟨first, hRoot⟩ hFinished hIdentities
  obtain ⟨stored, hDistinct, hMem, hObjects⟩ :=
    restores_objects hLoaded hUnambiguous hBuilt hKeyed hApart hEach
  refine ⟨p, hMake, hAssigned, fun n hn => ?_, edges, hLoaded.relationships, fun e he => ?_,
    stored, hDistinct, hMem, hObjects⟩
  · obtain ⟨⟨m, hm⟩, ⟨d, hAs, hLabel⟩, hOld, hKey⟩ :=
      hSettled.planned_node ⟨first, hRoot⟩ hFinished hIdentities hn
    obtain ⟨node, hNode, rfl⟩ := entry_of_loaded hLoaded hm
    obtain ⟨d', hLabels, hAs', -⟩ := node_of_loaded hLoaded hUnambiguous hNode hm
    cases ok_unique hAs.1 hAs'.1
    exact ⟨node, hNode, hm, ⟨d, hLabels, hLabel⟩, hOld, hKey⟩
  · cases hObject : e.object with
    | false =>
        obtain ⟨owner, role, target, ownerKey, targetKey, ⟨n, hOwner⟩, ⟨m, hTarget⟩, hReference,
          hOwnerKey, hTargetKey, rfl⟩ :=
            hSettled.planned_plain ⟨first, hRoot⟩ hFinished hIdentities he hObject
        obtain ⟨l, hl, hRestores⟩ := restores_plain hLoaded hUnambiguous hBuilt hKeyed hOwner hTarget
          hReference hOwnerKey hTargetKey
        exact ⟨l.edge, hLoaded.edge_mem hl, hRestores⟩
    | true =>
        obtain ⟨found, hFound, hRestores⟩ :=
          (exists_of_forall₂ hObjects).1 e (List.mem_filter.2 ⟨he, hObject⟩)
        exact ⟨found, hMem hFound, hRestores⟩

end Walker

namespace Cinema

/-- What the gala's result is loaded as. -/
def galaGraph : ObjectGraph :=
  ⟨[(1, 0), (2, 1), (3, 2)], [(10, 3)], [1]⟩

/-- The objects of the gala after its result was loaded. -/
def galaWalker : Walker DeclaredObject :=
  ⟨declaredModel types, registry,
    match ObjectGraph.ofResult (declaredModel types) registry gala (Heap.empty (declaredModel types)) with
    | .ok (_, heap) => heap
    | .error _ => Heap.empty (declaredModel types)⟩

end Cinema

theorem gala_restores : ∃ p,
    Plan.make Cinema.galaWalker.model Cinema.registry Cinema.galaWalker.heap 0 3 0 = (.ok p, 0) ∧
    p.assigned = [] ∧
    ∃ edges, Cinema.gala.relationships = .ok edges ∧
      ∀ e ∈ p.allEdges, ∃ stored ∈ eachOnce (·.id) edges,
        Cinema.galaWalker.Restores Cinema.galaGraph e stored := by
  have hKeyed : Cinema.galaWalker.Keyed Cinema.galaGraph := by
    refine ⟨by decide +kernel, by decide +kernel, ?_⟩
    intro _ entry hEntry d hType hKey
    cases List.mem_singleton.1 hEntry
    cases hType
    cases hKey
  obtain ⟨p, hMake, hAssigned, -, edges, hEdges, hRestores, -⟩ := Walker.replan_restores
    Cinema.galaWalker Cinema.strategy [Cinema.person.decl, Cinema.movie.decl, Cinema.role.decl] (by rfl)
    (by decide) (declaredModel_separates Cinema.types) Cinema.relates
    (declaredModel_keepsMaps Cinema.types Cinema.registry) Cinema.gala
    (Heap.empty Cinema.galaWalker.model) Cinema.galaGraph (by rfl) hKeyed 0 (by decide) 3 0 (by decide)
  exact ⟨p, hMake, hAssigned, edges, hEdges, hRestores⟩

end GraphMapping
