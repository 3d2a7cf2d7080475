import GraphMapping.Proofs.ObjectGraph.Rebuild
import GraphMapping.Proofs.Walk.Ball
import GraphMapping.Proofs.Walk.Declared

/-!
# Whatever is planned can be loaded

A plan names nodes and relationships as a database would store them.  If the database numbers them and
gives them back, with the node of the root as the match, then objects for all of them can be built and
linked: one of its type for each planned node, and one for each relationship with an object of its own.
-/

namespace GraphMapping

/-- The stored properties of a planned node: those that are not null, and the key. -/
def PlannedNode.properties (strategy : KeyStrategy) (n : PlannedNode) : Dict Value :=
  let present := n.params.filter fun entry => !entry.2.isNull
  match n.key with
  | some key => Dict.insert present strategy.field key
  | none => present

/-- A planned node as the database gives it back. -/
def PlannedNode.stored (strategy : KeyStrategy) (number : String → Int64) (n : PlannedNode) :
    StoredNode :=
  ⟨number n.identity, [n.label], n.properties strategy⟩

/-- A planned relationship as the database gives it back. -/
def PlannedEdge.stored (number : String → Int64) (e : PlannedEdge) (id : Int64) : StoredEdge :=
  ⟨id, number e.start, number e.finish, e.label, e.params⟩

/-- The relationships of a plan as the database gives them back. -/
def Plan.storedEdges (p : Plan) (number : String → Int64) (edgeIds : List Int64) :
    List StoredEdge :=
  (p.allEdges.zip edgeIds).map fun entry => entry.1.stored number entry.2

/-- All that is planned, as the answer that matched the first node. -/
def Plan.loaded (p : Plan) (strategy : KeyStrategy) (number : String → Int64) (edgeIds : List Int64)
    (first : PlannedNode) : LoadResult :=
  .ofParts (p.storedEdges number edgeIds) (p.allNodes.map (·.stored strategy number))
    [first.stored strategy number]

theorem relationships_ofParts (edges : List StoredEdge) (others primaries : List StoredNode) :
    (LoadResult.ofParts edges others primaries).relationships = .ok edges := by
  have hPresent : ∀ index, LoadResult.present index (edges.map some) = .ok edges := by
    induction edges with
    | nil => exact fun index => rfl
    | cons e rest ih =>
        intro index
        change (LoadResult.present (index + 1) (rest.map some) >>= _) = _
        rw [ih]
        rfl
  exact hPresent 1

/-- The numbers of the objects of relationships, where these are the ones that ask for an object. -/
theorem objects_of_links {entries : List (PlannedEdge × Int64)} {links : List EdgeLink}
    (h : List.Forall₂ (fun entry l => l.edge.id = entry.2 ∧ l.object.isSome = entry.1.object)
      entries links) :
    (links.filterMap fun l => l.object.map fun r => (l.edge.id, r)).map (·.1) =
      (entries.filter (·.1.object)).map (·.2) := by
  induction h with
  | nil => rfl
  | @cons entry l entries links hHead _ ih =>
      obtain ⟨hId, hObject⟩ := hHead
      cases hSome : l.object with
      | none =>
          rw [hSome] at hObject
          have hPlain : entry.1.object = false := hObject.symm
          simp [hSome, hPlain, ih]
      | some r =>
          rw [hSome] at hObject
          have hHas : entry.1.object = true := hObject.symm
          simp [hSome, hHas, ih, hId]

namespace Walker

variable {σ : Type} (w : Walker σ)

/-- The objects of all that is planned take the properties that are stored of them. -/
structure Refills (root : Ref) (depth taken : Nat) (p : Plan) (number : String → Int64)
    (edgeIds : List Int64) : Prop where
  nodes : ∀ n ∈ p.allNodes, ∀ d, w.descriptor n.ref = .ok d →
    w.model.Fills w.registry d (number n.identity) (n.properties w.registry.strategy)
  objects : ∀ e id, (e, id) ∈ p.allEdges.zip edgeIds → ∀ o start finish d,
    w.IsRelationshipOf root depth taken e o start finish → w.descriptor o = .ok d →
    w.model.Fills w.registry d id e.params

/-- What the objects built from a plan are: one for each planned node, of the type of the node's object,
and one for each planned relationship with an object of its own, of this object's type. -/
structure Reloaded (root : Ref) (depth taken : Nat) (p : Plan) (number : String → Int64)
    (edgeIds : List Int64) (graph : ObjectGraph) (heap : Heap σ) : Prop where
  nodes : (graph.nodes.map (·.1)).Perm (p.allNodes.map fun n => number n.identity)
  nodeTypes : ∀ n ∈ p.allNodes, ∃ r, graph.get? (number n.identity) = some r ∧
    heap.typeOf r = w.heap.typeOf n.ref
  objects : graph.edges.map (·.1) = ((p.allEdges.zip edgeIds).filter (·.1.object)).map (·.2)
  objectTypes : ∀ e id, (e, id) ∈ p.allEdges.zip edgeIds → ∀ o start finish,
    w.IsRelationshipOf root depth taken e o start finish →
    ∃ r, (id, r) ∈ graph.edges ∧ heap.typeOf r = w.heap.typeOf o
  apart : (graph.nodes.map (·.2) ++ graph.edges.map (·.2)).Nodup

variable {w} {root : Ref} {depth taken : Nat} {p : Plan} {s : WalkState}
  {number : String → Int64} {edgeIds : List Int64} {builder : RegistryBuilder}
  {first n m : PlannedNode} {e : PlannedEdge} {id : Int64}

theorem withLabels_of_node (hFrozen : builder.build = .ok w.registry) {r : Ref} {d : TypeDescriptor}
    (hNode : w.NodeAs r d) (hLabel : n.label = d.label) :
    w.registry.withLabels [n.label] = .ok d := by
  have hFound := Registry.withLabel_eq_some hFrozen (mem_of_descriptor hNode.1).1 hNode.2
  unfold Registry.withLabels
  rw [hLabel]
  simp [hFound]

section

variable (hFinished : w.Finished root depth taken p s)
  (hApart : w.KeysApart root depth taken)

include hFinished

/-- The node of the root is planned. -/
theorem root_planned : ∃ n ∈ p.allNodes, w.labelOf root = some n.label ∧
    w.identityOf root depth taken root = some n.identity := by
  have hVisit : w.Visits (w.givenKey root depth taken) depth root none depth root none := .root
  obtain ⟨hKnown, d, hNode, n, hn, hLabel, hIdentity⟩ :=
    hFinished.recorded.nodes.entered root (enter_mem_trail_iff.2 ⟨depth, none, hVisit⟩)
  rw [hFinished.plan] at hn
  refine ⟨n, hn, labelOf_eq_some.2 ⟨d, hNode.1, hLabel.symm⟩, ?_⟩
  rw [hIdentity]
  exact hFinished.identified_iff.1 hKnown

include hApart

/-- Where no two labels share a key, no two planned nodes do. -/
theorem node_unique (hn : n ∈ p.allNodes) (hm : m ∈ p.allNodes) (hKey : n.identity = m.identity) :
    n = m := by
  obtain ⟨d, -, -, hGiven⟩ := planned_node hFinished hn
  obtain ⟨d', hNode, hLabel, -⟩ := planned_node hFinished hn
  have hOwn : w.labelOf n.ref = some n.label := labelOf_eq_some.2 ⟨d', hNode.1, hLabel.symm⟩
  rw [hKey] at hGiven
  have hOther := planned_label hFinished hApart hm hGiven
  rw [hOwn] at hOther
  have hPlaces := hFinished.recorded.nodes.distinct
  rw [hFinished.plan] at hPlaces
  exact List.inj_on_of_nodup_map hPlaces hn hm (Prod.ext (Option.some.inj hOther) hKey)

/-- The numbers of planned nodes are told apart, if their keys have different numbers. -/
theorem numbers_nodup (hNumber : ∀ n ∈ p.allNodes, ∀ m ∈ p.allNodes,
      number n.identity = number m.identity → n.identity = m.identity) :
    (p.allNodes.map fun n => number n.identity).Nodup := by
  have hNodes : p.allNodes.Nodup := by
    have hPlaces := hFinished.recorded.nodes.distinct
    rw [hFinished.plan] at hPlaces
    exact hPlaces.of_map _
  refine List.Nodup.map_on ?_ hNodes
  intro n hn m hm hSame
  exact node_unique hFinished hApart hn hm (hNumber n hn m hm hSame)

theorem stored_nodesFit (hFrozen : builder.build = .ok w.registry)
    (hNumber : ∀ n ∈ p.allNodes, ∀ m ∈ p.allNodes,
      number n.identity = number m.identity → n.identity = m.identity)
    (hRefills : w.Refills root depth taken p number edgeIds) {nodes : List PlannedNode}
    (hNodes : ∀ n ∈ nodes, n ∈ p.allNodes) :
    NodesFit w.model w.registry (nodes.map (·.stored w.registry.strategy number)) := by
  constructor
  · intro a ha b hb hId
    obtain ⟨n, hn, rfl⟩ := List.mem_map.1 ha
    obtain ⟨m, hm, rfl⟩ := List.mem_map.1 hb
    have hKey := hNumber n (hNodes n hn) m (hNodes m hm) hId
    rw [node_unique hFinished hApart (hNodes n hn) (hNodes m hm) hKey]
  · intro a ha
    obtain ⟨n, hn, rfl⟩ := List.mem_map.1 ha
    obtain ⟨d, hNode, hLabel, -⟩ := planned_node hFinished (hNodes n hn)
    exact ⟨d, withLabels_of_node hFrozen hNode hLabel, hRefills.nodes n (hNodes n hn) d hNode.1⟩

theorem stored_edgesFit (hFrozen : builder.build = .ok w.registry) (hTyped : w.WellTyped)
    (hEdgeIds : edgeIds.Nodup) (hLength : edgeIds.length = p.allEdges.length)
    (hRefills : w.Refills root depth taken p number edgeIds)
    {nodes : List PlannedNode} (hNodes : ∀ n ∈ p.allNodes, n ∈ nodes) :
    EdgesFit w.model w.registry (nodes.map (·.stored w.registry.strategy number))
      (p.storedEdges number edgeIds) := by
  constructor
  · have hIds : (p.storedEdges number edgeIds).map (·.id) =
        (p.allEdges.zip edgeIds).map Prod.snd := by
      unfold Plan.storedEdges
      rw [List.map_map]
      rfl
    rw [hIds, List.map_snd_zip (Nat.le_of_eq hLength)]
    exact hEdgeIds
  · intro stored hStored
    obtain ⟨⟨e, id⟩, hEntry, rfl⟩ := List.mem_map.1 hStored
    have he : e ∈ p.allEdges := (List.of_mem_zip hEntry).1
    obtain ⟨a, ha, z, hz, hStart, hFinish, m, hResolve, -, hPlain, hFrom, hObject⟩ :=
      resolves_of_planned hFrozen hTyped hFinished hApart he
    obtain ⟨da, haNode, haLabel, -⟩ := planned_node hFinished ha
    obtain ⟨dz, hzNode, hzLabel, -⟩ := planned_node hFinished hz
    refine ⟨m, ⟨_, List.mem_map.2 ⟨a, hNodes a ha, rfl⟩, _, List.mem_map.2 ⟨z, hNodes z hz, rfl⟩,
      congrArg number hStart, congrArg number hFinish, da, dz,
      withLabels_of_node hFrozen haNode haLabel, withLabels_of_node hFrozen hzNode hzLabel, ?_⟩, ?_⟩
    · rw [← haLabel, ← hzLabel]
      exact hResolve
    · intro type hType
      cases hHas : e.object with
      | false =>
          rw [hPlain hHas] at hType
          cases hType
      | true =>
          obtain ⟨o, start, finish, hRelationship⟩ := hFrom hHas
          rw [hObject o start finish hRelationship] at hType
          cases hType
          have ⟨_, _, _, d, _, _, hObjectAs, _⟩ := hRelationship
          exact ⟨d, hObjectAs.1,
            hRefills.objects e id hEntry o start finish d hRelationship hObjectAs.1⟩

omit hApart

/-- What is found out about a relationship that is given back is what it was planned for. -/
theorem object_of_link {shape : TypeName → σ → Prop} {heap : Heap σ} {nodes : List PlannedNode}
    {l : EdgeLink} (hApart : w.KeysApart root depth taken)
    (hNumber : ∀ n ∈ p.allNodes, ∀ m ∈ p.allNodes,
      number n.identity = number m.identity → n.identity = m.identity)
    (hFrozen : builder.build = .ok w.registry) (hResolves : w.Resolves root depth taken p e)
    (hNodes : ∀ n ∈ nodes, n ∈ p.allNodes)
    (hLink : LinkFor w.registry shape (nodes.map (·.stored w.registry.strategy number)) heap
      (e.stored number id) l) :
    l.object.isSome = e.object ∧ ∀ o start finish,
      w.IsRelationshipOf root depth taken e o start finish →
        ∃ r, l.object = some r ∧ heap.typeOf r = w.heap.typeOf o := by
  obtain ⟨a, ha, z, hz, hStart, hFinish, m, hResolve, -, hPlain, hFrom, hObject⟩ := hResolves
  -- Numbers tell the planned nodes apart, so the ends found are the ones planned.
  have hTaken : l.taken = m := by
    obtain ⟨x, hx, y, hy, hxId, hyId, dx, dy, hdx, hdy, hFound⟩ := hLink.declared
    obtain ⟨n, hn, rfl⟩ := List.mem_map.1 hx
    obtain ⟨k, hk, rfl⟩ := List.mem_map.1 hy
    have hFirst : n = a := node_unique hFinished hApart (hNodes n hn) ha
      (hNumber n (hNodes n hn) a ha (by rw [hStart]; exact hxId))
    have hLast : k = z := node_unique hFinished hApart (hNodes k hk) hz
      (hNumber k (hNodes k hk) z hz (by rw [hFinish]; exact hyId))
    subst hFirst
    subst hLast
    obtain ⟨dn, hnNode, hnLabel, -⟩ := planned_node hFinished ha
    obtain ⟨dk, hkNode, hkLabel, -⟩ := planned_node hFinished hz
    have hSameX := ok_unique hdx (withLabels_of_node hFrozen hnNode hnLabel)
    have hSameY := ok_unique hdy (withLabels_of_node hFrozen hkNode hkLabel)
    rw [hSameX, hSameY, ← hnLabel, ← hkLabel] at hFound
    exact ok_unique hFound hResolve
  have hBuilt := hLink.object
  rw [hTaken] at hBuilt
  have hTyped : ∀ o start finish, w.IsRelationshipOf root depth taken e o start finish →
      ∃ r, l.object = some r ∧ heap.typeOf r = w.heap.typeOf o := by
    intro o start finish h
    rw [hObject o start finish h] at hBuilt
    obtain ⟨hNone, -⟩ | ⟨type, r, hType, hSome, hHolds⟩ := hBuilt
    · cases hNone
    · cases hType
      exact ⟨r, hSome, hHolds.2.1⟩
  refine ⟨?_, hTyped⟩
  cases hHas : e.object with
  | false =>
      rw [hPlain hHas] at hBuilt
      obtain ⟨-, hNone⟩ | ⟨type, r, hType, -⟩ := hBuilt
      · rw [hNone]
        rfl
      · cases hType
  | true =>
      obtain ⟨o, start, finish, h⟩ := hFrom hHas
      obtain ⟨r, hSome, -⟩ := hTyped o start finish h
      rw [hSome]
      rfl

/-- What is rebuilt from a plan has one object for everything planned, of the right type. -/
theorem reloaded_of_rebuilt {shape : TypeName → σ → Prop} {heap : Heap σ}
    {nodes : List PlannedNode} {graph : ObjectGraph} {links : List EdgeLink}
    (hApart : w.KeysApart root depth taken)
    (hNumber : ∀ n ∈ p.allNodes, ∀ m ∈ p.allNodes,
      number n.identity = number m.identity → n.identity = m.identity)
    (hFrozen : builder.build = .ok w.registry)
    (hResolves : ∀ e ∈ p.allEdges, w.Resolves root depth taken p e)
    (hNodes : ∀ n, n ∈ nodes ↔ n ∈ p.allNodes)
    (hBuilt : NodesBuilt w.registry shape (nodes.map (·.stored w.registry.strategy number))
      graph.nodes heap)
    (hPlaced : Placed w.registry shape (nodes.map (·.stored w.registry.strategy number))
      graph.nodes heap)
    (hObjectsApart : (graph.nodes.map (·.2) ++ graph.edges.map (·.2)).Nodup)
    (hLinks : List.Forall₂ (LinkFor w.registry shape
      (nodes.map (·.stored w.registry.strategy number)) heap) (p.storedEdges number edgeIds) links)
    (hEdges : graph.edges = links.filterMap fun l => l.object.map fun r => (l.edge.id, r)) :
    w.Reloaded root depth taken p number edgeIds graph heap := by
  unfold Plan.storedEdges at hLinks
  rw [List.forall₂_map_left_iff] at hLinks
  have hEach : List.Forall₂ (fun (entry : PlannedEdge × Int64) (l : EdgeLink) =>
      l.edge.id = entry.2 ∧ l.object.isSome = entry.1.object ∧
        ∀ o start finish, w.IsRelationshipOf root depth taken entry.1 o start finish →
          ∃ r, l.object = some r ∧ heap.typeOf r = w.heap.typeOf o)
      (p.allEdges.zip edgeIds) links := by
    have hMembers := (List.forall₂_and_left _ _).2 ⟨fun entry hEntry => hEntry, hLinks⟩
    refine hMembers.imp fun entry l h => ⟨?_, object_of_link hFinished hApart hNumber hFrozen
      (hResolves entry.1 (List.of_mem_zip h.1).1) (fun n hn => (hNodes n).1 hn) h.2⟩
    rw [h.2.edge]
    rfl
  refine ⟨?_, ?_, ?_, ?_, hObjectsApart⟩
  · refine (List.perm_ext_iff_of_nodup hBuilt.numbers
      (numbers_nodup hFinished hApart hNumber)).2 fun id => ?_
    constructor
    · intro hId
      obtain ⟨entry, hEntry, rfl⟩ := List.mem_map.1 hId
      obtain ⟨stored, hStored, hSame, -⟩ := hBuilt.typed entry hEntry
      obtain ⟨n, hn, rfl⟩ := List.mem_map.1 hStored
      exact List.mem_map.2 ⟨n, (hNodes n).1 hn, hSame⟩
    · intro hId
      obtain ⟨n, hn, rfl⟩ := List.mem_map.1 hId
      exact hBuilt.all _ (List.mem_map.2 ⟨n, (hNodes n).2 hn, rfl⟩)
  · intro n hn
    obtain ⟨d, hNode, hLabel, -⟩ := planned_node hFinished hn
    obtain ⟨r, hLookup, hHolds⟩ := hPlaced _ (List.mem_map.2 ⟨n, (hNodes n).2 hn, rfl⟩) d
      (withLabels_of_node hFrozen hNode hLabel)
    exact ⟨r, hLookup, hHolds.2.1.trans (mem_of_descriptor hNode.1).2⟩
  · rw [hEdges]
    exact objects_of_links (hEach.imp fun entry l h => ⟨h.1, h.2.1⟩)
  · intro e id hEntry o start finish h
    obtain ⟨l, hl, hId, -, hTyped⟩ := (exists_of_forall₂ hEach).1 (e, id) hEntry
    obtain ⟨r, hSome, hType⟩ := hTyped o start finish h
    refine ⟨r, ?_, hType⟩
    rw [hEdges]
    refine List.mem_filterMap.2 ⟨l, hl, ?_⟩
    rw [hSome, hId]
    rfl

end

/-- Whatever is planned under a frozen registry can be loaded.  If the database numbers all planned
nodes and relationships and gives them back, and each object takes its own properties, then objects are
built and linked for all of it, and every planned relationship is one that the registry knows. -/
theorem make_reloads (w : Walker σ) (builder : RegistryBuilder)
    (hFrozen : builder.build = .ok w.registry) (shape : TypeName → σ → Prop)
    (hConforms : w.model.Conforms w.registry shape) (hTyped : w.WellTyped)
    (root : Ref) (depth taken : Nat) (p : Plan) (after : Nat)
    (hMade : Plan.make w.model w.registry w.heap root depth taken = (.ok p, after))
    (hApart : w.KeysApart root depth taken)
    (number : String → Int64) (hNumber : ∀ n ∈ p.allNodes, ∀ m ∈ p.allNodes,
      number n.identity = number m.identity → n.identity = m.identity)
    (edgeIds : List Int64) (hEdgeIds : edgeIds.Nodup)
    (hLength : edgeIds.length = p.allEdges.length)
    (hRefills : w.Refills root depth taken p number edgeIds) (heap : Heap σ) :
    (∀ e ∈ p.allEdges, w.Resolves root depth taken p e) ∧
    ∃ first ∈ p.allNodes, w.labelOf root = some first.label ∧
      w.identityOf root depth taken root = some first.identity ∧
      ∃ graph heap', ObjectGraph.ofResult w.model w.registry
          (p.loaded w.registry.strategy number edgeIds first) heap = .ok (graph, heap') ∧
        w.Reloaded root depth taken p number edgeIds graph heap' := by
  obtain ⟨s, hFinished⟩ := finished_of_make hMade
  have hResolves : ∀ e ∈ p.allEdges, w.Resolves root depth taken p e :=
    fun e he => resolves_of_planned hFrozen hTyped hFinished hApart he
  obtain ⟨first, hFirst, hLabel, hKey⟩ := root_planned hFinished
  refine ⟨hResolves, first, hFirst, hLabel, hKey, ?_⟩
  -- The node of the root is given twice: as the match, and among all planned nodes.
  have hEntries : (p.loaded w.registry.strategy number edgeIds first).primaries ++
      (p.loaded w.registry.strategy number edgeIds first).others =
      (first :: p.allNodes).map (·.stored w.registry.strategy number) := rfl
  have hAmong : ∀ n, n ∈ first :: p.allNodes ↔ n ∈ p.allNodes := by
    intro n
    rw [List.mem_cons]
    constructor
    · rintro (rfl | hn)
      · exact hFirst
      · exact hn
    · exact .inr
  have hNodesFit := stored_nodesFit hFinished hApart hFrozen hNumber hRefills
    fun n hn => (hAmong n).1 hn
  have hEdgesFit := stored_edgesFit hFinished hApart hFrozen hTyped hEdgeIds hLength hRefills
    fun n hn => (hAmong n).2 hn
  rw [← hEntries] at hNodesFit hEdgesFit
  obtain ⟨graph, heap', hRebuilt, hBuilt, hObjectsApart, links, hLinks, hEdges⟩ :=
    ofResult_total hFrozen hConforms (p.loaded w.registry.strategy number edgeIds first) rfl
      (relationships_ofParts _ _ _) hNodesFit hEdgesFit heap
  exact ⟨graph, heap', hRebuilt, reloaded_of_rebuilt hFinished hApart hNumber hFrozen hResolves
    hAmong hBuilt (hBuilt.placed hNodesFit) hObjectsApart hLinks hEdges⟩

theorem keysApart_of_distinguishes (h : w.Distinguishes root depth taken) :
    w.KeysApart root depth taken := by
  intro a b key ha hb
  rw [h a b key ha hb]

end Walker

/-! The persons and the movie are saved, and loaded from a database that has numbered them. -/

namespace Cinema

def types : List DeclaredType := [person, movie, role]

def number (key : String) : Int64 :=
  if key = "ann" then 1 else if key = "bob" then 2 else 3

theorem conforms : walker.model.Conforms registry (DeclaredObject.Of types) := by
  refine declaredModel_conforms ?_ ?_
  · rintro owner field type ⟨d, hd, rfl, f, r, hField, rfl, rfl⟩
    simp only [registry, List.mem_cons, List.not_mem_nil, or_false] at hd
    rcases hd with rfl | rfl | rfl
    · rcases List.mem_cons.1 hField with hFriends | hOther
      · cases hFriends
        exact ⟨true, by rfl, by rfl⟩
      · cases List.mem_singleton.1 hOther
        exact ⟨true, by rfl, by rfl⟩
    · cases hField
    · cases hField
  · intro d hd ends hEnds
    simp only [registry, List.mem_cons, List.not_mem_nil, or_false] at hd
    rcases hd with rfl | rfl | rfl <;> cases hEnds
    exact ⟨by rfl, by rfl⟩

theorem wellTyped : walker.WellTyped := by
  constructor
  · intro r d f relationship target hd hField hTarget
    match r with
    | 0 | 1 =>
        cases hd
        rcases List.mem_cons.1 hField with hFriends | hOther
        · cases hFriends
          cases List.mem_singleton.1 hTarget
          rfl
        · cases List.mem_singleton.1 hOther
          cases List.mem_singleton.1 hTarget
          rfl
    | 2 | 3 | r + 4 =>
        cases hd
        cases hField
  · intro r d start finish a z hd hDeclared hEnds
    match r with
    | 0 | 1 | 2 =>
        cases hd
        cases hDeclared
    | 3 | r + 4 =>
        cases hd
        cases hDeclared
        cases hEnds
        exact ⟨rfl, rfl⟩

theorem refills : walker.Refills 0 2 0 plan number [10, 11, 12] := by
  constructor
  · intro n hn d hd
    simp only [Plan.allNodes, plan, List.flatMap_cons, List.flatMap_nil, List.append_nil,
      List.cons_append, List.nil_append, List.mem_cons, List.not_mem_nil, or_false] at hn
    rcases hn with rfl | rfl | rfl <;> cases hd <;> exact ⟨_, by rfl⟩
  · intro e id hEntry o start finish d hRelationship hd
    obtain ⟨_, _, _, d', -, -, hObject, -, hHas, -⟩ := hRelationship
    have hSame : d = d' := ok_unique hd hObject.1
    subst hSame
    have hMem := (Walker.mem_of_descriptor hd).1
    have hIsObject := hObject.2.1
    simp only [walker, registry, List.mem_cons, List.not_mem_nil, or_false] at hMem
    rcases hMem with rfl | rfl | rfl
    · cases hIsObject
    · cases hIsObject
    · rcases List.mem_cons.1 hEntry with hThief | hRest
      · cases hThief
        exact ⟨_, by rfl⟩
      · rcases List.mem_cons.1 hRest with hLead | hKnows
        · cases hLead
          exact ⟨_, by rfl⟩
        · cases List.mem_singleton.1 hKnows
          cases hHas

end Cinema

theorem cinema_reloads :
    (∀ e ∈ Cinema.plan.allEdges, Cinema.walker.Resolves 0 2 0 Cinema.plan e) ∧
    ∃ first ∈ Cinema.plan.allNodes, Cinema.walker.labelOf 0 = some first.label ∧
      Cinema.walker.identityOf 0 2 0 0 = some first.identity ∧
      ∃ graph heap', ObjectGraph.ofResult Cinema.walker.model Cinema.registry
          (Cinema.plan.loaded Cinema.strategy Cinema.number [10, 11, 12] first)
          (Heap.empty Cinema.walker.model) = .ok (graph, heap') ∧
        Cinema.walker.Reloaded 0 2 0 Cinema.plan Cinema.number [10, 11, 12] graph heap' :=
  Walker.make_reloads Cinema.walker ⟨Cinema.strategy, Cinema.registry.types⟩ (by rfl)
    (DeclaredObject.Of Cinema.types) Cinema.conforms Cinema.wellTyped 0 2 0 Cinema.plan 1 (by rfl)
    (Walker.keysApart_of_distinguishes (Walker.distinguishes_of_nodup (by decide +kernel)))
    Cinema.number (by decide +kernel) [10, 11, 12] (by decide) rfl Cinema.refills _

end GraphMapping
