import GraphMapping.Proofs.ObjectGraph.Passes
import GraphMapping.Proofs.ObjectGraph.Reload

/-!
# Linking does not fail

A relationship is looked up under the labels of its ends, and its ends are found in a table of objects.
Labels and objects come from different passes, but both count the first entry of each node.  So the
objects at the ends are of the types whose labels were looked up, and the registry lets no field take a
relationship that does not fit these types.  Once the passes before it succeed, linking has no way to fail.
-/

namespace GraphMapping

/-- A relationship was looked up under the labels of the types of the objects at its ends; what takes it fits
these types, and its object is of the type that the registry says. -/
structure Joins {σ : Type} (registry : Registry) (labels : List (Int64 × String))
    (nodes : List (Int64 × Ref)) (heap : Heap σ) (l : EdgeLink) (first last : TypeDescriptor)
    (x y : Ref) : Prop where
  types : first ∈ registry.types ∧ last ∈ registry.types
  start : nodes.lookup l.edge.start = some x ∧ heap.typeOf x = first.type
  finish : nodes.lookup l.edge.finish = some y ∧ heap.typeOf y = last.type
  labels : labels.lookup l.edge.start = some first.label ∧
    labels.lookup l.edge.finish = some last.label
  resolved : registry.resolve ⟨first.label, l.edge.type, last.label⟩ = .ok l.taken
  fits : registry.Fits l.taken first.type last.type
  object : l.object.map heap.typeOf = l.taken.object

section

variable {σ : Type} {model : EntityModel σ} {registry : Registry} {shape : TypeName → σ → Prop}
  {heap heap' : Heap σ} {entries : List StoredNode} {edges : List StoredEdge}
  {nodes : List (Int64 × Ref)} {links : List EdgeLink} {l : EdgeLink} {r : Ref} {type : TypeName}

/-- Objects keep their types when others are linked. -/
theorem Heap.Grows.typeOf (h : heap.Grows shape heap') (hr : heap.Holds shape r type) :
    heap'.typeOf r = heap.typeOf r := by
  rw [(h.holds r type hr).2.1, hr.2.1]

theorem PassesMade.joins {builder : RegistryBuilder} (hFrozen : builder.build = .ok registry)
    (h : PassesMade model registry entries edges nodes links heap) (hl : l ∈ links) :
    ∃ first last x y, Joins registry (ObjectGraph.nodeLabels registry entries) nodes heap l first last
      x y := by
  -- Any shape will do, as only the types of the objects are asked for.
  have hFresh : ∀ d ∈ registry.types, (fun _ _ => True : TypeName → σ → Prop) d.type
      (model.fresh d.type) := fun _ _ => trivial
  have hWrites : ∀ type state field value state', (fun _ _ => True : TypeName → σ → Prop) type state →
      model.write state field value = .ok state' → True := fun _ _ _ _ _ _ _ => trivial
  have hPlaced := (h.built hFresh hWrites).placed h.fit
  obtain ⟨-, ⟨a, ha, z, hz, hStart, hFinish, first, last, hFirst, hLast, hResolve⟩, hObject⟩ :=
    h.linkFor hFresh hWrites hl
  obtain ⟨x, hx, -, hxType, -⟩ := hPlaced a ha first hFirst
  obtain ⟨y, hy, -, hyType, -⟩ := hPlaced z hz last hLast
  obtain ⟨hFirstMem, hFirstNode⟩ := Registry.mem_of_withLabels hFirst
  obtain ⟨hLastMem, hLastNode⟩ := Registry.mem_of_withLabels hLast
  rw [hStart] at hx
  rw [hFinish] at hy
  refine ⟨first, last, x, y, ⟨hFirstMem, hLastMem⟩, ⟨hx, hxType⟩, ⟨hy, hyType⟩, ⟨?_, ?_⟩, hResolve, ?_, ?_⟩
  · exact h.label.2 ⟨a, ha, hStart, first, hFirst, rfl⟩
  · exact h.label.2 ⟨z, hz, hFinish, last, hLast, rfl⟩
  · exact Registry.fits_of_resolve hFrozen hFirstMem hLastMem hFirstNode hLastNode hResolve
  · rcases hObject with ⟨hNone, hPlain⟩ | ⟨type, o, hType, hSome, -, hHere, -⟩
    · rw [hNone, hPlain]
      rfl
    · rw [hType, hSome, ← hHere]
      rfl

/-- Once the nodes and relationships of a load result are through, linking succeeds; so does the whole
load, unless the result has no primary nodes. -/
theorem linking_total (model : EntityModel σ) (registry : Registry) (shape : TypeName → σ → Prop)
    (builder : RegistryBuilder) (hFrozen : builder.build = .ok registry)
    (hConforms : model.Conforms registry shape) (result : LoadResult) (heap heap₁ heap₂ : Heap σ)
    (nodes : List (Int64 × Ref)) (edges : List StoredEdge) (links : List EdgeLink)
    (hNodes : ObjectGraph.buildNodes model registry (result.primaries ++ result.others) [] heap =
      .ok (nodes, heap₁))
    (hEdges : result.relationships = .ok edges)
    (hLinks : ObjectGraph.resolveEdges model registry
      (ObjectGraph.nodeLabels registry (result.primaries ++ result.others)) edges [] heap₁ =
        .ok (links, heap₂)) :
    (∀ l ∈ links, ∃ first last x y,
      Joins registry (ObjectGraph.nodeLabels registry (result.primaries ++ result.others)) nodes heap₂ l
        first last x y) ∧
    (∃ heap₃, links.foldlM (ObjectGraph.link model nodes) heap₂ = .ok heap₃ ∧
      ∀ r ∈ nodes.map (·.2) ++ links.filterMap (·.object), heap₃.typeOf r = heap₂.typeOf r) ∧
    ((∃ graph heap', ObjectGraph.ofResult model registry result heap = .ok (graph, heap')) ↔
      result.hasPrimaries = true) := by
  obtain ⟨-, hMade⟩ := ObjectGraph.passes_made hNodes hLinks
  have hBuilt := hMade.built hConforms.fresh hConforms.write
  have hLinkFor : ∀ l ∈ links, LinkFor registry shape (eachOnce (·.id) _) heap₂ l.edge l :=
    fun l hl => hMade.linkFor hConforms.fresh hConforms.write hl
  obtain ⟨heap₃, hAll, hGrows⟩ :=
    links_total hFrozen hConforms (hBuilt.placed hMade.fit) fun l hl => ⟨_, hLinkFor l hl⟩
  refine ⟨fun l hl => hMade.joins hFrozen hl, ⟨heap₃, hAll, fun r hr => ?_⟩, ?_⟩
  · rcases List.mem_append.1 hr with hNode | hObject
    · obtain ⟨entry, hEntry, rfl⟩ := List.mem_map.1 hNode
      obtain ⟨-, -, -, d, -, hHolds⟩ := hBuilt.typed entry hEntry
      exact hGrows.typeOf hHolds
    · obtain ⟨l, hl, hSome⟩ := List.mem_filterMap.1 hObject
      rcases (hLinkFor l hl).object with ⟨-, hNone⟩ | ⟨type, o, -, hSome', hHolds⟩
      · rw [hNone] at hSome
        cases hSome
      · cases hSome'.symm.trans hSome
        exact hGrows.typeOf hHolds
  · constructor
    · rintro ⟨graph, heap', h⟩
      exact (ObjectGraph.ofResult_eq_ok_iff.1 h).1
    · intro hPrimaries
      exact ⟨_, heap₃, ObjectGraph.ofResult_eq_ok_iff.2 ⟨hPrimaries, nodes, heap₁, edges, links, heap₂,
        hNodes, hEdges, hLinks, hAll, rfl⟩⟩

end

/-- A result in which the first person comes again as a movie, plays in another movie and knows herself. -/
def Cinema.premiere : LoadResult :=
  .ofParts [⟨10, 1, 3, "ACTED_IN", [("name", .string "lead")]⟩, ⟨11, 1, 1, "KNOWS", []⟩]
    [⟨1, ["Movie"], []⟩, ⟨3, ["Movie"], [("uuid", .string "heat")]⟩]
    [⟨1, ["Person"], [("uuid", .string "ann")]⟩]

theorem premiere_links : ∃ graph heap', ObjectGraph.ofResult Cinema.walker.model Cinema.registry
    Cinema.premiere (Heap.empty Cinema.walker.model) = .ok (graph, heap') := by
  obtain ⟨-, -, hLoads⟩ := linking_total Cinema.walker.model Cinema.registry
    (DeclaredObject.Of Cinema.types) ⟨Cinema.strategy, Cinema.registry.types⟩ (by rfl) Cinema.conforms
    Cinema.premiere (Heap.empty Cinema.walker.model) _ _ _ _ _ (by rfl) (by rfl) (by rfl)
  exact hLoads.2 (by rfl)

end GraphMapping
