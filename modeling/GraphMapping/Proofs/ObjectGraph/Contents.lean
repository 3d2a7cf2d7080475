import GraphMapping.Proofs.ObjectGraph.Fields
import GraphMapping.Proofs.ObjectGraph.Stored

/-!
# What a loaded graph holds

A loaded graph is determined by the first entries of its nodes and relationships: it has one object for
each node, and every relationship field of a node holds one entry for each relationship bound to it, in the
order of the result.  Repeating an entry changes nothing.
-/

namespace GraphMapping

/-- A load result that has one more entry, of a node or a relationship that comes before in its part. -/
inductive LoadResult.Repeats : LoadResult → LoadResult → Prop
  | primary {edges : List (Option StoredEdge)} {others before after : List StoredNode}
      {node : StoredNode} (hKnown : node.id ∈ before.map (·.id)) :
      Repeats ⟨edges, others, before ++ after⟩ ⟨edges, others, before ++ node :: after⟩
  | other {edges : List (Option StoredEdge)} {before after primaries : List StoredNode}
      {node : StoredNode} (hKnown : node.id ∈ before.map (·.id)) :
      Repeats ⟨edges, before ++ after, primaries⟩ ⟨edges, before ++ node :: after, primaries⟩
  | edge {placeholder : Option StoredEdge} {before : List StoredEdge}
      {after : List (Option StoredEdge)} {others primaries : List StoredNode} {e : StoredEdge}
      (hKnown : e.id ∈ before.map (·.id)) :
      Repeats ⟨placeholder :: (before.map some ++ after), others, primaries⟩
        ⟨placeholder :: (before.map some ++ some e :: after), others, primaries⟩

/-- No relationship after the placeholder joins a node to itself. -/
def LoadResult.Loopless (result : LoadResult) : Prop :=
  ∀ e, some e ∈ result.edges.tail → e.start ≠ e.finish

/-- What a relationship between two different nodes puts into a field of one of them, if it is bound to it:
the object at the other end, or its own object. -/
def EdgeLink.entry (l : EdgeLink) (graph : ObjectGraph) (n : Int64) (field : String) : Option Ref :=
  if l.edge.start = n ∧ l.taken.start.any (·.field == field) = true then
    l.object.or (graph.get? l.edge.finish)
  else if l.edge.finish = n ∧ l.taken.finish.any (·.field == field) = true then
    l.object.or (graph.get? l.edge.start)
  else none

/-- What a field holds after it has been given some entries: all of them, or the last one. -/
def RelationshipRole.holds (role : RelationshipRole) (entries : List Ref) : List Ref :=
  if role.many then entries else entries.getLast?.toList

/-- A graph that was made of a load result: one object for each node, filled from its first entry, and one
link for each relationship, whose entries are what the fields of the nodes hold. -/
structure Loaded {σ : Type} (model : EntityModel σ) (registry : Registry) (result : LoadResult)
    (edges : List StoredEdge) (graph : ObjectGraph) (links : List EdgeLink) (heap : Heap σ) : Prop where
  relationships : result.relationships = .ok edges
  numbers : graph.nodes.map (·.1) = (eachOnce (·.id) (result.primaries ++ result.others)).map (·.id)
  primaries : graph.primaries = (eachOnce (·.id) result.primaries).map (·.id)
  apart : (graph.nodes.map (·.2) ++ links.filterMap (·.object)).Nodup
  objects : graph.edges = links.filterMap fun l => l.object.map fun r => (l.edge.id, r)
  once : links.map (·.edge) = eachOnce (·.id) edges
  ready : ∀ l ∈ links, ∃ first last x y,
    Ready model registry (ObjectGraph.nodeLabels registry (result.primaries ++ result.others)) graph.nodes
      heap l first last x y
  ends : ∀ l ∈ links, ∀ o, l.object = some o → heap.Portrays model registry o l.edge ∧
    model.ends (heap.stateOf o) = some ⟨graph.get? l.edge.start, graph.get? l.edge.finish⟩
  node : ∀ node ∈ eachOnce (·.id) (result.primaries ++ result.others), ∃ r d state,
    graph.get? node.id = some r ∧ registry.withLabels node.labels = .ok d ∧
      heap.Holds model.Attains r d.type ∧
      populate model registry.strategy.isNative d node.id node.properties (model.fresh d.type) =
        .ok state ∧
      (∀ field, model.read (heap.stateOf r) field = model.read state field) ∧
      ∀ f role, (f, role) ∈ d.relationships → model.related (heap.stateOf r) f.field =
        held role.many [] (links.flatMap fun l => l.entries graph.nodes node.id f.field)

section

variable {σ : Type} {model : EntityModel σ} {registry : Registry} {heap heap' : Heap σ}
  {nodes : List (Int64 × Ref)} {labels labels' : List (Int64 × String)} {l : EdgeLink}
  {links : List EdgeLink} {result result' : LoadResult} {graph : ObjectGraph} {n : Int64}
  {field : String}

/-! ## Repeated entries -/

namespace ObjectGraph

/-- Building nodes depends on the first entry of each number only. -/
theorem buildNodes_eachOnce (more : List StoredNode) (nodes : List (Int64 × Ref)) (heap : Heap σ) :
    buildNodes model registry more nodes heap = buildNodes model registry
      ((eachOnce (·.id) more).filter fun node => !(nodes.lookup node.id).isSome) nodes heap := by
  induction more generalizing nodes heap with
  | nil => rfl
  | cons node rest ih =>
      rw [filter_eachOnce_cons (fun n => (nodes.lookup n).isSome)]
      by_cases hKnown : (nodes.lookup node.id).isSome = true
      · rw [if_pos hKnown, ← ih, buildNodes, if_pos hKnown]
      · rw [if_neg hKnown, buildNodes, buildNodes, if_neg hKnown, if_neg hKnown]
        refine bind_congr fun d => bind_congr fun ⟨r, next⟩ => ?_
        dsimp only
        rw [ih]
        simp only [lookup_concat_isSome]

theorem resolveEdges_eachOnce (edges : List StoredEdge) (seen : List Int64) (heap : Heap σ) :
    resolveEdges model registry labels edges seen heap = resolveEdges model registry labels
      ((eachOnce (·.id) edges).filter fun e => !seen.contains e.id) seen heap := by
  induction edges generalizing seen heap with
  | nil => rfl
  | cons e rest ih =>
      rw [filter_eachOnce_cons (fun n => seen.contains n)]
      by_cases hSeen : seen.contains e.id = true
      · rw [if_pos hSeen, ← ih, resolveEdges, if_pos hSeen]
      · rw [if_neg hSeen, resolveEdges, resolveEdges, if_neg hSeen, if_neg hSeen]
        refine bind_congr fun start => bind_congr fun finish => bind_congr fun taken =>
          bind_congr fun ⟨object, next⟩ => ?_
        dsimp only
        rw [ih]
        simp only [List.contains_cons, Bool.or_comm]

/-- Only what is found under a number counts of the labels. -/
theorem resolveEdges_congr (h : ∀ n, labels.lookup n = labels'.lookup n) (edges : List StoredEdge)
    (seen : List Int64) (heap : Heap σ) : resolveEdges model registry labels edges seen heap =
      resolveEdges model registry labels' edges seen heap := by
  have hEnd : ∀ e id, endOf labels e id = endOf labels' e id := by
    intro e id
    unfold endOf
    rw [h]
  induction edges generalizing seen heap with
  | nil => rfl
  | cons e rest ih =>
      rw [resolveEdges, resolveEdges, hEnd, hEnd]
      split
      · exact ih seen heap
      · refine bind_congr fun start => bind_congr fun finish => bind_congr fun taken =>
          bind_congr fun ⟨object, next⟩ => ?_
        dsimp only
        rw [ih]

end ObjectGraph

theorem present_eq_ok_iff {index : Nat} {entries : List (Option StoredEdge)} {edges : List StoredEdge} :
    LoadResult.present index entries = .ok edges ↔ entries = edges.map some := by
  induction entries generalizing index edges with
  | nil =>
      constructor
      · intro h
        cases h
        rfl
      · intro h
        rw [List.map_eq_nil_iff.1 h.symm]
        rfl
  | cons entry rest ih =>
      cases entry with
      | none =>
          constructor
          · intro h
            cases h
          · intro h
            cases edges <;> cases h
      | some e =>
          constructor
          · intro h
            obtain ⟨others, hOthers, h⟩ := bind_eq_ok.1 h
            cases h
            rw [ih.1 hOthers, List.map_cons]
          · intro h
            cases edges with
            | nil => cases h
            | cons e' others =>
                obtain ⟨hHead, hTail⟩ := List.cons.inj h
                cases hHead
                exact bind_eq_ok.2 ⟨others, ih.2 hTail, rfl⟩

/-- A result with the same first entries becomes the same graph. -/
theorem ofResult_congr (h : ObjectGraph.ofResult model registry result heap = .ok (graph, heap'))
    (hPrimaries : eachOnce (·.id) result'.primaries = eachOnce (·.id) result.primaries)
    (hEntries : eachOnce (·.id) (result'.primaries ++ result'.others) =
      eachOnce (·.id) (result.primaries ++ result.others))
    (hEdges : ∀ edges, result.relationships = .ok edges →
      ∃ edges', result'.relationships = .ok edges' ∧ eachOnce (·.id) edges' = eachOnce (·.id) edges) :
    ObjectGraph.ofResult model registry result' heap = .ok (graph, heap') := by
  obtain ⟨hSome, nodes, heap₁, edges, links, heap₂, hNodes, hOld, hLinks, hAll, rfl⟩ :=
    ObjectGraph.ofResult_eq_ok_iff.1 h
  obtain ⟨edges', hNew, hSame⟩ := hEdges edges hOld
  obtain ⟨-, hMade⟩ := ObjectGraph.passes_made hNodes hLinks
  have hLabelled : ∀ node ∈ eachOnce (·.id) (result.primaries ++ result.others),
      ∃ d, registry.withLabels node.labels = .ok d :=
    fun node hNode => (hMade.fit.fits node hNode).imp fun _ hd => hd.1
  have hLabels : ∀ n, (ObjectGraph.nodeLabels registry (result'.primaries ++ result'.others)).lookup n =
      (ObjectGraph.nodeLabels registry (result.primaries ++ result.others)).lookup n := by
    intro n
    refine Option.ext fun label => ?_
    rw [ObjectGraph.lookup_nodeLabels_iff hLabelled,
      ObjectGraph.lookup_nodeLabels_iff (by rw [hEntries]; exact hLabelled), hEntries]
  refine ObjectGraph.ofResult_eq_ok_iff.2 ⟨?_, nodes, heap₁, edges', links, heap₂, ?_, hNew, ?_, hAll, ?_⟩
  · have hSomeNumber : ∃ n, n ∈ result'.primaries.map (·.id) := by
      unfold LoadResult.hasPrimaries at hSome
      have hNone : result.primaries ≠ [] := by simpa using hSome
      obtain ⟨node, rest, hSplit⟩ := List.exists_cons_of_ne_nil hNone
      refine ⟨node.id, mem_numbers_eachOnce.1 ?_⟩
      rw [hPrimaries, hSplit]
      exact List.mem_cons_self
    obtain ⟨n, hn⟩ := hSomeNumber
    unfold LoadResult.hasPrimaries
    cases hEmpty : result'.primaries with
    | nil =>
        rw [hEmpty] at hn
        cases hn
    | cons node rest => rfl
  · rw [ObjectGraph.buildNodes_eachOnce, hEntries, ← ObjectGraph.buildNodes_eachOnce]
    exact hNodes
  · rw [ObjectGraph.resolveEdges_congr hLabels, ObjectGraph.resolveEdges_eachOnce, hSame,
      ← ObjectGraph.resolveEdges_eachOnce]
    exact hLinks
  · rw [distinctIds_eq, distinctIds_eq, hPrimaries]

/-- Repeating an entry changes nothing. -/
theorem ofResult_repeats (h : ObjectGraph.ofResult model registry result heap = .ok (graph, heap'))
    (hRepeats : result.Repeats result') :
    ObjectGraph.ofResult model registry result' heap = .ok (graph, heap') := by
  cases hRepeats with
  | primary hKnown =>
      refine ofResult_congr h (eachOnce_repeat hKnown) ?_ fun edges hEdges => ⟨edges, hEdges, rfl⟩
      dsimp only
      rw [List.append_assoc, List.append_assoc, List.cons_append, eachOnce_repeat hKnown]
  | @other _ before _ primaries _ hKnown =>
      refine ofResult_congr h rfl ?_ fun edges hEdges => ⟨edges, hEdges, rfl⟩
      dsimp only
      rw [← List.append_assoc, ← List.append_assoc, eachOnce_repeat]
      rw [List.map_append]
      exact List.mem_append_right _ hKnown
  | @edge _ before after _ _ e hKnown =>
      refine ofResult_congr h rfl rfl fun edges hEdges => ?_
      obtain ⟨front, back, rfl, hFront, rfl⟩ := List.map_eq_append_iff.1 (present_eq_ok_iff.1 hEdges).symm
      have hSame : front = before := List.map_injective_iff.2 (fun _ _ h => Option.some.inj h) hFront
      rw [hSame]
      refine ⟨before ++ e :: back, present_eq_ok_iff.2 ?_, eachOnce_repeat hKnown⟩
      rw [List.map_append, List.map_cons]
      rfl

/-! ## What fields hold -/

theorem lookup_objects (hNumbers : (links.map (·.edge.id)).Nodup) (hl : l ∈ links) :
    (links.filterMap fun l => l.object.map fun r => (l.edge.id, r)).lookup l.edge.id = l.object := by
  induction links with
  | nil => cases hl
  | cons first rest ih =>
      obtain ⟨hHead, hTail⟩ := List.nodup_cons.1 hNumbers
      rcases List.mem_cons.1 hl with rfl | hl
      · cases hOwn : l.object with
        | some r => simp [hOwn]
        | none =>
            rw [List.filterMap_cons_none (by rw [hOwn]; rfl), List.lookup_eq_none_iff]
            intro entry hEntry
            obtain ⟨other, hOther, hSome⟩ := List.mem_filterMap.1 hEntry
            obtain ⟨r, -, rfl⟩ := Option.map_eq_some_iff.1 hSome
            simp only [bne_iff_ne, ne_eq]
            intro hSame
            exact hHead (List.mem_map.2 ⟨other, hOther, hSame.symm⟩)
      · have hOther : l.edge.id ≠ first.edge.id := by
          intro hSame
          exact hHead (List.mem_map.2 ⟨l, hl, hSame⟩)
        rw [← ih hTail hl, List.filterMap_cons]
        cases first.object with
        | none => rfl
        | some r =>
            have hDiffers : (l.edge.id == first.edge.id) = false := by simpa using hOther
            simp only [Option.map_some, List.lookup_cons, hDiffers]

/-- A relationship between two different nodes gives a field at most one entry. -/
theorem entries_eq_entry (hEnds : l.edge.start ≠ l.edge.finish) (hNodes : graph.nodes = nodes) :
    l.entries nodes n field = (l.entry graph n field).toList := by
  subst hNodes
  unfold EdgeLink.entries EdgeLink.entry ObjectGraph.get?
  by_cases hStart : l.edge.start = n ∧ l.taken.start.any (·.field == field) = true
  · rw [if_pos hStart, if_pos hStart, if_neg fun hFinish => hEnds (hStart.1.trans hFinish.1.symm),
      List.append_nil]
  · rw [if_neg hStart, if_neg hStart, List.nil_append]
    split <;> rfl

/-- Filling an object leaves its relationship fields alone. -/
theorem populate_related (hSeparates : model.Separates) {d : TypeDescriptor} {native : Bool}
    {id : Int64} {properties : Dict Value} {state state' : σ}
    (h : populate model native d id properties state = .ok state') (field : String) :
    model.related state' field = model.related state field := by
  have hKept := @populate_shape σ model (fun _ s => model.related s field = model.related state field) d
    id properties (fun _ _ _ _ _ hSame hWrite => (hSeparates.related _ _ _ _ hWrite field).trans hSame)
    d.type native state state' rfl h
  exact hKept

theorem PassesMade.once {entries : List StoredNode} {edges : List StoredEdge}
    (h : PassesMade model registry entries edges nodes links heap) :
    links.map (·.edge) = eachOnce (·.id) edges := by
  have hLinks := h.linksMade
  generalize eachOnce (·.id) edges = firsts at hLinks
  clear h
  induction hLinks with
  | nil => rfl
  | cons hLink _ ih => rw [List.map_cons, hLink.edge, ih]

theorem PassesMade.lookup {entries : List StoredNode} {edges : List StoredEdge} {node : StoredNode}
    (h : PassesMade model registry entries edges nodes links heap)
    (hNode : node ∈ eachOnce (·.id) entries) : ∃ r d, nodes.lookup node.id = some r ∧
      registry.withLabels node.labels = .ok d ∧
      heap.Made model registry r d node.id node.properties := by
  obtain ⟨entry, hEntry, hMade⟩ := (exists_of_forall₂ h.nodesMade).1 node hNode
  obtain ⟨d, hLabels, hObject⟩ := hMade.made
  refine ⟨entry.2, d, ?_, hLabels, hObject⟩
  have hNumbers : (nodes.map (·.1)).Nodup := by
    rw [h.numbers]
    exact nodup_eachOnce _ _
  rw [← hMade.id]
  obtain ⟨before, after, rfl⟩ := List.append_of_mem hEntry
  refine List.lookup_eq_some_iff.2 ⟨before, after, rfl, fun other hOther => ?_⟩
  rw [List.map_append, List.nodup_append] at hNumbers
  have hDiffers : other.1 ≠ entry.1 :=
    hNumbers.2.2 other.1 (List.mem_map_of_mem hOther) entry.1 (by simp)
  simpa using Ne.symm hDiffers

/-- What a load makes of a result. -/
theorem loaded_of_ofResult {builder : RegistryBuilder} (hFrozen : builder.build = .ok registry)
    (hSeparates : model.Separates) (hRelates : model.Relates registry)
    (h : ObjectGraph.ofResult model registry result heap = .ok (graph, heap')) :
    ∃ edges links, Loaded model registry result edges graph links heap' := by
  obtain ⟨-, nodes, heap₁, edges, links, heap₂, hNodes, hEdges, hLinks, hAll, rfl⟩ :=
    ObjectGraph.ofResult_eq_ok_iff.1 h
  obtain ⟨-, hMade⟩ := ObjectGraph.passes_made hNodes hLinks
  have hPreserves := ObjectGraph.links_preserve hSeparates hAll
  obtain ⟨hGrows, -, hEnds, hFields⟩ := ObjectGraph.links_fields hRelates
    (List.nodup_append.1 hMade.apart).1 (List.nodup_append.1 hMade.apart).2.1
    (fun n r hr => ⟨_, hMade.attains hr⟩) (fun l hl => hMade.ready hFrozen hl) hAll
  refine ⟨edges, links, hEdges, hMade.numbers, distinctIds_eq _, hMade.apart, rfl, hMade.once,
    fun l hl => ?_, fun l hl o ho => ⟨?_, hEnds l hl o ho⟩, fun node hNode => ?_⟩
  · obtain ⟨first, last, x, y, hReady⟩ := hMade.ready hFrozen hl
    exact ⟨first, last, x, y, hReady.mono hGrows⟩
  · exact ((ObjectGraph.resolveEdges_portrays hLinks).2 l hl).2 o ho |>.mono hPreserves
  · obtain ⟨r, d, hr, hLabels, hSize, state, hState, hCell⟩ := hMade.lookup hNode
    have hd := (Registry.mem_of_withLabels hLabels).1
    have hType : heap₂.typeOf r = d.type := by
      rw [Heap.typeOf, hCell]
    have hStateOf : heap₂.stateOf r = state := by
      rw [Heap.stateOf, hCell]
    refine ⟨r, d, state, hr, hLabels, ?_, hState, fun field => ?_, fun f role hField => ?_⟩
    · rw [← hType]
      exact hGrows.holds _ _ (hMade.attains hr)
    · rw [hPreserves.read r hSize, hStateOf]
    · rw [hFields node.id r hr d hd hType f role hField, hStateOf,
        populate_related hSeparates hState, hRelates.fresh d hd f role hField]

theorem Loaded.object_refs {edges : List StoredEdge}
    (h : Loaded model registry result edges graph links heap) :
    graph.edges.map (·.2) = links.filterMap (·.object) := by
  rw [h.objects, refs_of_objects]

theorem Loaded.edge_mem {edges : List StoredEdge}
    (h : Loaded model registry result edges graph links heap) (hl : l ∈ links) :
    l.edge ∈ eachOnce (·.id) edges := by
  rw [← h.once]
  exact List.mem_map_of_mem hl

/-- No two links are of one relationship. -/
theorem Loaded.numbers_nodup {edges : List StoredEdge}
    (h : Loaded model registry result edges graph links heap) : (links.map (·.edge.id)).Nodup := by
  have hNodup := nodup_eachOnce StoredEdge.id edges
  rw [← h.once, List.map_map] at hNodup
  exact hNodup

/-- The object of a link is found under the number of its relationship. -/
theorem Loaded.lookup_edge {edges : List StoredEdge}
    (h : Loaded model registry result edges graph links heap) (hl : l ∈ links) :
    graph.edges.lookup l.edge.id = l.object := by
  rw [h.objects]
  exact lookup_objects h.numbers_nodup hl

/-- A loaded graph has one object for each node, filled from its first entry, and repeating an entry changes
nothing.  Where no relationship joins a node to itself, a relationship field holds exactly one entry for each
relationship that is bound to it, in the order of the result: the object at the other end, or the object
that was made for the relationship and knows its two ends.  A field for one object holds the last of them. -/
theorem loaded_contents (model : EntityModel σ) (registry : Registry) (builder : RegistryBuilder)
    (hFrozen : builder.build = .ok registry) (hSeparates : model.Separates)
    (hRelates : model.Relates registry) (result : LoadResult) (hLoopless : result.Loopless)
    (heap heap' : Heap σ) (graph : ObjectGraph)
    (h : ObjectGraph.ofResult model registry result heap = .ok (graph, heap')) :
    graph.nodes.map (·.1) = (eachOnce (·.id) (result.primaries ++ result.others)).map (·.id) ∧
    graph.primaries = (eachOnce (·.id) result.primaries).map (·.id) ∧
    (graph.nodes.map (·.2) ++ graph.edges.map (·.2)).Nodup ∧
    (∀ result', result.Repeats result' →
      ObjectGraph.ofResult model registry result' heap = .ok (graph, heap')) ∧
    ∃ (edges : List StoredEdge) (links : List EdgeLink), result.relationships = .ok edges ∧
      links.map (·.edge) = eachOnce (·.id) edges ∧
      (∀ l ∈ links, (∃ first last x y, Joins registry
          (ObjectGraph.nodeLabels registry (result.primaries ++ result.others)) graph.nodes heap' l first
            last x y) ∧
        graph.edges.lookup l.edge.id = l.object ∧
        ∀ o, l.object = some o → heap'.Portrays model registry o l.edge ∧
          model.ends (heap'.stateOf o) = some ⟨graph.get? l.edge.start, graph.get? l.edge.finish⟩) ∧
      ∀ node ∈ eachOnce (·.id) (result.primaries ++ result.others), ∃ r d state,
        graph.get? node.id = some r ∧ registry.withLabels node.labels = .ok d ∧
        heap'.typeOf r = d.type ∧
        populate model registry.strategy.isNative d node.id node.properties (model.fresh d.type) =
          .ok state ∧
        (∀ field, model.read (heap'.stateOf r) field = model.read state field) ∧
        ∀ f role, (f, role) ∈ d.relationships → model.related (heap'.stateOf r) f.field =
          role.holds (links.filterMap fun l => l.entry graph node.id f.field) := by
  obtain ⟨edges, links, hLoaded⟩ := loaded_of_ofResult hFrozen hSeparates hRelates h
  have hApart := hLoaded.apart
  rw [← hLoaded.object_refs] at hApart
  have hEnds : ∀ l ∈ links, l.edge.start ≠ l.edge.finish := by
    intro l hl
    refine hLoopless l.edge ?_
    rw [present_eq_ok_iff.1 hLoaded.relationships]
    exact List.mem_map_of_mem ((eachOnce_sublist _ _).subset (hLoaded.edge_mem hl))
  refine ⟨hLoaded.numbers, hLoaded.primaries, hApart, fun result' hRepeats => ofResult_repeats h hRepeats,
    edges, links, hLoaded.relationships, hLoaded.once,
    fun l hl => ⟨?_, hLoaded.lookup_edge hl, hLoaded.ends l hl⟩, fun node hNode => ?_⟩
  · obtain ⟨first, last, x, y, hReady⟩ := hLoaded.ready l hl
    exact ⟨first, last, x, y, hReady.joins⟩
  · obtain ⟨r, d, state, hr, hLabels, hHolds, hState, hRead, hFields⟩ := hLoaded.node node hNode
    refine ⟨r, d, state, hr, hLabels, hHolds.2.1, hState, hRead, fun f role hField => ?_⟩
    rw [hFields f role hField, List.filterMap_eq_flatMap_toList,
      List.flatMap_congr fun l hl => entries_eq_entry (hEnds l hl) rfl]
    unfold RelationshipRole.holds
    cases role.many with
    | true => exact held_many [] _
    | false => exact held_one _

end

namespace Cinema

theorem relates : walker.model.Relates registry := by
  have hFrozen : Registry.ofDecls strategy (types.map (·.decl)) = .ok registry := by rfl
  exact declaredModel_relates_of_decls hFrozen (by decide) (by decide)

/-- A result in which one person plays in a movie and knows another one, whom she is said to know twice. -/
def gala : LoadResult :=
  .ofParts [⟨11, 1, 2, "KNOWS", []⟩, ⟨10, 1, 3, "ACTED_IN", [("name", .string "lead")]⟩,
      ⟨11, 1, 2, "KNOWS", []⟩]
    [⟨2, ["Person"], [("uuid", .string "bob")]⟩, ⟨3, ["Movie"], [("uuid", .string "heat")]⟩]
    [⟨1, ["Person"], [("uuid", .string "ann")]⟩]

end Cinema

theorem gala_contents : ∃ graph heap', ObjectGraph.ofResult Cinema.walker.model Cinema.registry
      Cinema.gala (Heap.empty Cinema.walker.model) = .ok (graph, heap') ∧
    graph.nodes.map (·.1) = [1, 2, 3] ∧
    ∀ result', Cinema.gala.Repeats result' → ObjectGraph.ofResult Cinema.walker.model Cinema.registry
      result' (Heap.empty Cinema.walker.model) = .ok (graph, heap') := by
  have hLoopless : Cinema.gala.Loopless := by
    intro e he
    simp only [Cinema.gala, LoadResult.ofParts, List.tail_cons, List.mem_map, Option.some.injEq,
      exists_eq_right, List.mem_cons, List.not_mem_nil, or_false] at he
    rcases he with rfl | rfl | rfl <;> decide
  obtain ⟨graph, heap', h⟩ : ∃ graph heap', ObjectGraph.ofResult Cinema.walker.model Cinema.registry
      Cinema.gala (Heap.empty Cinema.walker.model) = .ok (graph, heap') := ⟨_, _, by rfl⟩
  obtain ⟨hNumbers, -, -, hRepeats, -⟩ := loaded_contents Cinema.walker.model Cinema.registry
    ⟨Cinema.strategy, Cinema.registry.types⟩ (by rfl) (declaredModel_separates Cinema.types)
    Cinema.relates Cinema.gala hLoopless (Heap.empty Cinema.walker.model) heap' graph h
  exact ⟨graph, heap', h, hNumbers, hRepeats⟩

end GraphMapping
