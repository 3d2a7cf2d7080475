import GraphMapping.Proofs.Mapping.Places
import GraphMapping.Proofs.ObjectGraph.Contents

/-!
# How often a relationship is listed

A relationship is linked once from each of its sides.  The two sides name the same field of the same node
only if the relationship joins this node to itself and is bound to the field at both of its ends, which
takes an undirected field.  Such a relationship is listed twice, and every other one once in each field it
is bound to.
-/

namespace GraphMapping

/-- The node on a side of a relationship. -/
def StoredEdge.at (e : StoredEdge) : Side → Int64
  | .start => e.start
  | .finish => e.finish

/-- A relationship is bound to a field of a node on one of its sides. -/
def EdgeLink.bindsOn (l : EdgeLink) (n : Int64) (field : String) (side : Side) : Bool :=
  l.edge.at side == n && (l.taken.on side).any (·.field == field)

/-- A relationship is bound to a field of a node. -/
def EdgeLink.binds (l : EdgeLink) (n : Int64) (field : String) : Bool :=
  l.bindsOn n field .start || l.bindsOn n field .finish

/-- A relationship is bound to a field of a node on both of its sides. -/
def EdgeLink.bindsTwice (l : EdgeLink) (n : Int64) (field : String) : Bool :=
  l.bindsOn n field .start && l.bindsOn n field .finish

/-- The ids of the relationships that are bound to a field of a node. -/
def boundIds (links : List EdgeLink) (n : Int64) (field : String) : List Int64 :=
  (links.filter (·.binds n field)).map (·.edge.id)

section

variable {σ : Type} {model : EntityModel σ} {registry : Registry} {heap heap' : Heap σ}
  {nodes : List (Int64 × Ref)} {labels : List (Int64 × String)} {l : EdgeLink}
  {links : List EdgeLink} {first last : TypeDescriptor} {x y : Ref} {n : Int64} {field : String}

theorem EdgeLink.bindsOn_eq_true {side : Side} : l.bindsOn n field side = true ↔
    l.edge.at side = n ∧ (l.taken.on side).any (·.field == field) = true := by
  unfold bindsOn
  rw [Bool.and_eq_true, beq_iff_eq]

/-- A relationship puts one entry into a field for each side on which it is bound to it. -/
theorem Ready.length_entries (h : Ready model registry labels nodes heap l first last x y) :
    (l.entries nodes n field).length =
      (l.binds n field).toNat + (l.bindsTwice n field).toNat := by
  have hSide : ∀ side far, (if l.edge.at side = n ∧
      (l.taken.on side).any (·.field == field) = true then (l.object.or (some far)).toList
        else []).length = (l.bindsOn n field side).toNat := by
    intro side far
    have hOne : (l.object.or (some far)).toList.length = 1 := by
      cases l.object <;> rfl
    by_cases hHere : l.bindsOn n field side = true
    · rw [if_pos (EdgeLink.bindsOn_eq_true.1 hHere), hOne, hHere]
      rfl
    · rw [if_neg fun hBound => hHere (EdgeLink.bindsOn_eq_true.2 hBound), Bool.eq_false_iff.2 hHere]
      rfl
  have hEntries : (l.entries nodes n field).length =
      (l.bindsOn n field .start).toNat + (l.bindsOn n field .finish).toNat := by
    unfold EdgeLink.entries
    rw [List.length_append, h.joins.start.1, h.joins.finish.1]
    exact congrArg₂ (· + ·) (hSide .start y) (hSide .finish x)
  rw [hEntries, EdgeLink.binds, EdgeLink.bindsTwice]
  cases l.bindsOn n field .start <;> cases l.bindsOn n field .finish <;> rfl

/-- A field lists one entry for each relationship bound to it, and another one for each that is bound to
it on both sides. -/
theorem length_entries (hReady : ∀ l ∈ links, ∃ first last x y,
      Ready model registry labels nodes heap l first last x y) :
    (links.flatMap fun l => l.entries nodes n field).length =
      (boundIds links n field).length + (links.filter (·.bindsTwice n field)).length := by
  unfold boundIds
  rw [List.length_map]
  induction links with
  | nil => rfl
  | cons l rest ih =>
      obtain ⟨first, last, x, y, hl⟩ := hReady l List.mem_cons_self
      rw [List.flatMap_cons, List.length_append, hl.length_entries,
        ih fun l' hl' => hReady l' (List.mem_cons_of_mem _ hl')]
      simp only [List.filter_cons]
      cases l.binds n field <;> cases l.bindsTwice n field <;> simp <;> omega

/-- A relationship bound to a field of a node on both sides joins the node to itself. -/
theorem EdgeLink.loop_of_bindsTwice (h : l.bindsTwice n field = true) :
    l.edge.start = n ∧ l.edge.finish = n :=
  have hSides := (Bool.and_eq_true _ _).mp h
  ⟨(bindsOn_eq_true.1 hSides.1).1, (bindsOn_eq_true.1 hSides.2).1⟩

/-- A field that takes a relationship on a side suits this side. -/
theorem Registry.suits_of_bindsOn {builder : RegistryBuilder} (hFrozen : builder.build = .ok registry)
    (hUnambiguous : registry.Unambiguous) {d : TypeDescriptor} {f : FieldDescriptor}
    {role : RelationshipRole} {key : EdgeKey} {side : Side} {b : Binding} (hd : d ∈ registry.types)
    (hNode : d.isObject = false) (hField : (f, role) ∈ d.relationships)
    (hResolve : registry.resolve key = .ok l.taken) (hLabel : key.near side = d.label)
    (hBound : l.taken.on side = some b) (hName : b.field = f.field) :
    registry.Suits d role key side := by
  have hPicks := (resolve_picks hFrozen hUnambiguous.types hResolve).2 side
  rw [hBound] at hPicks
  obtain ⟨d', hFound, before, f', role', after, hSplit, rfl, hSuits, -⟩ := hPicks
  rw [hLabel, withLabel_eq_some hFrozen hd hNode] at hFound
  cases hFound
  have hHere : (f', role') ∈ d.relationships := by
    rw [hSplit]
    simp
  rwa [hUnambiguous.role_unique hd hField hHere hName.symm]

/-- A field that takes a relationship on both sides is undirected. -/
theorem Joins.undirected {builder : RegistryBuilder} (hFrozen : builder.build = .ok registry)
    (hUnambiguous : registry.Unambiguous) {d : TypeDescriptor} {f : FieldDescriptor}
    {role : RelationshipRole} {r : Ref} (hJoins : Joins registry labels nodes heap l first last x y)
    (hd : d ∈ registry.types) (hNode : d.isObject = false) (hField : (f, role) ∈ d.relationships)
    (hr : nodes.lookup n = some r) (hType : heap.typeOf r = d.type)
    (hTwice : l.bindsTwice n f.field = true) : role.direction = .both := by
  obtain ⟨rfl, hFinish⟩ := EdgeLink.loop_of_bindsTwice hTwice
  -- Both ends are of the type of the node.
  have hFirst : first = d := by
    cases Option.some.inj (hr.symm.trans hJoins.start.1)
    exact hUnambiguous.type_unique hJoins.types.1 hd (hJoins.start.2.symm.trans hType)
  have hLast : last = d := by
    cases Option.some.inj (hr.symm.trans (hFinish ▸ hJoins.finish.1))
    exact hUnambiguous.type_unique hJoins.types.2 hd (hJoins.finish.2.symm.trans hType)
  subst hFirst hLast
  have hDirection : ∀ side, l.bindsOn l.edge.start f.field side = true →
      role.direction ≠ side.against := by
    intro side hOn
    obtain ⟨b, hBound, hName⟩ := (Option.any_eq_true _ _).1 (EdgeLink.bindsOn_eq_true.1 hOn).2
    have hLabel : (EdgeKey.mk last.label l.edge.type last.label).near side = last.label := by
      cases side <;> rfl
    exact (Registry.suits_of_bindsOn hFrozen hUnambiguous hd hNode hField hJoins.resolved hLabel hBound
      (by simpa using hName)).2.1
  obtain ⟨hStart, hEnd⟩ := (Bool.and_eq_true _ _).mp hTwice
  have hNotIn := hDirection .start hStart
  have hNotOut := hDirection .finish hEnd
  cases hHere : role.direction with
  | outgoing => exact absurd hHere hNotOut
  | incoming => exact absurd hHere hNotIn
  | both => rfl

/-- A field for many objects lists the entries of the relationships that are bound to it, and of each of
them one entry for each side on which it is bound.  So it lists as many entries as relationships if and
only if none of them is bound to it on both sides.  One that is joins the node to itself, and the field is
undirected. -/
theorem listed_once_iff (model : EntityModel σ) (registry : Registry) (builder : RegistryBuilder)
    (hFrozen : builder.build = .ok registry) (hSeparates : model.Separates)
    (hRelates : model.Relates registry) (result : LoadResult) (heap heap' : Heap σ)
    (graph : ObjectGraph)
    (h : ObjectGraph.ofResult model registry result heap = .ok (graph, heap')) :
    ∃ (edges : List StoredEdge) (links : List EdgeLink), result.relationships = .ok edges ∧
      links.map (·.edge) = eachOnce (·.id) edges ∧
      (∀ l ∈ links, ∃ first last x y, Joins registry
        (ObjectGraph.nodeLabels registry (result.primaries ++ result.others)) graph.nodes heap' l first
          last x y) ∧
      ∀ n r, graph.get? n = some r → ∃ d ∈ registry.types, heap'.typeOf r = d.type ∧
        ∀ f role, (f, role) ∈ d.relationships → role.many = true →
          model.related (heap'.stateOf r) f.field =
            (links.flatMap fun l => l.entries graph.nodes n f.field) ∧
          (∀ l ∈ links, (l.entries graph.nodes n f.field).length =
            (l.binds n f.field).toNat + (l.bindsTwice n f.field).toNat) ∧
          (boundIds links n f.field).Nodup ∧
          ((model.related (heap'.stateOf r) f.field).length = (boundIds links n f.field).length ↔
            ∀ l ∈ links, l.bindsTwice n f.field = false) ∧
          ∀ l ∈ links, l.bindsTwice n f.field = true → l.edge.start = n ∧ l.edge.finish = n ∧
            (registry.Unambiguous → role.direction = .both) := by
  obtain ⟨edges, links, hLoaded⟩ := loaded_of_ofResult hFrozen hSeparates hRelates h
  refine ⟨edges, links, hLoaded.relationships, hLoaded.once, fun l hl => ?_, fun n r hr => ?_⟩
  · obtain ⟨first, last, x, y, hReady⟩ := hLoaded.ready l hl
    exact ⟨first, last, x, y, hReady.joins⟩
  obtain ⟨node, hNode, rfl⟩ : ∃ node ∈ eachOnce (·.id) (result.primaries ++ result.others),
      node.id = n := by
    have hNumber : n ∈ graph.nodes.map (·.1) := List.mem_map_of_mem (mem_of_lookup hr)
    rw [hLoaded.numbers] at hNumber
    exact List.mem_map.1 hNumber
  obtain ⟨r', d, -, hr', hLabels, hHolds, -, -, hFields⟩ := hLoaded.node node hNode
  cases Option.some.inj (hr.symm.trans hr')
  obtain ⟨hd, hIsNode⟩ := Registry.mem_of_withLabels hLabels
  refine ⟨d, hd, hHolds.2.1, fun f role hField hMany => ?_⟩
  have hRelated : model.related (heap'.stateOf r) f.field =
      links.flatMap fun l => l.entries graph.nodes node.id f.field := by
    rw [hFields f role hField, hMany, held_many, List.nil_append]
  refine ⟨hRelated, fun l hl => ?_, ?_, ?_, fun l hl hTwice => ?_⟩
  · obtain ⟨first, last, x, y, hReady⟩ := hLoaded.ready l hl
    exact hReady.length_entries
  · exact (List.filter_sublist.map _).nodup hLoaded.numbers_nodup
  · rw [hRelated, length_entries hLoaded.ready, Nat.add_eq_left, List.length_eq_zero_iff,
      List.filter_eq_nil_iff]
    simp only [Bool.not_eq_true]
  · obtain ⟨hStart, hFinish⟩ := EdgeLink.loop_of_bindsTwice hTwice
    obtain ⟨first, last, x, y, hReady⟩ := hLoaded.ready l hl
    exact ⟨hStart, hFinish, fun hUnambiguous =>
      hReady.joins.undirected hFrozen hUnambiguous hd hIsNode hField hr hHolds.2.1 hTwice⟩

end

namespace Cinema

/-- A result with a person who knows herself. -/
def monologue : LoadResult :=
  .ofParts [⟨11, 1, 1, "KNOWS", []⟩] [] [⟨1, ["Person"], [("uuid", .string "ann")]⟩]

end Cinema

theorem monologue_listed_by_sides : ∃ graph heap' links r,
    ObjectGraph.ofResult Cinema.walker.model Cinema.registry Cinema.monologue
      (Heap.empty Cinema.walker.model) = .ok (graph, heap') ∧
    links.map (·.edge) = [⟨11, 1, 1, "KNOWS", []⟩] ∧ graph.get? 1 = some r ∧
    ((Cinema.walker.model.related (heap'.stateOf r) "friends").length =
        (boundIds links 1 "friends").length ↔
      ∀ l ∈ links, l.bindsTwice 1 "friends" = false) := by
  obtain ⟨graph, heap', h, hr, hType⟩ : ∃ graph heap', ObjectGraph.ofResult Cinema.walker.model
      Cinema.registry Cinema.monologue (Heap.empty Cinema.walker.model) = .ok (graph, heap') ∧
        graph.get? 1 = some 0 ∧ heap'.typeOf 0 = "Person" := ⟨_, _, by rfl, by rfl, by rfl⟩
  obtain ⟨edges, links, hEdges, hLinks, -, hFields⟩ := listed_once_iff Cinema.walker.model
    Cinema.registry ⟨Cinema.strategy, Cinema.registry.types⟩ (by rfl)
    (declaredModel_separates Cinema.types) Cinema.relates Cinema.monologue
    (Heap.empty Cinema.walker.model) heap' graph h
  cases hEdges
  obtain ⟨d, hd, hSame, hLists⟩ := hFields 1 0 hr
  rw [hType] at hSame
  simp only [Cinema.registry, List.mem_cons, List.not_mem_nil, or_false] at hd
  rcases hd with rfl | rfl | rfl
  · obtain ⟨-, -, -, hOnce, -⟩ := hLists _ _ List.mem_cons_self (by rfl)
    exact ⟨graph, heap', links, 0, h, hLinks, hr, hOnce⟩
  · exact absurd hSame (by decide)
  · exact absurd hSame (by decide)

/-- A person who knows herself is listed twice among her own friends, by one relationship. -/
theorem monologue_listed_twice : ∃ graph heap',
    Cinema.monologue.relationships = .ok [⟨11, 1, 1, "KNOWS", []⟩] ∧
    ObjectGraph.ofResult Cinema.walker.model Cinema.registry Cinema.monologue
      (Heap.empty Cinema.walker.model) = .ok (graph, heap') ∧
    graph.get? 1 = some 0 ∧
    Cinema.walker.model.related (heap'.stateOf 0) "friends" = [0, 0] :=
  ⟨_, _, by rfl, by rfl, by rfl, by rfl⟩

end GraphMapping
