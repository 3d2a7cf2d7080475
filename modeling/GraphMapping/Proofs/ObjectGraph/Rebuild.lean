import GraphMapping.Entity.Declared
import GraphMapping.ObjectGraph
import GraphMapping.Proofs.Mapping.Bindings
import Mathlib.Data.List.Forall2
import Mathlib.Data.List.Nodup

/-!
# Load results that can be rebuilt

A load result fits a registry if its nodes are of registered types, its relationships are declared
between the types at their ends, and every object takes the properties that belong to it.  From such a
result the objects are built and linked without fail.  What carries the proof through the three passes
is that they only let a heap grow: an object that is there keeps its type and a state of this type.
-/

namespace GraphMapping

/-- What the mapping relies on in objects.  Objects of a type have states of one shape, and keep it when
they are changed; relationship fields and ends take objects of the declared types. -/
structure EntityModel.Conforms {σ : Type} (model : EntityModel σ) (registry : Registry)
    (shape : TypeName → σ → Prop) : Prop where
  fresh : ∀ d ∈ registry.types, shape d.type (model.fresh d.type)
  write : ∀ type state field value state', shape type state →
    model.write state field value = .ok state' → shape type state'
  relate : ∀ owner field type state target, registry.Takes owner field type → shape owner state →
    ∃ state', model.relate state field type target = .ok state' ∧ shape owner state'
  canJoin : ∀ d ∈ registry.types, d.isObject = true → ∀ state, shape d.type state →
    model.canJoin state = true
  join : ∀ d ∈ registry.types, ∀ start finish, d.endpoints = some (start, finish) →
    ∀ state side target, shape d.type state →
      ∃ state', model.join state side (side.order start finish).1 target = .ok state' ∧
        shape d.type state'

/-- An object takes the properties that are stored of it. -/
def EntityModel.Fills {σ : Type} (model : EntityModel σ) (registry : Registry) (d : TypeDescriptor)
    (id : Int64) (properties : Dict Value) : Prop :=
  ∃ state, populate model registry.strategy.isNative d id properties (model.fresh d.type) = .ok state

namespace Heap

variable {σ : Type}

/-- There is an object of a type, and its state is of the type's shape. -/
def Holds (heap : Heap σ) (shape : TypeName → σ → Prop) (r : Ref) (type : TypeName) : Prop :=
  r < heap.size ∧ heap.typeOf r = type ∧ shape type (heap.stateOf r)

/-- Whatever objects there are, they are still there, with their types. -/
structure Grows (heap : Heap σ) (shape : TypeName → σ → Prop) (heap' : Heap σ) : Prop where
  size : heap.size ≤ heap'.size
  holds : ∀ r type, heap.Holds shape r type → heap'.Holds shape r type

variable {model : EntityModel σ} {registry : Registry} {shape : TypeName → σ → Prop}
  {heap heap' heap'' : Heap σ} {r target : Ref} {type : TypeName} {state : σ}

theorem Grows.refl (heap : Heap σ) : heap.Grows shape heap :=
  ⟨Nat.le_refl _, fun _ _ h => h⟩

theorem Grows.trans (h : heap.Grows shape heap') (h' : heap'.Grows shape heap'') :
    heap.Grows shape heap'' :=
  ⟨Nat.le_trans h.size h'.size, fun r type hr => h'.holds r type (h.holds r type hr)⟩

theorem grows_alloc (heap : Heap σ) (hShape : shape type state) :
    heap.Grows shape (heap.alloc type state).2 ∧
      (heap.alloc type state).2.Holds shape heap.size type := by
  refine ⟨⟨Nat.le_succ _, ?_⟩, Nat.lt_succ_self _, ?_, ?_⟩
  · rintro q name ⟨hq, hType, hState⟩
    have hOld : q ≠ heap.size := Nat.ne_of_lt hq
    refine ⟨Nat.lt_succ_of_lt hq, ?_, ?_⟩
    · simpa [alloc, typeOf, hOld] using hType
    · simpa [alloc, stateOf, hOld] using hState
  · simp [alloc, typeOf]
  · simpa [alloc, stateOf] using hShape

theorem grows_put (hr : heap.Holds shape r type) (hShape : shape type state) :
    heap.Grows shape (heap.put r state) := by
  refine ⟨Nat.le_refl _, ?_⟩
  rintro q name ⟨hq, hType, hState⟩
  refine ⟨hq, ?_, ?_⟩
  · rw [typeOf_put]
    exact hType
  · by_cases hSame : q = r
    · subst hSame
      have hName : name = type := hType.symm.trans hr.2.1
      rw [stateOf_put_self, hName]
      exact hShape
    · rw [stateOf_put_of_ne heap state hSame]
      exact hState

theorem relate_total (hConforms : model.Conforms registry shape) {owner field : String}
    (hTakes : registry.Takes owner field type) (hr : heap.Holds shape r owner)
    (hTarget : heap.Holds shape target type) :
    ∃ heap', heap.relate model r field target = .ok heap' ∧ heap.Grows shape heap' := by
  obtain ⟨state, hRelate, hShape⟩ :=
    hConforms.relate owner field type (heap.stateOf r) target hTakes hr.2.2
  refine ⟨heap.put r state, ?_, grows_put hr hShape⟩
  unfold relate
  rw [hTarget.2.1, hRelate]
  rfl

theorem join_total (hConforms : model.Conforms registry shape) {d : TypeDescriptor}
    {start finish : TypeName} (hd : d ∈ registry.types) (hEnds : d.endpoints = some (start, finish))
    (side : Side) (hr : heap.Holds shape r d.type)
    (hTarget : heap.Holds shape target (side.order start finish).1) :
    ∃ heap', heap.join model r side target = .ok heap' ∧ heap.Grows shape heap' := by
  obtain ⟨state, hJoin, hShape⟩ :=
    hConforms.join d hd start finish hEnds (heap.stateOf r) side target hr.2.2
  refine ⟨heap.put r state, ?_, grows_put hr hShape⟩
  unfold join
  rw [hTarget.2.1, hJoin]
  rfl

end Heap

/-! ## Objects of declared types -/

/-- The object is of a declared type and shows its ends. -/
def DeclaredObject.Of (types : List DeclaredType) (type : TypeName) (o : DeclaredObject) : Prop :=
  o.type = .ofName types type ∧ o.hidden = false

/-- Objects of declared types conform to a registry that asks for nothing but what they declare. -/
theorem declaredModel_conforms {types : List DeclaredType} {registry : Registry}
    (hTakes : ∀ owner field type, registry.Takes owner field type →
      ∃ many, (DeclaredType.ofName types owner).bare = false ∧
        (DeclaredType.ofName types owner).targets? field = some (type, many))
    (hEnds : ∀ d ∈ registry.types, ∀ ends, d.endpoints = some ends →
      (DeclaredType.ofName types d.type).bare = false ∧
        (DeclaredType.ofName types d.type).endpoints = some ends) :
    (declaredModel types).Conforms registry (DeclaredObject.Of types) where
  fresh := fun d _ => ⟨rfl, rfl⟩
  write := by
    rintro type o field value o' ⟨hType, hShown⟩ h
    change o.write field value = .ok o' at h
    unfold DeclaredObject.write at h
    split at h
    · obtain ⟨v, -, rfl⟩ := map_eq_ok.1 h
      exact ⟨hType, hShown⟩
    · cases h
  relate := by
    rintro owner field type o target hTake ⟨hType, hShown⟩
    obtain ⟨many, hBare, hTargets⟩ := hTakes owner field type hTake
    rw [← hType] at hBare hTargets
    change ∃ o', o.relate field type target = .ok o' ∧ DeclaredObject.Of types owner o'
    unfold DeclaredObject.relate
    simp only [hBare, hTargets, Bool.false_eq_true, if_false, ne_eq, not_true_eq_false]
    cases many
    · exact ⟨_, rfl, hType, hShown⟩
    · exact ⟨_, rfl, hType, hShown⟩
  canJoin := by
    rintro d hd hObject o ⟨hType, hShown⟩
    obtain ⟨ends, hSome⟩ := Option.isSome_iff_exists.1 hObject
    obtain ⟨hBare, hDeclared⟩ := hEnds d hd ends hSome
    rw [← hType] at hBare hDeclared
    change o.shownEnds.isSome = true
    simp [DeclaredObject.shownEnds, DeclaredType.offeredEndpoints, hShown, hBare, hDeclared]
  join := by
    rintro d hd start finish hSome o side target ⟨hType, hShown⟩
    obtain ⟨-, hDeclared⟩ := hEnds d hd (start, finish) hSome
    rw [← hType] at hDeclared
    change ∃ o', o.join side (side.order start finish).1 target = .ok o' ∧
      DeclaredObject.Of types d.type o'
    unfold DeclaredObject.join
    rw [hDeclared]
    cases side
    · exact ⟨o.setEnd .start (some target), by simp [Side.order], hType, hShown⟩
    · exact ⟨o.setEnd .finish (some target), by simp [Side.order], hType, hShown⟩

/-! ## Filling keeps the shape -/

section

variable {σ : Type} {model : EntityModel σ} {registry : Registry} {shape : TypeName → σ → Prop}
  {d : TypeDescriptor} {id : Int64} {properties : Dict Value}

section

variable (hWrites : ∀ type state field value state', shape type state →
  model.write state field value = .ok state' → shape type state')

include hWrites

theorem fillProperty_shape {type : TypeName} {filling filling' : Filling σ} {property : String × Value}
    (hShape : shape type filling.state)
    (h : fillProperty model d id filling property = .ok filling') : shape type filling'.state := by
  unfold fillProperty at h
  dsimp only at h
  split at h
  · split at h
    all_goals
      obtain ⟨value, -, h⟩ := bind_eq_ok.1 h
      obtain ⟨state, hWrite, h⟩ := bind_eq_ok.1 h
      cases h
      exact hWrites _ _ _ _ _ hShape hWrite
  · split at h
    · cases h
      exact hShape
    · cases h

theorem fillMaps_shape {type : TypeName} {maps : List FieldDescriptor} {filling : Filling σ} {state : σ}
    (hShape : shape type filling.state) (h : fillMaps model maps filling = .ok state) :
    shape type state := by
  induction maps generalizing filling with
  | nil =>
      cases h
      exact hShape
  | cons f rest ih =>
      unfold fillMaps at h
      obtain ⟨state', hWrite, h⟩ := bind_eq_ok.1 h
      have hNext : shape type state' := hWrites _ _ _ _ _ hShape hWrite
      exact ih hNext h

/-- Before the property maps are filled the object has its key and its fields. -/
theorem populate_cases {type : TypeName} {native : Bool} {state state' : σ} (hShape : shape type state)
    (h : populate model native d id properties state = .ok state') :
    ∃ filling : Filling σ, shape type filling.state ∧
      fillMaps model d.propertyMaps filling = .ok state' := by
  have hRest : ∀ keyed, shape type keyed →
      (properties.foldlM (fillProperty model d id) ⟨keyed, []⟩ >>= fillMaps model d.propertyMaps) =
        .ok state' → ∃ filling : Filling σ, shape type filling.state ∧
          fillMaps model d.propertyMaps filling = .ok state' := by
    intro keyed hKeyed h
    obtain ⟨filling, hFill, h⟩ := bind_eq_ok.1 h
    obtain ⟨hFilled, -, -⟩ := foldlM_collects (R := fun _ _ => True) (D := fun _ _ => True)
      (P := fun filling => shape type filling.state) (fun _ => trivial) (fun _ _ _ _ _ => trivial)
      (fun _ _ _ _ _ => trivial)
      (fun property _ x y hx hStep => ⟨fillProperty_shape hWrites hx hStep, trivial, trivial⟩)
      hFill hKeyed
    exact ⟨filling, hFilled, h⟩
  unfold populate at h
  split at h
  · split at h
    · obtain ⟨keyed, hKey, h⟩ := bind_eq_ok.1 h
      exact hRest keyed (hWrites _ _ _ _ _ hShape hKey) h
    · exact hRest state hShape h
  · exact hRest state hShape h

theorem populate_shape {type : TypeName} {native : Bool} {state state' : σ} (hShape : shape type state)
    (h : populate model native d id properties state = .ok state') : shape type state' := by
  obtain ⟨filling, hFilled, hMaps⟩ := populate_cases hWrites hShape h
  exact fillMaps_shape hWrites hFilled hMaps

end

theorem build_total (hConforms : model.Conforms registry shape) (hd : d ∈ registry.types)
    (hFills : model.Fills registry d id properties) (heap : Heap σ) :
    ∃ heap', ObjectGraph.build model registry d id properties heap = .ok (heap.size, heap') ∧
      heap.Grows shape heap' ∧ heap'.Holds shape heap.size d.type := by
  obtain ⟨state, hState⟩ := hFills
  have hShape : shape d.type state := populate_shape hConforms.write (hConforms.fresh d hd) hState
  obtain ⟨hGrows, hHolds⟩ := heap.grows_alloc hShape
  refine ⟨_, ?_, hGrows, hHolds⟩
  unfold ObjectGraph.build
  rw [hState]
  rfl

end

/-! ## The three passes -/

/-- The nodes are of registered types and their objects take their properties; a node that is given
twice is the same both times. -/
structure NodesFit {σ : Type} (model : EntityModel σ) (registry : Registry)
    (entries : List StoredNode) : Prop where
  same : ∀ a ∈ entries, ∀ b ∈ entries, a.id = b.id → a = b
  fits : ∀ node ∈ entries, ∃ d, registry.withLabels node.labels = .ok d ∧
    model.Fills registry d node.id node.properties

/-- What a registry says of a relationship between two of the nodes. -/
def Declared (registry : Registry) (entries : List StoredNode) (e : StoredEdge) (m : EdgeMatch) :
    Prop :=
  ∃ a ∈ entries, ∃ z ∈ entries, a.id = e.start ∧ z.id = e.finish ∧
    ∃ da dz, registry.withLabels a.labels = .ok da ∧ registry.withLabels z.labels = .ok dz ∧
      registry.resolve ⟨da.label, e.type, dz.label⟩ = .ok m

/-- Each relationship is given once, is declared, and its object takes its properties. -/
structure EdgesFit {σ : Type} (model : EntityModel σ) (registry : Registry)
    (entries : List StoredNode) (edges : List StoredEdge) : Prop where
  distinct : (edges.map (·.id)).Nodup
  fits : ∀ e ∈ edges, ∃ m, Declared registry entries e m ∧ ∀ type, m.object = some type →
    ∃ d, registry.descriptor type = .ok d ∧ model.Fills registry d e.id e.properties

/-- Every node has its object. -/
def Placed {σ : Type} (registry : Registry) (shape : TypeName → σ → Prop)
    (entries : List StoredNode) (nodes : List (Int64 × Ref)) (heap : Heap σ) : Prop :=
  ∀ node ∈ entries, ∀ d, registry.withLabels node.labels = .ok d →
    ∃ r, nodes.lookup node.id = some r ∧ heap.Holds shape r d.type

/-- Each node has one object of its own type, and there are no others. -/
structure NodesBuilt {σ : Type} (registry : Registry) (shape : TypeName → σ → Prop)
    (entries : List StoredNode) (nodes : List (Int64 × Ref)) (heap : Heap σ) : Prop where
  numbers : (nodes.map (·.1)).Nodup
  apart : (nodes.map (·.2)).Nodup
  typed : ∀ entry ∈ nodes, ∃ node ∈ entries, node.id = entry.1 ∧
    ∃ d, registry.withLabels node.labels = .ok d ∧ heap.Holds shape entry.2 d.type
  all : ∀ node ∈ entries, node.id ∈ nodes.map (·.1)

/-- What is found out about a relationship: what the registry says of it, and its object. -/
structure LinkFor {σ : Type} (registry : Registry) (shape : TypeName → σ → Prop)
    (entries : List StoredNode) (heap : Heap σ) (e : StoredEdge) (l : EdgeLink) : Prop where
  edge : l.edge = e
  declared : Declared registry entries e l.taken
  object : (l.taken.object = none ∧ l.object = none) ∨
    ∃ type r, l.taken.object = some type ∧ l.object = some r ∧ heap.Holds shape r type

section

variable {σ : Type} {model : EntityModel σ} {registry : Registry} {shape : TypeName → σ → Prop}
  {entries : List StoredNode} {nodes : List (Int64 × Ref)} {heap heap' : Heap σ}
  {d : TypeDescriptor} {e : StoredEdge} {l : EdgeLink}

theorem Placed.mono (h : Placed registry shape entries nodes heap)
    (hGrows : heap.Grows shape heap') : Placed registry shape entries nodes heap' := by
  intro node hNode d hd
  obtain ⟨r, hLookup, hHolds⟩ := h node hNode d hd
  exact ⟨r, hLookup, hGrows.holds r d.type hHolds⟩

theorem LinkFor.mono (h : LinkFor registry shape entries heap e l)
    (hGrows : heap.Grows shape heap') : LinkFor registry shape entries heap' e l := by
  refine ⟨h.edge, h.declared, ?_⟩
  rcases h.object with hNone | ⟨type, r, hType, hObject, hHolds⟩
  · exact .inl hNone
  · exact .inr ⟨type, r, hType, hObject, hGrows.holds r type hHolds⟩

theorem NodesBuilt.nil (heap : Heap σ) : NodesBuilt registry shape [] [] heap :=
  ⟨.nil, .nil, fun _ h => (by cases h), fun _ h => (by cases h)⟩

/-- A node that has its object already adds nothing. -/
theorem NodesBuilt.skip {node : StoredNode} (h : NodesBuilt registry shape entries nodes heap)
    (hKnown : (nodes.lookup node.id).isSome) :
    NodesBuilt registry shape (entries ++ [node]) nodes heap := by
  refine ⟨h.numbers, h.apart, fun entry hEntry => ?_, fun other hOther => ?_⟩
  · obtain ⟨old, hOld, hRest⟩ := h.typed entry hEntry
    exact ⟨old, List.mem_append_left _ hOld, hRest⟩
  · rcases List.mem_append.1 hOther with hOld | hNew
    · exact h.all other hOld
    · cases List.mem_singleton.1 hNew
      obtain ⟨r, hr⟩ := Option.isSome_iff_exists.1 hKnown
      exact List.mem_map.2 ⟨(node.id, r), mem_of_lookup hr, rfl⟩

/-- A new node gets a new object. -/
theorem NodesBuilt.snoc {node : StoredNode} (h : NodesBuilt registry shape entries nodes heap)
    (hNew : ¬ (nodes.lookup node.id).isSome) (hLabels : registry.withLabels node.labels = .ok d)
    (hGrows : heap.Grows shape heap') (hHolds : heap'.Holds shape heap.size d.type) :
    NodesBuilt registry shape (entries ++ [node]) (nodes ++ [(node.id, heap.size)]) heap' := by
  refine ⟨?_, ?_, fun entry hEntry => ?_, fun other hOther => ?_⟩
  · rw [List.map_append, List.nodup_append]
    refine ⟨h.numbers, List.nodup_singleton _, ?_⟩
    rintro id hId other hOther rfl
    cases List.mem_singleton.1 hOther
    obtain ⟨entry, hEntry, hSame⟩ := List.mem_map.1 hId
    refine hNew ?_
    rw [List.lookup_isSome_iff]
    exact ⟨entry, hEntry, by simp [hSame]⟩
  · rw [List.map_append, List.nodup_append]
    refine ⟨h.apart, List.nodup_singleton _, ?_⟩
    rintro r hr other hOther rfl
    cases List.mem_singleton.1 hOther
    obtain ⟨entry, hEntry, hSame⟩ := List.mem_map.1 hr
    -- All objects that are known lie in the heap, and the new one behind it.
    obtain ⟨_, _, _, _, _, hOld⟩ := h.typed entry hEntry
    have hBound : entry.2 < heap.size := hOld.1
    rw [hSame] at hBound
    exact absurd hBound (Nat.lt_irrefl _)
  · rcases List.mem_append.1 hEntry with hOld | hEntry
    · obtain ⟨old, hOld, hId, d', hd', hHolds'⟩ := h.typed entry hOld
      exact ⟨old, List.mem_append_left _ hOld, hId, d', hd', hGrows.holds _ _ hHolds'⟩
    · cases List.mem_singleton.1 hEntry
      exact ⟨node, by simp, rfl, d, hLabels, hHolds⟩
  · rcases List.mem_append.1 hOther with hOld | hOther
    · have hMem := h.all other hOld
      simp only [List.map_append, List.mem_append]
      exact .inl hMem
    · cases List.mem_singleton.1 hOther
      simp

/-- Building the objects of nodes that fit does not fail. -/
theorem buildNodes_total (hConforms : model.Conforms registry shape) {more : List StoredNode}
    (hFits : ∀ node ∈ more, ∃ d, registry.withLabels node.labels = .ok d ∧
      model.Fills registry d node.id node.properties)
    (hBuilt : NodesBuilt registry shape entries nodes heap) :
    ∃ nodes' heap', ObjectGraph.buildNodes model registry more nodes heap = .ok (nodes', heap') ∧
      heap.Grows shape heap' ∧ NodesBuilt registry shape (entries ++ more) nodes' heap' := by
  induction more generalizing entries nodes heap with
  | nil =>
      refine ⟨nodes, heap, rfl, .refl heap, ?_⟩
      rw [List.append_nil]
      exact hBuilt
  | cons node rest ih =>
      have hRest : ∀ node ∈ rest, ∃ d, registry.withLabels node.labels = .ok d ∧
          model.Fills registry d node.id node.properties :=
        fun other hOther => hFits other (List.mem_cons_of_mem _ hOther)
      have hAppend : entries ++ node :: rest = entries ++ [node] ++ rest := by simp
      rw [hAppend]
      unfold ObjectGraph.buildNodes
      by_cases hKnown : (nodes.lookup node.id).isSome
      · rw [if_pos hKnown]
        exact ih hRest (hBuilt.skip hKnown)
      · rw [if_neg hKnown]
        obtain ⟨d, hLabels, hFills⟩ := hFits node List.mem_cons_self
        obtain ⟨heap₁, hBuild, hFirst, hHolds⟩ :=
          build_total hConforms (Registry.mem_of_withLabels hLabels).1 hFills heap
        obtain ⟨nodes', heap', hLater, hSecond, hAll⟩ :=
          ih hRest (hBuilt.snoc hKnown hLabels hFirst hHolds)
        refine ⟨nodes', heap', ?_, hFirst.trans hSecond, hAll⟩
        rw [hLabels]
        change (ObjectGraph.build model registry d node.id node.properties heap >>= _) = _
        rw [hBuild]
        exact hLater

theorem NodesBuilt.placed (hNodes : NodesFit model registry entries)
    (h : NodesBuilt registry shape entries nodes heap) :
    Placed registry shape entries nodes heap := by
  intro node hNode d hd
  obtain ⟨entry, hEntry, hId⟩ := List.mem_map.1 (h.all node hNode)
  have hKnown : (nodes.lookup node.id).isSome := by
    rw [List.lookup_isSome_iff]
    exact ⟨entry, hEntry, by simp [hId]⟩
  obtain ⟨r, hLookup⟩ := Option.isSome_iff_exists.1 hKnown
  refine ⟨r, hLookup, ?_⟩
  obtain ⟨other, hOther, hSame, d', hd', hHolds⟩ := h.typed (node.id, r) (mem_of_lookup hLookup)
  have hNodeSame : other = node := hNodes.same other hOther node hNode hSame
  rw [hNodeSame, hd] at hd'
  cases hd'
  exact hHolds

theorem lookup_nodeLabels {node : StoredNode} (hLabels : registry.withLabels node.labels = .ok d)
    (hSame : ∀ a ∈ entries, a.id = node.id → a = node) (hNode : node ∈ entries) :
    (ObjectGraph.nodeLabels registry entries).lookup node.id = some d.label := by
  induction entries with
  | nil => cases hNode
  | cons a rest ih =>
      have hRest : ∀ a ∈ rest, a.id = node.id → a = node :=
        fun b hb => hSame b (List.mem_cons_of_mem _ hb)
      by_cases hId : a.id = node.id
      · have hHead : a = node := hSame a List.mem_cons_self hId
        subst hHead
        simp [ObjectGraph.nodeLabels, hLabels]
      · have hTail : node ∈ rest := by
          rcases List.mem_cons.1 hNode with rfl | hTail
          · exact absurd rfl hId
          · exact hTail
        have hLater := ih hRest hTail
        have hDiffers : (node.id == a.id) = false := by simpa using Ne.symm hId
        unfold ObjectGraph.nodeLabels at hLater ⊢
        rw [List.filterMap_cons]
        cases registry.withLabels a.labels with
        | error e => exact hLater
        | ok d' =>
            simp only [List.lookup_cons, hDiffers]
            exact hLater

/-- The object of a declared relationship is new, and of the type that the registry says. -/
theorem buildObject_total (hConforms : model.Conforms registry shape) {object : Option TypeName}
    (hFills : ∀ type, object = some type →
      ∃ d, registry.descriptor type = .ok d ∧ model.Fills registry d e.id e.properties)
    (heap : Heap σ) :
    ∃ built heap', ObjectGraph.buildObject model registry e object heap = .ok (built, heap') ∧
      heap.Grows shape heap' ∧ ((object = none ∧ built = none) ∨
        ∃ type, object = some type ∧ built = some heap.size ∧ heap'.Holds shape heap.size type) := by
  cases object with
  | none => exact ⟨none, heap, rfl, .refl heap, .inl ⟨rfl, rfl⟩⟩
  | some type =>
      obtain ⟨d, hd, hFill⟩ := hFills type rfl
      obtain ⟨hMem, hType⟩ := Registry.mem_of_descriptor hd
      obtain ⟨heap', hBuild, hGrows, hHolds⟩ := build_total hConforms hMem hFill heap
      rw [hType] at hHolds
      refine ⟨some heap.size, heap', ?_, hGrows, .inr ⟨type, rfl, rfl, hHolds⟩⟩
      change (registry.descriptor type >>= _) = _
      rw [hd]
      change (ObjectGraph.build model registry d e.id e.properties heap >>= _) = _
      rw [hBuild]
      rfl

theorem resolveEdges_cons {labels : List (Int64 × String)} {rest : List StoredEdge}
    {seen : List Int64} {x y : String} {m : EdgeMatch} {built : Option Ref} {links : List EdgeLink}
    {heap₁ : Heap σ} (hNew : e.id ∉ seen) (hStart : labels.lookup e.start = some x)
    (hFinish : labels.lookup e.finish = some y)
    (hResolve : registry.resolve ⟨x, e.type, y⟩ = .ok m)
    (hBuild : ObjectGraph.buildObject model registry e m.object heap = .ok (built, heap₁))
    (hRest : ObjectGraph.resolveEdges model registry labels rest (e.id :: seen) heap₁ =
      .ok (links, heap')) :
    ObjectGraph.resolveEdges model registry labels (e :: rest) seen heap =
      .ok (⟨e, m, built⟩ :: links, heap') := by
  unfold ObjectGraph.resolveEdges ObjectGraph.endOf
  rw [if_neg (by simpa using hNew), hStart, hFinish]
  change (registry.resolve ⟨x, e.type, y⟩ >>= _) = _
  rw [hResolve]
  change (ObjectGraph.buildObject model registry e m.object heap >>= _) = _
  rw [hBuild]
  change (ObjectGraph.resolveEdges model registry labels rest (e.id :: seen) heap₁ >>= _) = _
  rw [hRest]
  rfl

/-- Finding out where relationships that fit belong does not fail. -/
theorem resolveEdges_total (hConforms : model.Conforms registry shape)
    (hNodes : NodesFit model registry entries) {edges : List StoredEdge} {seen : List Int64}
    (hEdges : EdgesFit model registry entries edges) (hSeen : ∀ e ∈ edges, e.id ∉ seen)
    (heap : Heap σ) :
    ∃ links heap', ObjectGraph.resolveEdges model registry
        (ObjectGraph.nodeLabels registry entries) edges seen heap = .ok (links, heap') ∧
      heap.Grows shape heap' ∧ List.Forall₂ (LinkFor registry shape entries heap') edges links ∧
      (links.filterMap (·.object)).Nodup ∧ ∀ r ∈ links.filterMap (·.object), heap.size ≤ r := by
  induction edges generalizing seen heap with
  | nil => exact ⟨[], heap, rfl, .refl heap, .nil, .nil, fun r hr => by cases hr⟩
  | cons e rest ih =>
      obtain ⟨hDistinct, hFits⟩ := hEdges
      obtain ⟨hHead, hTail⟩ := List.nodup_cons.1 hDistinct
      have hRest : EdgesFit model registry entries rest :=
        ⟨hTail, fun e he => hFits e (List.mem_cons_of_mem _ he)⟩
      have hNew : ∀ f ∈ rest, f.id ∉ e.id :: seen := by
        intro f hf hMem
        rcases List.mem_cons.1 hMem with hSame | hOld
        · exact hHead (List.mem_map.2 ⟨f, hf, hSame⟩)
        · exact hSeen f (List.mem_cons_of_mem _ hf) hOld
      obtain ⟨m, hDeclared, hFills⟩ := hFits e List.mem_cons_self
      obtain ⟨built, heap₁, hBuild, hFirst, hObject⟩ :=
        buildObject_total hConforms hFills heap
      obtain ⟨links, heap', hLater, hSecond, hLinks, hApart, hFresh⟩ := ih hRest hNew heap₁
      have hLink : LinkFor registry shape entries heap' e ⟨e, m, built⟩ := by
        refine ⟨rfl, hDeclared, ?_⟩
        rcases hObject with hNone | ⟨type, hType, hBuilt, hHolds⟩
        · exact .inl hNone
        · exact .inr ⟨type, heap.size, hType, hBuilt, hSecond.holds _ _ hHolds⟩
      refine ⟨⟨e, m, built⟩ :: links, heap', ?_, hFirst.trans hSecond, .cons hLink hLinks, ?_, ?_⟩
      · obtain ⟨a, ha, z, hz, hStart, hFinish, da, dz, hda, hdz, hResolve⟩ := hDeclared
        have hStartLabel := lookup_nodeLabels hda (fun b hb => hNodes.same b hb a ha) ha
        have hFinishLabel := lookup_nodeLabels hdz (fun b hb => hNodes.same b hb z hz) hz
        rw [hStart] at hStartLabel
        rw [hFinish] at hFinishLabel
        exact resolveEdges_cons (hSeen e List.mem_cons_self) hStartLabel hFinishLabel hResolve hBuild
          hLater
      · -- The object of the first relationship is older than those of all later ones.
        rcases hObject with ⟨-, rfl⟩ | ⟨type, -, rfl, hHolds⟩
        · simpa using hApart
        · refine List.nodup_cons.2 ⟨fun hMem => ?_, hApart⟩
          have hLow : heap₁.size ≤ heap.size := hFresh _ hMem
          exact absurd (Nat.lt_of_lt_of_le hHolds.1 hLow) (Nat.lt_irrefl _)
      · intro r hr
        rcases hObject with ⟨-, rfl⟩ | ⟨type, -, rfl, hHolds⟩
        · exact Nat.le_trans hFirst.size (hFresh r (by simpa using hr))
        · rcases List.mem_cons.1 hr with rfl | hr
          · exact Nat.le_refl _
          · exact Nat.le_trans hFirst.size (hFresh r hr)

theorem NodesBuilt.mono (h : NodesBuilt registry shape entries nodes heap)
    (hGrows : heap.Grows shape heap') : NodesBuilt registry shape entries nodes heap' := by
  refine ⟨h.numbers, h.apart, fun entry hEntry => ?_, h.all⟩
  obtain ⟨node, hNode, hId, d, hd, hHolds⟩ := h.typed entry hEntry
  exact ⟨node, hNode, hId, d, hd, hGrows.holds _ _ hHolds⟩

theorem relateSide_total (hConforms : model.Conforms registry shape) {binding : Option Binding}
    {owner type : TypeName} {r target : Ref}
    (hTakes : ∀ b, binding = some b → registry.Takes owner b.field type)
    (hr : heap.Holds shape r owner) (hTarget : heap.Holds shape target type) :
    ∃ heap', ObjectGraph.relateSide model binding r target heap = .ok heap' ∧
      heap.Grows shape heap' := by
  cases binding with
  | none => exact ⟨heap, rfl, .refl heap⟩
  | some b => exact Heap.relate_total hConforms (hTakes b rfl) hr hTarget

theorem joinObject_total (hConforms : model.Conforms registry shape) {r x y : Ref}
    {start finish : TypeName} (hd : d ∈ registry.types) (hEnds : d.endpoints = some (start, finish))
    (hr : heap.Holds shape r d.type) (hx : heap.Holds shape x start)
    (hy : heap.Holds shape y finish) :
    ∃ heap', ObjectGraph.joinObject model r x y heap = .ok heap' ∧ heap.Grows shape heap' := by
  have hObject : d.isObject = true := by simp [TypeDescriptor.isObject, hEnds]
  have hCan : model.canJoin (heap.stateOf r) = true := hConforms.canJoin d hd hObject _ hr.2.2
  obtain ⟨heap₁, hFirst, hGrows⟩ := Heap.join_total hConforms hd hEnds .start hr hx
  obtain ⟨heap₂, hSecond, hGrows'⟩ :=
    Heap.join_total hConforms hd hEnds .finish (hGrows.holds _ _ hr) (hGrows.holds _ _ hy)
  refine ⟨heap₂, ?_, hGrows.trans hGrows'⟩
  unfold ObjectGraph.joinObject
  rw [if_pos hCan, hFirst]
  exact hSecond

theorem ObjectGraph.endOf_eq_ok {α : Type} {table : List (Int64 × α)} {a : α} {id : Int64} :
    ObjectGraph.endOf table e id = .ok a ↔ table.lookup id = some a := by
  unfold ObjectGraph.endOf
  cases table.lookup id <;> simp

/-- A relationship is linked if its ends are there: an object of its own is joined to both of them, and then
each end records the object, or the other end where there is none. -/
theorem ObjectGraph.link_eq_ok_iff {heap' : Heap σ} : ObjectGraph.link model nodes heap l = .ok heap' ↔
    ∃ x y joined next, nodes.lookup l.edge.start = some x ∧ nodes.lookup l.edge.finish = some y ∧
      (∀ o, l.object = some o → ObjectGraph.joinObject model o x y heap = .ok joined) ∧
      (l.object = none → joined = heap) ∧
      ObjectGraph.relateSide model l.taken.start x (l.object.getD y) joined = .ok next ∧
      ObjectGraph.relateSide model l.taken.finish y (l.object.getD x) next = .ok heap' := by
  unfold ObjectGraph.link
  constructor
  · intro h
    obtain ⟨x, hx, h⟩ := bind_eq_ok.1 h
    obtain ⟨y, hy, h⟩ := bind_eq_ok.1 h
    rw [ObjectGraph.endOf_eq_ok] at hx hy
    cases hOwn : l.object with
    | none =>
        rw [hOwn] at h
        obtain ⟨next, hFirst, hSecond⟩ := bind_eq_ok.1 h
        exact ⟨x, y, heap, next, hx, hy, fun _ ho => (by cases ho), fun _ => rfl, hFirst, hSecond⟩
    | some o =>
        rw [hOwn] at h
        obtain ⟨joined, hJoined, h⟩ := bind_eq_ok.1 h
        obtain ⟨next, hFirst, hSecond⟩ := bind_eq_ok.1 h
        refine ⟨x, y, joined, next, hx, hy, fun o' ho => ?_, fun hNone => (by cases hNone), hFirst, hSecond⟩
        cases ho
        exact hJoined
  · rintro ⟨x, y, joined, next, hx, hy, hObject, hPlain, hFirst, hSecond⟩
    refine bind_eq_ok.2 ⟨x, ObjectGraph.endOf_eq_ok.2 hx, bind_eq_ok.2 ⟨y, ObjectGraph.endOf_eq_ok.2 hy, ?_⟩⟩
    cases hOwn : l.object with
    | none =>
        rw [hPlain hOwn, hOwn] at hFirst
        rw [hOwn] at hSecond
        exact bind_eq_ok.2 ⟨next, hFirst, hSecond⟩
    | some o =>
        rw [hOwn] at hFirst hSecond
        exact bind_eq_ok.2 ⟨joined, hObject o hOwn, bind_eq_ok.2 ⟨next, hFirst, hSecond⟩⟩

/-- Linking a relationship between objects that are there does not fail: whatever the registry lets
take it fits the types at its ends. -/
theorem link_total {builder : RegistryBuilder} (hFrozen : builder.build = .ok registry)
    (hConforms : model.Conforms registry shape)
    (hPlaced : Placed registry shape entries nodes heap)
    (hLink : LinkFor registry shape entries heap e l) :
    ∃ heap', ObjectGraph.link model nodes heap l = .ok heap' ∧ heap.Grows shape heap' := by
  obtain ⟨rfl, ⟨a, ha, z, hz, hStart, hFinish, da, dz, hda, hdz, hResolve⟩, hObject⟩ := hLink
  obtain ⟨x, hxLookup, hx⟩ := hPlaced a ha da hda
  obtain ⟨y, hyLookup, hy⟩ := hPlaced z hz dz hdz
  rw [hStart] at hxLookup
  rw [hFinish] at hyLookup
  obtain ⟨hdaMem, hdaNode⟩ := Registry.mem_of_withLabels hda
  obtain ⟨hdzMem, hdzNode⟩ := Registry.mem_of_withLabels hdz
  have hFits := Registry.fits_of_resolve hFrozen hdaMem hdzMem hdaNode hdzNode hResolve
  -- With an object joined to both ends, or without one, there is what each end takes.
  obtain ⟨joined, hJoin, hPlain, hGrows, hFar, hNear⟩ : ∃ joined,
      (∀ o, l.object = some o → ObjectGraph.joinObject model o x y heap = .ok joined) ∧
      (l.object = none → joined = heap) ∧ heap.Grows shape joined ∧
      joined.Holds shape (l.object.getD y) (l.taken.object.getD dz.type) ∧
      joined.Holds shape (l.object.getD x) (l.taken.object.getD da.type) := by
    rcases hObject with ⟨hNone, hPlain⟩ | ⟨type, r, hType, hSome, hr⟩
    · rw [hNone, hPlain]
      exact ⟨heap, fun _ ho => (by cases ho), fun _ => rfl, .refl heap, hy, hx⟩
    · obtain ⟨d, hd, hEnds⟩ := hFits.object type hType
      obtain ⟨hdMem, rfl⟩ := Registry.mem_of_descriptor hd
      obtain ⟨joined, hJoin, hGrows⟩ := joinObject_total hConforms hdMem hEnds hr hx hy
      rw [hType, hSome]
      refine ⟨joined, fun o ho => ?_, fun hNone => (by cases hNone), hGrows, hGrows.holds _ _ hr,
        hGrows.holds _ _ hr⟩
      cases ho
      exact hJoin
  obtain ⟨next, hFirst, hGrows'⟩ :=
    relateSide_total hConforms hFits.start (hGrows.holds _ _ hx) hFar
  have hBoth := hGrows.trans hGrows'
  obtain ⟨heap', hSecond, hLast⟩ :=
    relateSide_total hConforms hFits.finish (hBoth.holds _ _ hy) (hGrows'.holds _ _ hNear)
  exact ⟨heap', ObjectGraph.link_eq_ok_iff.2
    ⟨x, y, joined, next, hxLookup, hyLookup, hJoin, hPlain, hFirst, hSecond⟩, hBoth.trans hLast⟩

/-- Linking lets the heap grow, so that every later link finds what it needs. -/
theorem links_total {builder : RegistryBuilder} (hFrozen : builder.build = .ok registry)
    (hConforms : model.Conforms registry shape) {links : List EdgeLink}
    (hPlaced : Placed registry shape entries nodes heap)
    (hLinks : ∀ l ∈ links, ∃ e, LinkFor registry shape entries heap e l) :
    ∃ heap', links.foldlM (ObjectGraph.link model nodes) heap = .ok heap' ∧ heap.Grows shape heap' := by
  have hStep : ∀ l ∈ links, ∀ later, heap.Grows shape later →
      ∃ heap', ObjectGraph.link model nodes later l = .ok heap' ∧ heap.Grows shape heap' := by
    intro l hl later hGrows
    obtain ⟨e, hLink⟩ := hLinks l hl
    obtain ⟨heap', hLinked, hMore⟩ :=
      link_total hFrozen hConforms (hPlaced.mono hGrows) (hLink.mono hGrows)
    exact ⟨heap', hLinked, hGrows.trans hMore⟩
  exact foldlM_total hStep (.refl heap)

/-- A load result becomes a graph exactly if it has primary nodes and all passes succeed. -/
theorem ObjectGraph.ofResult_eq_ok_iff {result : LoadResult} {graph : ObjectGraph} {heap heap' : Heap σ} :
    ObjectGraph.ofResult model registry result heap = .ok (graph, heap') ↔ result.hasPrimaries = true ∧
      ∃ nodes heap₁ edges links heap₂,
        ObjectGraph.buildNodes model registry (result.primaries ++ result.others) [] heap =
          .ok (nodes, heap₁) ∧
        result.relationships = .ok edges ∧
        ObjectGraph.resolveEdges model registry
          (ObjectGraph.nodeLabels registry (result.primaries ++ result.others)) edges [] heap₁ =
            .ok (links, heap₂) ∧
        links.foldlM (ObjectGraph.link model nodes) heap₂ = .ok heap' ∧
        graph = ⟨nodes, links.filterMap fun l => l.object.map fun r => (l.edge.id, r),
          ObjectGraph.distinctIds result.primaries⟩ := by
  unfold ofResult
  cases result.hasPrimaries with
  | false =>
      constructor
      · intro h
        cases h
      · rintro ⟨h, -⟩
        cases h
  | true =>
      constructor
      · intro h
        obtain ⟨⟨nodes, heap₁⟩, hNodes, h⟩ := bind_eq_ok.1 h
        obtain ⟨edges, hEdges, h⟩ := bind_eq_ok.1 h
        obtain ⟨⟨links, heap₂⟩, hLinks, h⟩ := bind_eq_ok.1 h
        obtain ⟨heap₃, hAll, h⟩ := bind_eq_ok.1 h
        cases h
        exact ⟨rfl, nodes, heap₁, edges, links, heap₂, hNodes, hEdges, hLinks, hAll, rfl⟩
      · rintro ⟨-, nodes, heap₁, edges, links, heap₂, hNodes, hEdges, hLinks, hAll, rfl⟩
        change (buildNodes model registry _ [] heap >>= _) = _
        rw [hNodes]
        change (result.relationships >>= _) = _
        rw [hEdges]
        change (resolveEdges model registry _ edges [] heap₁ >>= _) = _
        rw [hLinks]
        change (links.foldlM (link model nodes) heap₂ >>= _) = _
        rw [hAll]
        rfl

/-- The numbered objects of relationships are the objects of their links. -/
theorem refs_of_objects (links : List EdgeLink) :
    (links.filterMap fun l => l.object.map fun r => (l.edge.id, r)).map (·.2) =
      links.filterMap (·.object) := by
  rw [List.map_filterMap]
  congr 1
  funext l
  cases l.object <;> rfl

/-- A load result that fits is rebuilt: each node has one object of its type, each relationship one of
the type that the registry says, if any, and no object stands for two of them. -/
theorem ofResult_total {builder : RegistryBuilder} (hFrozen : builder.build = .ok registry)
    (hConforms : model.Conforms registry shape) (result : LoadResult) {edges : List StoredEdge}
    (hPrimaries : result.hasPrimaries = true) (hEdgeList : result.relationships = .ok edges)
    (hNodes : NodesFit model registry (result.primaries ++ result.others))
    (hEdges : EdgesFit model registry (result.primaries ++ result.others) edges) (heap : Heap σ) :
    ∃ graph heap', ObjectGraph.ofResult model registry result heap = .ok (graph, heap') ∧
      NodesBuilt registry shape (result.primaries ++ result.others) graph.nodes heap' ∧
      (graph.nodes.map (·.2) ++ graph.edges.map (·.2)).Nodup ∧
      ∃ links, List.Forall₂ (LinkFor registry shape (result.primaries ++ result.others) heap') edges
          links ∧
        graph.edges = links.filterMap fun l => l.object.map fun r => (l.edge.id, r) := by
  obtain ⟨nodes, heap₁, hBuild, hFirst, hBuilt⟩ :=
    buildNodes_total hConforms hNodes.fits (NodesBuilt.nil heap)
  obtain ⟨links, heap₂, hResolve, hSecond, hLinks, hApart, hFresh⟩ :=
    resolveEdges_total hConforms hNodes hEdges (fun _ _ => List.not_mem_nil) heap₁
  rw [List.nil_append] at hBuilt
  have hPlaced := (hBuilt.placed hNodes).mono hSecond
  obtain ⟨heap₃, hLink, hThird⟩ := links_total hFrozen hConforms hPlaced fun l hl => by
    obtain ⟨e, -, hLink⟩ := (exists_of_forall₂ hLinks).2 l hl
    exact ⟨e, hLink⟩
  refine ⟨⟨nodes, links.filterMap fun l => l.object.map fun r => (l.edge.id, r),
      ObjectGraph.distinctIds result.primaries⟩, heap₃, ?_, hBuilt.mono (hSecond.trans hThird), ?_,
    links, hLinks.imp fun e l h => h.mono hThird, rfl⟩
  · exact ObjectGraph.ofResult_eq_ok_iff.2
      ⟨hPrimaries, nodes, heap₁, edges, links, heap₂, hBuild, hEdgeList, hResolve, hLink, rfl⟩
  · rw [refs_of_objects, List.nodup_append]
    refine ⟨hBuilt.apart, hApart, ?_⟩
    rintro r hr q hq rfl
    -- The objects of nodes are older than those of relationships.
    obtain ⟨entry, hEntry, rfl⟩ := List.mem_map.1 hr
    obtain ⟨_, _, _, _, _, hOld⟩ := hBuilt.typed entry hEntry
    exact absurd (Nat.lt_of_lt_of_le hOld.1 (hFresh _ hq)) (Nat.lt_irrefl _)

end

end GraphMapping
