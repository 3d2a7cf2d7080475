import GraphMapping.Proofs.Dict.Groups
import GraphMapping.Proofs.Entity
import GraphMapping.Proofs.Mapping.Names
import GraphMapping.Proofs.ObjectGraph.Rebuild

/-!
# What loaded objects hold

The relationship-objects of a load result are filled from the properties of their relationships, and
then linked to other objects.  Linking changes no value, so a relationship-object holds the key that is
stored of its relationship, if its key field takes such a key as it is.
-/

namespace GraphMapping

variable {σ : Type}

/-- A state that objects of a type get when their fields are written. -/
inductive EntityModel.Written (model : EntityModel σ) (type : TypeName) : σ → Prop
  | fresh : Written model type (model.fresh type)
  | write {state state' : σ} {field : String} {value : Value} (hState : Written model type state)
      (hWrite : model.write state field value = .ok state') : Written model type state'

/-- A usable key stands among stored properties, under the key's name, and the key field takes it as it
is: the field holds no instant, and the type is one declared with fields of different names. -/
structure StoresKey (model : EntityModel σ) (strategy : KeyStrategy) (d : TypeDescriptor)
    (properties : Dict Value) (pk : FieldDescriptor) (key : Value) : Prop where
  declared : ∃ decl, TypeDescriptor.ofDecl strategy decl = .ok d ∧ (decl.fields.map (·.name)).Nodup
  field : d.key? = some pk
  plain : pk.isTemporal = false
  sorted : Dict.Sorted properties
  present : (pk.storage, key) ∈ properties
  usable : key.key?.isSome = true
  taken : ∀ state state', model.Written d.type state →
    model.write state pk.field key = .ok state' → model.read state' pk.field = some key

/-- The objects of a heap are still there in a later one, with their types and values. -/
structure Heap.Preserves (model : EntityModel σ) (heap heap' : Heap σ) : Prop where
  size : heap.size ≤ heap'.size
  typeOf : ∀ r, r < heap.size → heap'.typeOf r = heap.typeOf r
  read : ∀ r, r < heap.size → ∀ field,
    model.read (heap'.stateOf r) field = model.read (heap.stateOf r) field

/-- An object holds what its type makes of the properties of a relationship. -/
def Heap.Portrays (model : EntityModel σ) (registry : Registry) (heap : Heap σ) (r : Ref)
    (e : StoredEdge) : Prop :=
  r < heap.size ∧ ∃ d state, registry.descriptor (heap.typeOf r) = .ok d ∧
    populate model registry.strategy.isNative d e.id e.properties (model.fresh d.type) = .ok state ∧
    ∀ field, model.read (heap.stateOf r) field = model.read state field

variable {model : EntityModel σ} {registry : Registry} {strategy : KeyStrategy} {d : TypeDescriptor}
  {pk : FieldDescriptor} {key : Value} {id : Int64} {properties : Dict Value} {heap heap' heap'' : Heap σ} {r : Ref}
  {e : StoredEdge}

/-- Objects of declared types keep their type when their fields are written. -/
theorem type_of_written {types : List DeclaredType} {type : TypeName} {state : DeclaredObject}
    (h : (declaredModel types).Written type state) : state.type = .ofName types type := by
  induction h with
  | fresh => rfl
  | write hState hWrite ih =>
      unfold declaredModel DeclaredObject.write at hWrite
      dsimp only at hWrite
      split at hWrite
      · obtain ⟨v, -, rfl⟩ := map_eq_ok.1 hWrite
        exact ih
      · cases hWrite

/-! ## Filling an object -/

theorem StoresKey.stored (h : StoresKey model strategy d properties pk key) :
    d.fieldStoredAs pk.storage = some pk := by
  obtain ⟨decl, hDeclared, -⟩ := h.declared
  exact fieldStoredAs_key hDeclared h.field

theorem StoresKey.apart (h : StoresKey model strategy d properties pk key) {f : FieldDescriptor}
    (hMem : f ∈ d.fields) (hSame : f.field = pk.field) : f = pk := by
  obtain ⟨decl, hDeclared, hNames⟩ := h.declared
  exact field_unique hDeclared hNames hMem (List.mem_of_find?_eq_some h.field) hSame

/-- A property goes to the field stored under its name, or to a property map. -/
theorem fillProperty_cases {filling filling' : Filling σ} {name : String} {value : Value}
    (h : fillProperty model d id filling (name, value) = .ok filling') :
    (∃ f value', d.fieldStoredAs name = some f ∧
      (if f.isTemporal then temporalValue d.label name value else .ok value) = .ok value' ∧
      model.write filling.state f.field value' = .ok filling'.state) ∨
    (d.fieldStoredAs name = none ∧ filling'.state = filling.state) := by
  unfold fillProperty at h
  dsimp only at h
  cases hField : d.fieldStoredAs name with
  | some f =>
      simp only [hField] at h
      refine .inl ⟨f, ?_⟩
      split at h
      · rename_i hTemporal
        obtain ⟨value', hValue, h⟩ := bind_eq_ok.1 h
        obtain ⟨state, hWrite, h⟩ := bind_eq_ok.1 h
        cases h
        exact ⟨value', rfl, by rw [if_pos hTemporal, hValue], hWrite⟩
      · rename_i hPlain
        change (model.write filling.state f.field value >>= _) = _ at h
        obtain ⟨state, hWrite, h⟩ := bind_eq_ok.1 h
        cases h
        exact ⟨value, rfl, if_neg hPlain, hWrite⟩
  | none =>
      simp only [hField] at h
      split at h
      · cases h
        exact .inr ⟨rfl, rfl⟩
      · cases h

theorem fillProperty_key (hSeparates : model.Separates)
    (hStores : StoresKey model strategy d properties pk key) {filling filling' : Filling σ}
    {name : String} {value : Value}
    (h : fillProperty model d id filling (name, value) = .ok filling') :
    (name = pk.storage → value = key → model.Written d.type filling.state →
        model.read filling'.state pk.field = some key) ∧
      (name ≠ pk.storage →
        model.read filling'.state pk.field = model.read filling.state pk.field) := by
  obtain ⟨f, value', hField, hValue, hWrite⟩ | ⟨hNone, hSame⟩ := fillProperty_cases h
  · refine ⟨?_, fun hName => ?_⟩
    · rintro rfl rfl hWritten
      cases hStores.stored.symm.trans hField
      rw [hStores.plain] at hValue
      cases hValue
      exact hStores.taken _ _ hWritten hWrite
    · -- The field of another property has another name.
      have hStorage : f.storage = name := by
        have hHolds := List.find?_some hField
        simp only [Bool.and_eq_true, beq_iff_eq] at hHolds
        exact hHolds.2
      refine hSeparates.read _ _ _ _ hWrite _ fun hHere => hName ?_
      rw [← hStorage, hStores.apart (List.mem_of_find?_eq_some hField) hHere.symm]
  · refine ⟨fun hName => ?_, fun _ => by rw [hSame]⟩
    rw [hName, hStores.stored] at hNone
    cases hNone

theorem fillProperty_written {type : TypeName} {filling filling' : Filling σ} {property : String × Value}
    (hWritten : model.Written type filling.state)
    (h : fillProperty model d id filling property = .ok filling') :
    model.Written type filling'.state := by
  obtain ⟨f, value', -, -, hWrite⟩ | ⟨-, hSame⟩ := fillProperty_cases h
  · exact .write hWritten hWrite
  · rw [hSame]
    exact hWritten

theorem fillProperties_written {type : TypeName} {more : List (String × Value)}
    {filling filling' : Filling σ} (hWritten : model.Written type filling.state)
    (h : more.foldlM (fillProperty model d id) filling = .ok filling') :
    model.Written type filling'.state := by
  induction more generalizing filling with
  | nil =>
      cases h
      exact hWritten
  | cons property rest ih =>
      rw [List.foldlM_cons] at h
      obtain ⟨next, hStep, hRest⟩ := bind_eq_ok.1 h
      exact ih (fillProperty_written hWritten hStep) hRest

theorem fillProperties_other (hSeparates : model.Separates)
    (hStores : StoresKey model strategy d properties pk key) {more : List (String × Value)}
    (hOther : ∀ property ∈ more, property.1 ≠ pk.storage) {filling filling' : Filling σ}
    (h : more.foldlM (fillProperty model d id) filling = .ok filling') :
    model.read filling'.state pk.field = model.read filling.state pk.field := by
  induction more generalizing filling with
  | nil =>
      cases h
      rfl
  | cons property rest ih =>
      rw [List.foldlM_cons] at h
      obtain ⟨next, hStep, hRest⟩ := bind_eq_ok.1 h
      rw [ih (fun other hMem => hOther other (List.mem_cons_of_mem _ hMem)) hRest]
      exact (fillProperty_key hSeparates hStores hStep).2 (hOther property List.mem_cons_self)

theorem fillMaps_key (hSeparates : model.Separates) (hStores : StoresKey model strategy d properties pk key)
    {maps : List FieldDescriptor} (hMaps : maps ⊆ d.propertyMaps) {filling : Filling σ} {state : σ}
    (h : fillMaps model maps filling = .ok state) :
    model.read state pk.field = model.read filling.state pk.field := by
  induction maps generalizing filling with
  | nil =>
      cases h
      rfl
  | cons f rest ih =>
      unfold fillMaps at h
      obtain ⟨next, hWrite, hRest⟩ := bind_eq_ok.1 h
      obtain ⟨hMem, hMap⟩ := List.mem_filter.1 (hMaps List.mem_cons_self)
      rw [ih (fun g hg => hMaps (List.mem_cons_of_mem _ hg)) hRest]
      refine hSeparates.read _ _ _ _ hWrite _ fun hSame => ?_
      -- A property map is not the key.
      rw [hStores.apart hMem hSame.symm] at hMap
      have hKey : pk.isKey = true := List.find?_some hStores.field
      unfold FieldDescriptor.isKey at hKey
      unfold FieldDescriptor.isPropertyMap at hMap
      rw [eq_of_beq hMap] at hKey
      cases hKey

/-- An object that was filled from properties with a usable key holds this key. -/
theorem populate_key (hSeparates : model.Separates) (hStores : StoresKey model strategy d properties pk key)
    {state' : σ} (h : populate model false d id properties (model.fresh d.type) = .ok state') :
    model.read state' pk.field = some key := by
  have hFill : (properties.foldlM (fillProperty model d id) ⟨model.fresh d.type, []⟩ >>=
      fillMaps model d.propertyMaps) = .ok state' := by
    unfold populate at h
    rw [hStores.field] at h
    exact h
  obtain ⟨filling, hFilled, hMaps⟩ := bind_eq_ok.1 hFill
  rw [fillMaps_key hSeparates hStores (List.Subset.refl _) hMaps]
  obtain ⟨before, after, hSplit⟩ := List.append_of_mem hStores.present
  -- The key is written once, and the properties after it have other names.
  have hOther : ∀ property ∈ after, property.1 ≠ pk.storage := by
    intro property hMem hSame
    have hSorted := hStores.sorted
    rw [hSplit] at hSorted
    have hLess := (List.pairwise_cons.1 (List.pairwise_append.1 hSorted).2.1).1 property hMem
    rw [hSame] at hLess
    exact String.lt_irrefl _ hLess
  rw [hSplit, List.foldlM_append] at hFilled
  obtain ⟨first, hBefore, hRest⟩ := bind_eq_ok.1 hFilled
  rw [List.foldlM_cons] at hRest
  obtain ⟨second, hKey, hRest⟩ := bind_eq_ok.1 hRest
  rw [fillProperties_other hSeparates hStores hOther hRest]
  exact (fillProperty_key hSeparates hStores hKey).1 rfl rfl (fillProperties_written .fresh hBefore)

/-! ## Building and linking -/

theorem Heap.Preserves.refl (heap : Heap σ) : heap.Preserves model heap :=
  ⟨Nat.le_refl _, fun _ _ => rfl, fun _ _ _ => rfl⟩

theorem Heap.Preserves.trans (h : heap.Preserves model heap') (h' : heap'.Preserves model heap'') :
    heap.Preserves model heap'' := by
  refine ⟨Nat.le_trans h.size h'.size, fun r hr => ?_, fun r hr field => ?_⟩
  · rw [h'.typeOf r (Nat.lt_of_lt_of_le hr h.size), h.typeOf r hr]
  · rw [h'.read r (Nat.lt_of_lt_of_le hr h.size), h.read r hr]

theorem Heap.Portrays.mono (h : heap.Portrays model registry r e) (hHeap : heap.Preserves model heap') :
    heap'.Portrays model registry r e := by
  obtain ⟨hr, d, state, hType, hState, hRead⟩ := h
  refine ⟨Nat.lt_of_lt_of_le hr hHeap.size, d, state, ?_, hState, fun field => ?_⟩
  · rw [hHeap.typeOf r hr]
    exact hType
  · rw [hHeap.read r hr, hRead]

theorem preserves_alloc (heap : Heap σ) (type : TypeName) (state : σ) :
    heap.Preserves model (heap.alloc type state).2 := by
  refine ⟨Nat.le_succ _, fun q hq => ?_, fun q hq field => ?_⟩
  · simp [Heap.alloc, Heap.typeOf, Nat.ne_of_lt hq]
  · simp [Heap.alloc, Heap.stateOf, Nat.ne_of_lt hq]

/-- Giving an object a state with the same values preserves all objects. -/
theorem preserves_put {state : σ}
    (h : ∀ field, model.read state field = model.read (heap.stateOf r) field) :
    heap.Preserves model (heap.put r state) := by
  refine ⟨Nat.le_refl _, fun q _ => heap.typeOf_put r q state, fun q _ field => ?_⟩
  by_cases hq : q = r
  · subst hq
    rw [Heap.stateOf_put_self, h]
  · rw [Heap.stateOf_put_of_ne heap state hq]

namespace ObjectGraph

theorem build_portrays (hType : registry.descriptor d.type = .ok d)
    (h : build model registry d e.id e.properties heap = .ok (r, heap')) :
    heap.Preserves model heap' ∧ heap'.Portrays model registry r e := by
  obtain ⟨state, hState, h⟩ := bind_eq_ok.1 h
  cases h
  refine ⟨preserves_alloc heap d.type state, Nat.lt_succ_self _, d, state, ?_, hState, fun field => ?_⟩
  · simpa [Heap.alloc, Heap.typeOf] using hType
  · simp [Heap.stateOf]

theorem buildObject_portrays {object : Option TypeName} {made : Option Ref}
    (h : buildObject model registry e object heap = .ok (made, heap')) :
    heap.Preserves model heap' ∧ ∀ r, made = some r → heap'.Portrays model registry r e := by
  unfold buildObject at h
  split at h
  · cases h
    refine ⟨.refl _, fun r hr => ?_⟩
    cases hr
  · rename_i type
    obtain ⟨d, hType, h⟩ := bind_eq_ok.1 h
    obtain ⟨⟨r, next⟩, hBuild, h⟩ := bind_eq_ok.1 h
    cases h
    rw [← (Registry.mem_of_descriptor hType).2] at hType
    obtain ⟨hPreserves, hPortrays⟩ := build_portrays hType hBuild
    refine ⟨hPreserves, fun q hq => ?_⟩
    cases hq
    exact hPortrays

/-- The object of each relationship holds what is stored of the relationship. -/
theorem resolveEdges_portrays {labels : List (Int64 × String)} {edges : List StoredEdge}
    {seen : List Int64} {links : List EdgeLink}
    (h : resolveEdges model registry labels edges seen heap = .ok (links, heap')) :
    heap.Preserves model heap' ∧ ∀ l ∈ links, l.edge ∈ edges ∧
      ∀ r, l.object = some r → heap'.Portrays model registry r l.edge := by
  induction edges generalizing seen heap links with
  | nil =>
      cases h
      exact ⟨.refl _, fun _ hl => absurd hl List.not_mem_nil⟩
  | cons e rest ih =>
      unfold resolveEdges at h
      split at h
      · obtain ⟨hPreserves, hLinks⟩ := ih h
        exact ⟨hPreserves, fun l hl => (hLinks l hl).imp_left (List.mem_cons_of_mem _)⟩
      · obtain ⟨start, -, h⟩ := bind_eq_ok.1 h
        obtain ⟨finish, -, h⟩ := bind_eq_ok.1 h
        obtain ⟨taken, -, h⟩ := bind_eq_ok.1 h
        obtain ⟨⟨object, next⟩, hObject, h⟩ := bind_eq_ok.1 h
        obtain ⟨⟨others, last⟩, hRest, h⟩ := bind_eq_ok.1 h
        cases h
        obtain ⟨hFirst, hMade⟩ := buildObject_portrays hObject
        obtain ⟨hSecond, hLinks⟩ := ih hRest
        refine ⟨hFirst.trans hSecond, fun l hl => ?_⟩
        rcases List.mem_cons.1 hl with rfl | hl
        · exact ⟨List.mem_cons_self, fun r hr => (hMade r hr).mono hSecond⟩
        · exact (hLinks l hl).imp_left (List.mem_cons_of_mem _)

section

variable (hSeparates : model.Separates)

include hSeparates

theorem relateSide_preserves {binding : Option Binding} {owner target : Ref}
    (h : relateSide model binding owner target heap = .ok heap') : heap.Preserves model heap' := by
  unfold relateSide at h
  split at h
  · cases h
    exact .refl _
  · obtain ⟨state, hRelate, rfl⟩ := map_eq_ok.1 h
    exact preserves_put (hSeparates.relate _ _ _ _ _ hRelate)

theorem join_preserves {side : Side} {target : Ref} (h : heap.join model r side target = .ok heap') :
    heap.Preserves model heap' := by
  obtain ⟨state, hJoin, rfl⟩ := map_eq_ok.1 h
  exact preserves_put (hSeparates.join _ _ _ _ _ hJoin)

theorem joinObject_preserves {x y : Ref} (h : joinObject model r x y heap = .ok heap') :
    heap.Preserves model heap' := by
  unfold joinObject at h
  split at h
  · obtain ⟨half, hFirst, hSecond⟩ := bind_eq_ok.1 h
    exact (join_preserves hSeparates hFirst).trans (join_preserves hSeparates hSecond)
  · cases h

theorem link_preserves {nodes : List (Int64 × Ref)} {l : EdgeLink}
    (h : link model nodes heap l = .ok heap') : heap.Preserves model heap' := by
  obtain ⟨x, y, joined, next, -, -, hObject, hPlain, hFirst, hSecond⟩ := link_eq_ok_iff.1 h
  have hJoined : heap.Preserves model joined := by
    cases hOwn : l.object with
    | none =>
        rw [hPlain hOwn]
        exact .refl _
    | some o => exact joinObject_preserves hSeparates (hObject o hOwn)
  exact hJoined.trans
    ((relateSide_preserves hSeparates hFirst).trans (relateSide_preserves hSeparates hSecond))

theorem links_preserve {nodes : List (Int64 × Ref)} {links : List EdgeLink}
    (h : links.foldlM (link model nodes) heap = .ok heap') : heap.Preserves model heap' := by
  induction links generalizing heap with
  | nil =>
      cases h
      exact .refl _
  | cons l rest ih =>
      rw [List.foldlM_cons] at h
      obtain ⟨next, hHere, hRest⟩ := bind_eq_ok.1 h
      exact (link_preserves hSeparates hHere).trans (ih hRest)

/-- Each relationship-object of a load result holds what is stored of its relationship. -/
theorem ofResult_portrays {result : LoadResult} {graph : ObjectGraph}
    (h : ofResult model registry result heap = .ok (graph, heap')) {q : Ref}
    (hq : (id, q) ∈ graph.edges) : ∃ edges e, result.relationships = .ok edges ∧ e ∈ edges ∧
      e.id = id ∧ heap'.Portrays model registry q e := by
  obtain ⟨-, nodes, heap₁, edges, links, heap₂, -, hEdges, hLinks, hLinked, rfl⟩ :=
    ofResult_eq_ok_iff.1 h
  obtain ⟨l, hl, hMade⟩ := List.mem_filterMap.1 hq
  obtain ⟨r, hObject, hPair⟩ := Option.map_eq_some_iff.1 hMade
  cases hPair
  obtain ⟨hEdge, hPortrays⟩ := (resolveEdges_portrays hLinks).2 l hl
  exact ⟨edges, l.edge, hEdges, hEdge, rfl,
    (hPortrays _ hObject).mono (links_preserve hSeparates hLinked)⟩

end

end ObjectGraph

end GraphMapping
