import GraphMapping.Proofs.Mapping.WellFormed
import GraphMapping.Proofs.ObjectGraph.Contents
import GraphMapping.Proofs.Persist.Calls
import GraphMapping.Proofs.Session.Identities
import GraphMapping.Proofs.Session.Numbered

/-!
# Keys that the database gives

Where the database assigns keys, a loaded object is given the number of its node or relationship, and then
filled from the stored properties.  A property that is stored under the name of the key is one of these and
takes the place of the number.  Whatever the object holds in the end is the number that later saves write to
and that a delete asks for.
-/

namespace GraphMapping

open GraphMapping.Action

/-- A field holds an optional integer: it takes integers and null only, and gives them back. -/
structure EntityModel.HoldsInteger {σ : Type} (model : EntityModel σ) (type : TypeName)
    (field : String) : Prop where
  takes : ∀ state state' v, model.Written type state → model.write state field v = .ok state' →
    v = .null ∨ ∃ n, v = .int n
  back : ∀ state state' v, model.Written type state → model.write state field v = .ok state' →
    model.read state' field = some v

/-- The last of some properties that is taken up for a field. -/
def TypeDescriptor.lastFor (d : TypeDescriptor) (field : String) : List (String × Value) → Option Value
  | [] => none
  | (name, value) :: rest => (d.lastFor field rest).or
      (if (d.fieldStoredAs name).any (·.field == field) then some value else none)

/-- An object that was loaded under a number holds this number as its key, unless a stored property was taken
up for the key too: then it holds what this property says.  Where the fields of the type have different
names, the property is the one under the key's name. -/
structure Heap.LoadedUnder {σ : Type} (model : EntityModel σ) (registry : Registry) (heap : Heap σ)
    (r : Ref) (d : TypeDescriptor) (pk : FieldDescriptor) (id : Int64) (properties : Dict Value) :
    Prop where
  type : registry.descriptor (heap.typeOf r) = .ok d
  key : d.key? = some pk
  value : heap.value model r pk.field = (d.lastFor pk.field properties).getD (.int id)
  integer : heap.value model r pk.field = .null ∨ ∃ n, heap.value model r pk.field = .int n
  tied : heap.value model r pk.field = .int id ↔
    ∀ v, d.lastFor pk.field properties = some v → v = .int id
  named : (d.fields.map (·.field)).Nodup → Dict.Sorted properties →
    d.lastFor pk.field properties = properties.find? registry.strategy.field

/-- A plan writes a node to the one with a number: whenever all its nodes were written, the row with this
number stood in the statement that matches the nodes of its label by their numbers. -/
structure Plan.Updates (p : Plan) (strategy : KeyStrategy) (n : PlannedNode) (id : Int64) : Prop where
  old : n.isNew = false
  number : n.nativeId = some id
  sent : ∀ {δ : Type} (server : Server δ) (db db' : δ) (ids : GraphIds) (calls : List Call),
    Returns (p.persist server.answered strategy) (db, []) ids (db', calls) →
    ∃ items s rows, (n.label, items) ∈ p.nodes ∧
      updateBatch n.label (items.filter (!·.isNew)) = .ok s ∧ nodeRow [("id", .int id)] n ∈ s.batch ∧
        ⟨s, .ok rows⟩ ∈ calls

/-- Saves and deletes of an object follow the key that it holds.  A save that starts at the object plans it as
itself; wherever it is planned, its properties are written to the node whose number it holds, or to a new
node if it holds none.  A delete asks for this number, or is refused if there is none. -/
structure Heap.FollowsKey {σ : Type} (model : EntityModel σ) (registry : Registry) (heap : Heap σ)
    (r : Ref) (d : TypeDescriptor) (key : Value) : Prop where
  root : ∀ depth taken p after, Plan.make model registry heap r depth taken = (.ok p, after) →
    ∃ n ∈ p.allNodes, n.ref = r
  planned : ∀ root depth taken p after, Plan.make model registry heap root depth taken = (.ok p, after) →
    ∀ n ∈ p.allNodes, n.ref = r → n.label = d.label ∧
      snapshot model d (heap.stateOf r) = .ok n.params ∧
      (∀ id, key = .int id → p.Updates registry.strategy n id) ∧ (key = .null → n.isNew = true)
  deleted : ∀ (δ : Type) (s : Session δ) (taken : Nat) (db : δ × List Moment), s.registry = registry →
    (∀ id, key = .int id → s.Deletes model ⟨heap, taken, db⟩ r d.label (.int id)) ∧
      (key = .null → ∃ text, s.watched.delete model r ⟨heap, taken, db⟩ =
        (.error (.data text), ⟨heap, taken, db⟩))

section

variable {σ : Type} {model : EntityModel σ} {registry : Registry} {d : TypeDescriptor}
  {pk f : FieldDescriptor} {id : Int64} {properties : Dict Value} {field : String}
  {more : List (String × Value)}

/-! ## Filling -/

/-- Where the fields have different names, only the property under the key's name is taken up for the key. -/
theorem lastFor_eq_find? (hStored : d.fieldStoredAs pk.storage = some pk) (hKey : d.key? = some pk)
    (hNames : (d.fields.map (·.field)).Nodup) (hSorted : Dict.Sorted more) :
    d.lastFor pk.field more = Dict.find? more pk.storage := by
  have hName : ∀ name, (d.fieldStoredAs name).any (·.field == pk.field) = (pk.storage == name) := by
    intro name
    rw [Bool.eq_iff_iff, Option.any_eq_true, beq_iff_eq]
    constructor
    · rintro ⟨f, hFound, hSame⟩
      have hStorage := List.find?_some hFound
      simp only [Bool.and_eq_true, beq_iff_eq] at hStorage
      rw [← hStorage.2, List.inj_on_of_nodup_map hNames (List.mem_of_find?_eq_some hFound)
        (List.mem_of_find?_eq_some hKey) (eq_of_beq hSame)]
    · rintro rfl
      exact ⟨pk, hStored, beq_self_eq_true _⟩
  induction more with
  | nil => rfl
  | cons property rest ih =>
      obtain ⟨name, value⟩ := property
      obtain ⟨hFirst, hRest⟩ := List.pairwise_cons.1 hSorted
      unfold TypeDescriptor.lastFor
      rw [ih hRest, hName]
      by_cases hHere : name = pk.storage
      · subst hHere
        -- The names are in order, so that the name of the key does not come again.
        have hNone : Dict.find? rest pk.storage = none := by
          cases hFound : Dict.find? rest pk.storage with
          | none => rfl
          | some other => exact absurd (hFirst _ (Dict.mem_of_find? hFound)) (String.lt_irrefl _)
        simp [hNone, Dict.find?]
      · have hDiffers : (pk.storage == name) = false := beq_eq_false_iff_ne.2 (Ne.symm hHere)
        simp [hDiffers, Dict.find?, hHere]

/-- What is taken up for a field that holds instants is none of the integers. -/
theorem temporalValue_integer {label name : String} {value given : Value}
    (h : temporalValue label name value = .ok given)
    (hInteger : given = .null ∨ ∃ n, given = .int n) : given = value := by
  unfold temporalValue at h
  split at h
  · split at h
    · cases h
      rcases hInteger with hNull | ⟨n, hInt⟩
      · cases hNull
      · cases hInt
    · cases h
  · cases h
    rfl
  · cases h

section

variable (hSeparates : model.Separates) (hHolds : model.HoldsInteger d.type field)

include hSeparates hHolds

theorem fillProperty_integer {filling filling' : Filling σ} {name : String} {value : Value}
    (hWritten : model.Written d.type filling.state)
    (h : fillProperty model d id filling (name, value) = .ok filling') :
    ((d.fieldStoredAs name).any (·.field == field) = true →
      model.read filling'.state field = some value ∧ (value = .null ∨ ∃ n, value = .int n)) ∧
    ((d.fieldStoredAs name).any (·.field == field) = false →
      model.read filling'.state field = model.read filling.state field) := by
  obtain ⟨f, given, hField, hValue, hWrite⟩ | ⟨hNone, hSame⟩ := fillProperty_cases h
  · rw [hField, Option.any_some]
    constructor
    · intro hHere
      rw [eq_of_beq hHere] at hWrite
      have hInteger := hHolds.takes _ _ _ hWritten hWrite
      have hGiven : given = value := by
        split at hValue
        · exact temporalValue_integer hValue hInteger
        · cases hValue
          rfl
      rw [hGiven] at hWrite hInteger
      exact ⟨hHolds.back _ _ _ hWritten hWrite, hInteger⟩
    · intro hOther
      exact hSeparates.read _ _ _ _ hWrite _ (ne_of_beq_false hOther).symm
  · rw [hNone, hSame]
    exact ⟨fun hHere => (by cases hHere), fun _ => rfl⟩

theorem fillProperties_integer {filling filling' : Filling σ}
    (hWritten : model.Written d.type filling.state)
    (h : more.foldlM (fillProperty model d id) filling = .ok filling') :
    model.read filling'.state field = (d.lastFor field more).or (model.read filling.state field) ∧
      ∀ v, d.lastFor field more = some v → v = .null ∨ ∃ n, v = .int n := by
  induction more generalizing filling with
  | nil =>
      cases h
      exact ⟨rfl, fun _ hNone => (by cases hNone)⟩
  | cons property rest ih =>
      obtain ⟨name, value⟩ := property
      rw [List.foldlM_cons] at h
      obtain ⟨next, hStep, hRest⟩ := bind_eq_ok.1 h
      obtain ⟨hRead, hIntegers⟩ := ih (fillProperty_written hWritten hStep) hRest
      obtain ⟨hHere, hOther⟩ := fillProperty_integer hSeparates hHolds hWritten hStep
      unfold TypeDescriptor.lastFor
      rw [hRead]
      cases hFor : (d.fieldStoredAs name).any (·.field == field) with
      | true =>
          obtain ⟨hValue, hInteger⟩ := hHere hFor
          rw [hValue]
          cases hLast : d.lastFor field rest with
          | none =>
              refine ⟨rfl, fun v hv => ?_⟩
              cases hv
              exact hInteger
          | some last =>
              refine ⟨rfl, fun v hv => ?_⟩
              cases hv
              exact hIntegers _ hLast
      | false =>
          rw [hOther hFor]
          simp only [Bool.false_eq_true, if_false, Option.or_none]
          exact ⟨trivial, hIntegers⟩

/-- No property map is written to a field that holds an integer. -/
theorem fillMaps_integer {maps : List FieldDescriptor} {filling : Filling σ} {state : σ}
    (hWritten : model.Written d.type filling.state) (h : fillMaps model maps filling = .ok state) :
    model.read state field = model.read filling.state field := by
  induction maps generalizing filling with
  | nil =>
      cases h
      rfl
  | cons f rest ih =>
      unfold fillMaps at h
      obtain ⟨next, hWrite, hRest⟩ := bind_eq_ok.1 h
      have hNext : model.Written d.type next := .write hWritten hWrite
      rw [ih hNext hRest]
      refine hSeparates.read _ _ _ _ hWrite _ fun hSame => ?_
      rw [← hSame] at hWrite
      rcases hHolds.takes _ _ _ hWritten hWrite with hNull | ⟨n, hInt⟩
      · cases hNull
      · cases hInt

end

/-- An object is filled with its number as the key first, and then with what is taken up for the key. -/
theorem populate_integer (hSeparates : model.Separates) (hKey : d.key? = some pk)
    (hHolds : model.HoldsInteger d.type pk.field) {state : σ}
    (h : populate model true d id properties (model.fresh d.type) = .ok state) :
    model.read state pk.field = some ((d.lastFor pk.field properties).getD (.int id)) ∧
      ((d.lastFor pk.field properties).getD (.int id) = .null ∨
        ∃ n, (d.lastFor pk.field properties).getD (.int id) = .int n) := by
  unfold populate at h
  rw [hKey] at h
  obtain ⟨keyed, hFirst, h⟩ := bind_eq_ok.1 h
  obtain ⟨filling, hFilled, hMaps⟩ := bind_eq_ok.1 h
  have hWrite : model.write (model.fresh d.type) pk.field (.int id) = .ok keyed := hFirst
  have hKeyed : model.Written d.type (⟨keyed, []⟩ : Filling σ).state := .write .fresh hWrite
  obtain ⟨hRead, hIntegers⟩ := fillProperties_integer hSeparates hHolds hKeyed hFilled
  rw [fillMaps_integer hSeparates hHolds (fillProperties_written hKeyed hFilled) hMaps, hRead,
    hHolds.back _ _ _ .fresh hWrite]
  cases hLast : d.lastFor pk.field properties with
  | none => exact ⟨rfl, .inr ⟨id, rfl⟩⟩
  | some last => exact ⟨rfl, hIntegers last hLast⟩

/-- An object that shows what was filled in for it under a number is loaded under this number. -/
theorem loadedUnder_of_populate {heap : Heap σ} {r : Ref} {state : σ} (hRegistry : registry.WellFormed)
    (hNative : registry.strategy.isNative = true) (hSeparates : model.Separates)
    (hType : registry.descriptor (heap.typeOf r) = .ok d) (hKey : d.key? = some pk)
    (hHolds : model.HoldsInteger d.type pk.field)
    (hState : populate model registry.strategy.isNative d id properties (model.fresh d.type) = .ok state)
    (hRead : ∀ field, model.read (heap.stateOf r) field = model.read state field) :
    heap.LoadedUnder model registry r d pk id properties := by
  rw [hNative] at hState
  obtain ⟨hHeld, hInteger⟩ := populate_integer hSeparates hKey hHolds hState
  have hValue : heap.value model r pk.field = (d.lastFor pk.field properties).getD (.int id) := by
    unfold Heap.value
    rw [hRead, hHeld]
    rfl
  have hDescribed := hRegistry.types d (Registry.mem_of_descriptor hType).1
  have hMem := List.mem_of_find?_eq_some hKey
  have hIsKey : pk.isKey = true := List.find?_some hKey
  refine ⟨hType, hKey, hValue, hValue ▸ hInteger, ?_, fun hNames hSorted => ?_⟩
  · rw [hValue]
    cases d.lastFor pk.field properties with
    | none => exact ⟨fun _ _ hNone => (by cases hNone), fun _ => rfl⟩
    | some last =>
        refine ⟨fun hSame v hv => ?_, fun hAll => hAll last rfl⟩
        cases hv
        exact hSame
  · have hStored : d.fieldStoredAs pk.storage = some pk :=
      fieldStoredAs_of_nodup hDescribed.storage hMem (by rw [hIsKey, Bool.or_true])
    rw [lastFor_eq_find? hStored hKey hNames hSorted, hDescribed.keyStorage pk hMem hIsKey]

end

/-! ## Saves and deletes -/

section

variable {σ : Type} {model : EntityModel σ} {registry : Registry} {heap : Heap σ} {r : Ref}
  {d : TypeDescriptor} {pk : FieldDescriptor} {p : Plan} {n : PlannedNode} {id : Int64}
  {root : Ref} {depth taken after : Nat}

/-- Where the database assigns keys, a planned node with a number is written to the node with this number. -/
theorem updates_of_number (hGroups : Dict.Groups PlannedNode.label p.nodes)
    (hNative : registry.strategy.isNative = true) (hn : n ∈ p.allNodes) (hOld : n.isNew = false)
    (hNumber : n.nativeId = some id) : p.Updates registry.strategy n id := by
  refine ⟨hOld, hNumber, fun server db db' ids calls hWritten => ?_⟩
  obtain ⟨⟨label, items⟩, hGroup, hItem⟩ := Dict.mem_members.1 hn
  have hLabel : n.label = label := hGroups.named _ hGroup n hItem
  subst hLabel
  obtain ⟨d₁, calls₁, hNodes, hGrows⟩ := persist_returns hWritten
  obtain ⟨batches, hBatches, hAnswered⟩ := (persistNodes_returns hNodes).2.1 _ _ hGroup
  have hPart : n ∈ items.filter (!·.isNew) := List.mem_filter.2 ⟨hItem, by rw [hOld]; rfl⟩
  obtain ⟨hNot, -⟩ | ⟨-, updates, hUpdates, hSome, rfl⟩ := nodeBatches_cases hBatches
  · cases hNative.symm.trans hNot
  obtain ⟨s, hs⟩ := hSome ⟨n, hPart⟩
  obtain ⟨rows, hRows⟩ := hAnswered s (List.mem_append_left _ hs)
  refine ⟨items, s, rows, hGroup, hUpdates s hs, ?_, hGrows hRows⟩
  obtain ⟨sent, hSent, hBatch⟩ := bind_eq_ok.1 (hUpdates s hs)
  cases hBatch
  obtain ⟨row, hRow, hEq⟩ := (exists_of_forall₂ (mapM_eq_ok.1 hSent)).1 n hPart
  unfold numberedRow at hEq
  rw [hNumber] at hEq
  cases hEq
  exact hRow

/-- Wherever an object is planned, its key says to which node it is written. -/
theorem planned_of_key {w : Walker σ}
    (hMade : Plan.make w.model w.registry w.heap root depth taken = (.ok p, after))
    (hNative : w.registry.strategy.isNative = true) (hn : n ∈ p.allNodes) (hNode : w.NodeAs n.ref d)
    (hKey : d.key? = some pk) : n.label = d.label ∧
      snapshot w.model d (w.heap.stateOf n.ref) = .ok n.params ∧
      (∀ id, w.heap.value w.model n.ref pk.field = .int id → p.Updates w.registry.strategy n id) ∧
      (w.heap.value w.model n.ref pk.field = .null → n.isNew = true) := by
  obtain ⟨s, rfl, -, -, hTakes⟩ := Walker.takes_of_make hMade
  have hRecords := (Walker.Recorded.of_takes hTakes).nodes
  obtain ⟨-, d', i, params, hNode', hi, hParams, hPlanned⟩ := hRecords.planned n hn
  cases hNode.unique hNode'
  have hIdentity : n.identity = i.key := congrArg PlannedNode.identity hPlanned
  have hNew : n.isNew = i.isNew := congrArg PlannedNode.isNew hPlanned
  have hSnapshot : n.params = params := congrArg PlannedNode.params hPlanned
  refine ⟨congrArg PlannedNode.label hPlanned, hSnapshot ▸ hParams, fun id hValue => ?_, fun hValue => ?_⟩
  · have hOwn : (w.heap.value w.model n.ref pk.field).key? = some (toString id.toInt) := by
      rw [hValue]
      rfl
    cases (Walker.IdentityRecords.of_takes hTakes).origin n.ref i hi with
    | @held d' pk' key hType hPk hHeld =>
        cases ok_unique hNode.1 hType
        cases hKey.symm.trans hPk
        have hText : n.identity = toString id.toInt :=
          hIdentity.trans (Option.some.inj (hHeld.symm.trans hOwn))
        refine updates_of_number hRecords.groups hNative hn hNew ?_
        unfold PlannedNode.nativeId
        rw [hNew, hText]
        exact readInt64_toString id
    | temporary hType hPk hNone _ =>
        cases ok_unique hNode.1 hType
        cases hKey.symm.trans hPk
        cases hOwn.symm.trans hNone
    | generated _ _ _ hNot _ => cases hNative.symm.trans hNot
  · have hNone : (w.heap.value w.model n.ref pk.field).key? = none := by
      rw [hValue]
      rfl
    cases (Walker.IdentityRecords.of_takes hTakes).origin n.ref i hi with
    | held hType hPk hHeld =>
        cases ok_unique hNode.1 hType
        cases hKey.symm.trans hPk
        cases hNone.symm.trans hHeld
    | temporary _ _ _ _ => exact hNew
    | generated _ _ _ _ _ => exact hNew

/-- A node that holds a number or nothing as its key is saved and deleted by what it holds. -/
theorem followsKey_of_node (hNative : registry.strategy.isNative = true)
    (hType : registry.descriptor (heap.typeOf r) = .ok d) (hNode : d.isObject = false)
    (hKey : d.key? = some pk) :
    heap.FollowsKey model registry r d (heap.value model r pk.field) := by
  refine ⟨fun depth taken p after hMade => ?_, fun root depth taken p after hMade n hn hRef => ?_,
    fun δ s taken db hSame => ⟨fun id hValue => ?_, fun hValue => ?_⟩⟩
  · exact Walker.planned_of_root (w := ⟨model, registry, heap⟩) hMade
  · subst hRef
    exact planned_of_key (w := ⟨model, registry, heap⟩) hMade hNative hn ⟨hType, hNode⟩ hKey
  · subst hSame
    refine hValue ▸ (deletes_iff (w := ⟨heap, taken, db⟩) model hType hNode hKey).2 ?_
    rw [show (World.heap ⟨heap, taken, db⟩).value model r pk.field = .int id from hValue]
    refine ⟨rfl, ?_⟩
    unfold KeyStrategy.looksUp
    rw [hNative]
    rfl
  · subst hSame
    obtain ⟨hNull, -⟩ | ⟨-, hRefused⟩ :=
      delete_cases (s := s) (w := ⟨heap, taken, db⟩) model hType hNode hKey
    · rw [show (World.heap ⟨heap, taken, db⟩).value model r pk.field = .null from hValue] at hNull
      cases hNull
    · exact hRefused

end

/-- Where the database assigns keys, every loaded node and every relationship-object with a key holds the
number under which it was loaded, unless a stored property is taken up for its key.  As long as a node keeps
its key, and whatever else is changed, a save that starts at it writes it to the node with this number, and a
delete asks for this number. -/
theorem native_key_iff {σ : Type} (calls : List BuilderCall) (strategy : KeyStrategy) (registry : Registry)
    (model : EntityModel σ) (result : LoadResult) (heap heap' : Heap σ) (graph : ObjectGraph)
    (hFrozen : ((RegistryBuilder.new strategy).callAll calls).2.build = .ok registry)
    (hNative : registry.strategy.isNative = true) (hSeparates : model.Separates)
    (hHolds : ∀ d ∈ registry.types, ∀ pk, d.key? = some pk → model.HoldsInteger d.type pk.field)
    (hLoaded : ObjectGraph.ofResult model registry result heap = .ok (graph, heap')) :
    graph.nodes.map (·.1) = (eachOnce (·.id) (result.primaries ++ result.others)).map (·.id) ∧
    (∀ n r, (n, r) ∈ graph.nodes →
      ∃ node ∈ eachOnce (·.id) (result.primaries ++ result.others), node.id = n ∧
        ∃ d pk, registry.withLabels node.labels = .ok d ∧
          heap'.LoadedUnder model registry r d pk n node.properties ∧
          ∀ later : Heap σ, later.typeOf r = heap'.typeOf r →
            later.value model r pk.field = heap'.value model r pk.field →
            later.FollowsKey model registry r d (heap'.value model r pk.field)) ∧
    ∀ n o, (n, o) ∈ graph.edges → ∃ edges e d, result.relationships = .ok edges ∧ e ∈ edges ∧ e.id = n ∧
      registry.descriptor (heap'.typeOf o) = .ok d ∧
      ∀ pk, d.key? = some pk → heap'.LoadedUnder model registry o d pk n e.properties := by
  have hRegistry : registry.WellFormed := (RegistryBuilder.reached strategy calls).wellFormed hFrozen
  obtain ⟨-, nodes, heap₁, edges, links, heap₂, hNodes, hEdges, hLinks, hAll, rfl⟩ :=
    ObjectGraph.ofResult_eq_ok_iff.1 hLoaded
  obtain ⟨-, hMade⟩ := ObjectGraph.passes_made hNodes hLinks
  have hPreserves := ObjectGraph.links_preserve hSeparates hAll
  refine ⟨hMade.numbers, fun n r hEntry => ?_, fun n o hEntry => ?_⟩
  · obtain ⟨node, hNode, hBuilt⟩ := (exists_of_forall₂ hMade.nodesMade).2 _ hEntry
    obtain ⟨d, hLabels, hSize, state, hState, hCell⟩ := hBuilt.made
    have hId : n = node.id := hBuilt.id
    obtain ⟨hd, hPlain⟩ := Registry.mem_of_withLabels hLabels
    have hTypeOf : heap'.typeOf r = d.type := by
      rw [hPreserves.typeOf r hSize, Heap.typeOf, hCell]
    have hType : registry.descriptor (heap'.typeOf r) = .ok d := by
      rw [hTypeOf]
      exact Registry.descriptor_eq_ok.2 (RegistryBuilder.findType_self hRegistry.names hd)
    obtain ⟨pk, hKey⟩ := Walker.key_of_nodeAs (w := ⟨model, registry, heap'⟩) hRegistry ⟨hType, hPlain⟩
    refine ⟨node, hNode, hId.symm, d, pk, hLabels, ?_, fun later hSame hValue => ?_⟩
    · refine loadedUnder_of_populate hRegistry hNative hSeparates hType hKey (hHolds d hd pk hKey)
        (hId ▸ hState) fun field => ?_
      rw [hPreserves.read r hSize, Heap.stateOf, hCell]
    · rw [← hValue]
      exact followsKey_of_node hNative (hSame ▸ hType) hPlain hKey
  · obtain ⟨edges', e, hSame, he, hId, -, d, state, hType, hState, hRead⟩ :=
      ObjectGraph.ofResult_portrays hSeparates hLoaded hEntry
    refine ⟨edges', e, d, hSame, he, hId, hType, fun pk hKey => ?_⟩
    exact loadedUnder_of_populate hRegistry hNative hSeparates hType hKey
      (hHolds d (Registry.mem_of_descriptor hType).1 pk hKey) (hId ▸ hState) hRead

/-- Fields of declared types that hold an optional integer do so. -/
theorem holdsInteger_of_declared {types : List DeclaredType} {type : TypeName} {field : String}
    (h : (DeclaredType.ofName types type).valueType? field = some (.option .int)) :
    (declaredModel types).HoldsInteger type field := by
  have hField : ∀ state, (declaredModel types).Written type state →
      state.type.valueType? field = some (.option .int) := by
    intro state hWritten
    rw [type_of_written hWritten]
    exact h
  have hWrite : ∀ state state' v, (declaredModel types).Written type state →
      (declaredModel types).write state field v = .ok state' →
      (v = .null ∨ ∃ n, v = .int n) ∧ state' = { state with values := state.values.insert field v } := by
    intro state state' v hWritten hTaken
    change DeclaredObject.write state field v = _ at hTaken
    unfold DeclaredObject.write at hTaken
    rw [hField state hWritten] at hTaken
    obtain ⟨given, hGiven, rfl⟩ := map_eq_ok.1 hTaken
    cases v with
    | null =>
        cases hGiven
        exact ⟨.inl rfl, rfl⟩
    | int n =>
        cases hGiven
        exact ⟨.inr ⟨n, rfl⟩, rfl⟩
    | _ => cases hGiven
  refine ⟨fun state state' v hWritten hTaken => (hWrite state state' v hWritten hTaken).1,
    fun state state' v hWritten hTaken => ?_⟩
  obtain ⟨-, rfl⟩ := hWrite state state' v hWritten hTaken
  change DeclaredObject.read _ field = _
  unfold DeclaredObject.read
  rw [hField state hWritten]
  exact Dict.find?_insert_self _ _ _

namespace Gallery

/-- A print, which may have copies; the database numbers both. -/
def print : DeclaredType :=
  ⟨"Print", "Print", none,
    [⟨⟨"id", .scalar, "pk"⟩, .value (.option .int)⟩,
      ⟨⟨"copies", .many "Copy", "relationship=COPY_OF;direction=incoming"⟩, .many "Copy"⟩], false⟩

def copy : DeclaredType :=
  ⟨"Copy", "COPY_OF", some ("Print", "Print"), [⟨⟨"id", .scalar, "pk"⟩, .value (.option .int)⟩], false⟩

def calls : List BuilderCall :=
  [.register print.decl, .register copy.decl]

def registry : Registry where
  strategy := .native
  types := [
    ⟨"Print", "Print", [⟨"id", "id", .key false, false, false⟩,
      ⟨"copies", "copies", .relationship ⟨"COPY_OF", .incoming, "Copy", true⟩, false, false⟩], none⟩,
    ⟨"Copy", "COPY_OF", [⟨"id", "id", .key false, false, false⟩], some ("Print", "Print")⟩]
  relationships := [
    (⟨"Print", "COPY_OF", "Print"⟩, ⟨none, some ⟨"Print", "copies", true, .incoming⟩, some "Copy"⟩)]

def model : EntityModel DeclaredObject :=
  declaredModel [print, copy]

/-- Two prints, the second a copy of the first; the first has a property under the key's name. -/
def stored (properties : Dict Value) : LoadResult :=
  .ofParts [⟨7, 42, 41, "COPY_OF", []⟩] [⟨42, ["Print"], []⟩] [⟨41, ["Print"], properties⟩]

theorem holdsInteger : ∀ d ∈ registry.types, ∀ pk, d.key? = some pk →
    model.HoldsInteger d.type pk.field := by
  intro d hd pk hKey
  rcases List.mem_cons.1 hd with rfl | hd
  · cases hKey
    exact holdsInteger_of_declared rfl
  · cases List.mem_singleton.1 hd
    cases hKey
    exact holdsInteger_of_declared rfl

def session : Session Script :=
  ⟨registry, Script.server, .standard⟩

end Gallery

theorem gallery_keys :
    ((RegistryBuilder.new .native).callAll Gallery.calls).2.build = .ok Gallery.registry ∧
    ∃ graph heap', ObjectGraph.ofResult Gallery.model Gallery.registry (Gallery.stored [])
        (Heap.empty Gallery.model) = .ok (graph, heap') ∧
      heap'.value Gallery.model 0 "id" = .int 41 ∧ heap'.value Gallery.model 2 "id" = .int 7 ∧
      Gallery.session.Deletes Gallery.model ⟨heap', 0, (.new, [])⟩ 0 "Print" (.int 41) ∧
      ∃ p after, Plan.make Gallery.model Gallery.registry heap' 0 0 0 = (.ok p, after) ∧
        ∃ n ∈ p.allNodes, n.ref = 0 ∧ p.Updates .native n 41 := by
  have hFrozen : ((RegistryBuilder.new .native).callAll Gallery.calls).2.build = .ok Gallery.registry := by
    rfl
  obtain ⟨graph, heap', hLoaded, hFirst, hObject, p, after, hMade⟩ : ∃ graph heap',
      ObjectGraph.ofResult Gallery.model Gallery.registry (Gallery.stored [])
        (Heap.empty Gallery.model) = .ok (graph, heap') ∧ (41, 0) ∈ graph.nodes ∧ (7, 2) ∈ graph.edges ∧
        ∃ p after, Plan.make Gallery.model Gallery.registry heap' 0 0 0 = (.ok p, after) :=
    ⟨_, _, by rfl, List.mem_cons_self, List.mem_cons_self, _, _, by rfl⟩
  obtain ⟨-, hNodes, hEdges⟩ := native_key_iff Gallery.calls .native Gallery.registry Gallery.model
    (Gallery.stored []) _ heap' graph hFrozen rfl (declaredModel_separates _) Gallery.holdsInteger hLoaded
  obtain ⟨node, hNode, hId, d, pk, hLabels, hUnder, hFollows⟩ := hNodes 41 0 hFirst
  obtain ⟨edges, e, d', hStored, he, hNumber, hType, hHeld⟩ := hEdges 7 2 hObject
  have hNodeIs : node = ⟨41, ["Print"], []⟩ := by
    rcases List.mem_cons.1 hNode with rfl | hRest
    · rfl
    · cases List.mem_singleton.1 hRest
      cases hId
  subst hNodeIs
  cases hLabels
  cases hUnder.key
  cases hStored
  cases List.mem_singleton.1 he
  have hDescribed : d'.key? = some ⟨"id", "id", .key false, false, false⟩ := by
    obtain ⟨hd, -⟩ := Registry.mem_of_descriptor hType
    rcases List.mem_cons.1 hd with rfl | hd
    · rfl
    · cases List.mem_singleton.1 hd
      rfl
  have hKey : heap'.value Gallery.model 0 "id" = .int 41 := hUnder.value
  have hPrint := hFollows heap' rfl rfl
  obtain ⟨n, hn, hRef⟩ := hPrint.root 0 0 p after hMade
  obtain ⟨-, -, hUpdates, -⟩ := hPrint.planned 0 0 0 p after hMade n hn hRef
  refine ⟨hFrozen, graph, heap', hLoaded, hKey, (hHeld _ hDescribed).value, ?_, p, after, hMade, n, hn, hRef,
    hUpdates 41 hKey⟩
  exact (hPrint.deleted Script Gallery.session 0 (.new, []) rfl).1 41 hKey

/-- A property under the key's name ties a print to another one: its next save writes to this one, and its
delete deletes it. -/
theorem print_follows_property : ∃ graph heap',
    ObjectGraph.ofResult Gallery.model Gallery.registry (Gallery.stored [("id", .int 42)])
      (Heap.empty Gallery.model) = .ok (graph, heap') ∧
    graph.nodes = [(41, 0), (42, 1)] ∧ heap'.value Gallery.model 0 "id" = .int 42 ∧
    (∃ p, Plan.make Gallery.model Gallery.registry heap' 0 0 0 = (.ok p, 0) ∧
      updateBatch "Print" p.allNodes = .ok (nodeBatch "MATCH (n:`Print`) WHERE id(n) = row.id"
        [.map [("id", .int 42), ("key", .string "42"), ("props", .map [])]])) ∧
    (Gallery.session.watched.delete Gallery.model 0 ⟨heap', 0, (.new, [])⟩).2.log =
      [.begin (.ok ()), .run (deleteStatement "Print" [.nativeId 42]) (.ok [[("deleted", .int 1)]]),
        .commit (.ok ())] :=
  ⟨_, _, by rfl, by rfl, by rfl, ⟨_, by rfl, by rfl⟩, by rfl⟩

end GraphMapping
