import GraphMapping.Database.Scripted
import GraphMapping.Entity.Declared
import GraphMapping.ObjectGraph.Populate
import GraphMapping.Proofs.Dict.Lookup
import GraphMapping.Proofs.Persist.Calls
import GraphMapping.Proofs.Walk.Keys

/-!
# What a second save leaves of the first one

The upsert of a node sets its key, stores every property that its row lists, and removes those that the
row lists as null.  A snapshot lists all scalars, also the absent ones, but of a property map only the
entries that are there.  So the stored properties after two saves are those of the last one alone exactly
if no entry that was stored has been removed from a property map.
-/

namespace GraphMapping

/-- What `SET n += props` makes of the properties of a node. -/
def setProperties (props stored : Dict Value) : Dict Value :=
  props.foldl (fun acc e => if e.2.isNull then acc.erase e.1 else acc.insert e.1 e.2) stored

/-- What a row of an upsert makes of the properties of its node: the key is set, then `row.props`. -/
def upsertRow (field : String) (row : Value) (stored : Dict Value) : Dict Value :=
  match row with
  | .map entries =>
      let keyed := match Dict.find? entries "pk" with
        | some key => stored.insert field key
        | none => stored
      match Dict.find? entries "props" with
      | some (.map props) => setProperties props keyed
      | _ => keyed
  | _ => stored

/-- What the upsert of a node makes of its properties. -/
def PlannedNode.upsert (strategy : KeyStrategy) (n : PlannedNode) (stored : Dict Value) :
    Dict Value :=
  upsertRow strategy.field (nodeRow (n.key.toList.map fun key => ("pk", key)) n) stored

/-- A node to write is that of an object: it has the object's snapshot, and a key unless the database
assigns keys. -/
structure PlannedNode.Portrays {σ : Type} (model : EntityModel σ) (registry : Registry)
    (heap : Heap σ) (n : PlannedNode) (d : TypeDescriptor) : Prop where
  type : registry.descriptor (heap.typeOf n.ref) = .ok d
  params : snapshot model d (heap.stateOf n.ref) = .ok n.params
  keyed : n.key.isSome = !registry.strategy.isNative

/-- The snapshot of an object stores something of a field under a name: a scalar, or an entry of a
property map. -/
inductive StoresAs {σ : Type} (model : EntityModel σ) (state : σ) (f : FieldDescriptor) : String → Prop
  | scalar (hScalar : f.isScalar = true) : StoresAs model state f f.storage
  | entry {entries : List (String × Value)} {e : String × Value} (hMap : f.role = .propertyMap)
      (hRead : model.read state f.field = some (.map entries)) (hEntry : e ∈ entries) :
      StoresAs model state f (f.front ++ e.1)

/-- A property that one node stores and the other one does not mention. -/
def Stale (strategy : KeyStrategy) (n n' : PlannedNode) (name : String) : Prop :=
  (∃ v, n.params.find? name = some v ∧ v.isNull = false) ∧ ¬ n'.params.Lists name ∧
    ¬ (strategy.isNative = false ∧ name = strategy.field)

/-! ## Upserts -/

theorem find?_setProperties {props : Dict Value} (hSorted : Dict.Sorted props) (stored : Dict Value)
    (name : String) : (setProperties props stored).find? name =
      match props.find? name with
      | some v => if v.isNull then none else some v
      | none => stored.find? name := by
  induction props generalizing stored with
  | nil => rfl
  | cons e rest ih =>
      obtain ⟨k, v⟩ := e
      obtain ⟨hFirst, hRest⟩ := List.pairwise_cons.1 hSorted
      unfold setProperties at ih ⊢
      rw [List.foldl_cons, ih hRest]
      by_cases hHere : name = k
      · -- The name does not come again, so that the first entry decides.
        subst hHere
        have hNoMore : Dict.find? rest name = none := Dict.find?_eq_none_of_forall_lt hFirst
        have hFound : Dict.find? ((name, v) :: rest) name = some v := if_pos rfl
        rw [hNoMore, hFound]
        change Dict.find? (if v.isNull then stored.erase name else stored.insert name v) name =
          if v.isNull then none else some v
        by_cases hNull : v.isNull = true
        · rw [if_pos hNull, if_pos hNull, Dict.find?_erase_self]
        · rw [if_neg hNull, if_neg hNull, Dict.find?_insert_self]
      · have hOthers : Dict.find? (if v.isNull then stored.erase k else stored.insert k v) name =
            stored.find? name := by
          by_cases hNull : v.isNull = true
          · rw [if_pos hNull, Dict.find?_erase_of_ne _ hHere]
          · rw [if_neg hNull, Dict.find?_insert_of_ne _ _ hHere]
        rw [Dict.find?_cons_of_ne v hHere, hOthers]

theorem sorted_setProperties {props stored : Dict Value} (h : Dict.Sorted stored) :
    Dict.Sorted (setProperties props stored) := by
  induction props generalizing stored with
  | nil => exact h
  | cons e rest ih =>
      unfold setProperties at ih ⊢
      rw [List.foldl_cons]
      refine ih ?_
      split
      · exact Dict.sorted_erase h e.1
      · exact Dict.sorted_insert h e.1 e.2

theorem upsert_eq (strategy : KeyStrategy) (n : PlannedNode) (stored : Dict Value) :
    n.upsert strategy stored = setProperties n.params
      (match n.key with
        | some key => stored.insert strategy.field key
        | none => stored) := by
  have hProps : ∀ after : List (String × Value), (∀ e ∈ after, e.1 = "pk") →
      Dict.find? (Dict.ofList (("key", Value.string n.identity) :: ("props", Value.map n.params) ::
        after)) "props" = some (.map n.params) := by
    intro after hAfter
    refine find?_ofList [("key", .string n.identity)] fun e he => ?_
    rw [hAfter e he]
    decide
  unfold PlannedNode.upsert
  cases n.key with
  | none =>
      have hNoKey : Dict.find? (Dict.ofList [("key", Value.string n.identity),
          ("props", Value.map n.params)]) "pk" = none := by
        refine find?_foldl_insert (d := []) _ fun e he => ?_
        rcases List.mem_cons.1 he with rfl | he
        · exact (by decide : "key" ≠ "pk")
        · cases List.mem_singleton.1 he
          exact (by decide : "props" ≠ "pk")
      simp only [Option.toList_none, List.map_nil, nodeRow, upsertRow, hNoKey,
        hProps [] fun _ he => absurd he List.not_mem_nil]
  | some key =>
      have hKey : Dict.find? (Dict.ofList [("key", Value.string n.identity),
          ("props", Value.map n.params), ("pk", key)]) "pk" = some key :=
        find?_ofList [("key", .string n.identity), ("props", .map n.params)]
          fun _ he => absurd he List.not_mem_nil
      simp only [Option.toList_some, List.map_cons, List.map_nil, nodeRow, upsertRow, hKey,
        hProps [("pk", key)] fun e he => by rw [List.mem_singleton.1 he]]

/-- After an upsert a property is what the row lists, else the key, else what it was. -/
theorem find?_upsert {strategy : KeyStrategy} {n : PlannedNode} (hSorted : Dict.Sorted n.params)
    (hKeyed : n.key.isSome = !strategy.isNative) (stored : Dict Value) (name : String) :
    (n.upsert strategy stored).find? name =
      match n.params.find? name with
      | some v => if v.isNull then none else some v
      | none => if strategy.isNative = false ∧ name = strategy.field then n.key
          else stored.find? name := by
  rw [upsert_eq, find?_setProperties hSorted]
  cases n.params.find? name with
  | some v => rfl
  | none =>
      simp only
      cases hKey : n.key with
      | none =>
          have hNative : strategy.isNative = true := by
            rw [hKey] at hKeyed
            simpa using hKeyed
          rw [if_neg fun h => by rw [hNative] at h; cases h.1]
      | some key =>
          have hNative : strategy.isNative = false := by
            rw [hKey] at hKeyed
            simpa using hKeyed
          by_cases hHere : name = strategy.field
          · rw [if_pos ⟨hNative, hHere⟩, hHere]
            exact Dict.find?_insert_self stored strategy.field key
          · rw [if_neg fun h => hHere h.2]
            exact Dict.find?_insert_of_ne stored key hHere

theorem sorted_upsert {strategy : KeyStrategy} {n : PlannedNode} {stored : Dict Value}
    (h : Dict.Sorted stored) : Dict.Sorted (n.upsert strategy stored) := by
  rw [upsert_eq]
  refine sorted_setProperties ?_
  cases n.key with
  | none => exact h
  | some key => exact Dict.sorted_insert h _ _

/-! ## Snapshots -/

section

variable {σ : Type} {model : EntityModel σ} {d : TypeDescriptor} {state : σ} {params params' : Dict Value}
  {f : FieldDescriptor} {name : String}

theorem lists_snapshotEntries_iff {front : String} {entries : List (String × Value)} :
    (snapshotEntries front entries params).Lists name ↔
      params.Lists name ∨ ∃ e ∈ entries, name = front ++ e.1 := by
  induction entries generalizing params with
  | nil =>
      constructor
      · exact .inl
      · rintro (h | ⟨e, he, -⟩)
        · exact h
        · cases he
  | cons e rest ih =>
      unfold snapshotEntries at ih ⊢
      rw [List.foldl_cons, ih, Dict.lists_insert_iff]
      simp only [List.mem_cons, exists_eq_or_imp]
      exact or_assoc

theorem sorted_snapshotEntries {front : String} {entries : List (String × Value)}
    (h : Dict.Sorted params) : Dict.Sorted (snapshotEntries front entries params) := by
  induction entries generalizing params with
  | nil => exact h
  | cons e rest ih =>
      unfold snapshotEntries at ih ⊢
      rw [List.foldl_cons]
      exact ih (Dict.sorted_insert h _ _)

/-- A scalar field stores its value under its own name. -/
theorem storesAs_scalar_iff {temporal : Bool} (hRole : f.role = .scalar temporal) :
    StoresAs model state f name ↔ name = f.storage := by
  constructor
  · rintro (_ | ⟨hMap, -, -⟩)
    · rfl
    · rw [hRole] at hMap
      cases hMap
  · rintro rfl
    refine .scalar ?_
    unfold FieldDescriptor.isScalar
    rw [hRole]

/-- A property map stores its entries. -/
theorem storesAs_map_iff {entries : List (String × Value)} (hRole : f.role = .propertyMap)
    (hRead : model.read state f.field = some (.map entries)) :
    StoresAs model state f name ↔ ∃ e ∈ entries, name = f.front ++ e.1 := by
  constructor
  · rintro (hScalar | ⟨-, hRead', hEntry⟩)
    · unfold FieldDescriptor.isScalar at hScalar
      rw [hRole] at hScalar
      cases hScalar
    · rw [hRead] at hRead'
      cases hRead'
      exact ⟨_, hEntry, rfl⟩
  · rintro ⟨e, he, rfl⟩
    exact .entry hRole hRead he

/-- A field that holds neither a scalar nor a map of properties stores nothing. -/
theorem not_storesAs (hNotScalar : ∀ temporal, f.role ≠ .scalar temporal)
    (hNotMap : f.role = .propertyMap → ∀ entries, model.read state f.field ≠ some (.map entries)) :
    ¬ StoresAs model state f name := by
  rintro (hScalar | ⟨hMap, hRead, -⟩)
  · unfold FieldDescriptor.isScalar at hScalar
    split at hScalar
    · rename_i temporal hRole
      exact hNotScalar temporal hRole
    · cases hScalar
  · exact hNotMap hMap _ hRead

/-- The snapshot of one field adds the names of the field. -/
theorem snapshotField_spec {type : TypeName}
    (h : snapshotField model type state params f = .ok params') :
    (Dict.Sorted params → Dict.Sorted params') ∧
      ∀ name, params'.Lists name ↔ params.Lists name ∨ StoresAs model state f name := by
  have hNothing : (∀ name, ¬ StoresAs model state f name) → params' = params →
      (Dict.Sorted params → Dict.Sorted params') ∧
        ∀ name, params'.Lists name ↔ params.Lists name ∨ StoresAs model state f name := by
    rintro hNone rfl
    exact ⟨id, fun name => ⟨.inl, fun h => h.resolve_right (hNone name)⟩⟩
  unfold snapshotField at h
  split at h
  · rename_i temporal hRole
    cases h
    refine ⟨fun hSorted => Dict.sorted_insert hSorted _ _, fun name => ?_⟩
    rw [Dict.lists_insert_iff, storesAs_scalar_iff hRole]
  · rename_i hRole
    have hNoEntry : (∀ entries, model.read state f.field ≠ some (.map entries)) →
        ∀ name, ¬ StoresAs model state f name := fun hNotMap _ =>
      not_storesAs (fun temporal => by rw [hRole]; simp) fun _ => hNotMap
    split at h
    · rename_i entries hRead
      cases h
      refine ⟨sorted_snapshotEntries, fun name => ?_⟩
      rw [lists_snapshotEntries_iff, storesAs_map_iff hRole hRead]
    · rename_i hRead
      cases h
      exact hNothing (hNoEntry fun entries => by rw [hRead]; simp) rfl
    · rename_i hRead
      cases h
      exact hNothing (hNoEntry fun entries => by rw [hRead]; simp) rfl
    · cases h
  · rename_i hNotScalar hNotMap
    cases h
    exact hNothing (fun _ => not_storesAs hNotScalar fun hMap => absurd hMap hNotMap) rfl

/-- A snapshot lists just the names of the fields of its object. -/
theorem snapshot_spec (h : snapshot model d state = .ok params) :
    Dict.Sorted params ∧
      ∀ name, params.Lists name ↔ ∃ f ∈ d.fields, StoresAs model state f name := by
  have hAll : ∀ (fields : List FieldDescriptor) (before after : Dict Value),
      fields.foldlM (snapshotField model d.type state) before = .ok after →
      (Dict.Sorted before → Dict.Sorted after) ∧ ∀ name, after.Lists name ↔
        before.Lists name ∨ ∃ f ∈ fields, StoresAs model state f name := by
    intro fields
    induction fields with
    | nil =>
        intro before after h
        cases h
        refine ⟨id, fun name => ⟨.inl, fun h => h.resolve_right ?_⟩⟩
        rintro ⟨f, hf, -⟩
        cases hf
    | cons f rest ih =>
        intro before after h
        rw [List.foldlM_cons] at h
        obtain ⟨middle, hFirst, hRest⟩ := bind_eq_ok.1 h
        obtain ⟨hSorted, hNames⟩ := snapshotField_spec hFirst
        obtain ⟨hSorted', hNames'⟩ := ih middle after hRest
        refine ⟨fun hBefore => hSorted' (hSorted hBefore), fun name => ?_⟩
        rw [hNames', hNames]
        simp only [List.mem_cons, exists_eq_or_imp]
        exact or_assoc
  obtain ⟨hSorted, hNames⟩ := hAll d.fields [] params h
  refine ⟨hSorted List.Pairwise.nil, fun name => ?_⟩
  rw [hNames]
  refine ⟨fun h => h.resolve_left ?_, .inr⟩
  rintro ⟨v, hFound⟩
  cases hFound

end

/-! ## Two saves -/

section

variable {σ : Type} {model : EntityModel σ} {registry : Registry} {heap heap' : Heap σ}
  {n n' : PlannedNode} {d : TypeDescriptor}

/-- What is stale is an entry of a property map that the object has lost. -/
theorem Stale.removed {name : String} (h : Stale registry.strategy n n' name)
    (hFirst : n.Portrays model registry heap d) (hSecond : n'.Portrays model registry heap' d) :
    ∃ f ∈ d.fields, f.role = .propertyMap ∧ ∃ entries e,
      model.read (heap.stateOf n.ref) f.field = some (.map entries) ∧ e ∈ entries ∧
      name = f.front ++ e.1 ∧
      ∀ f' ∈ d.fields, ¬ StoresAs model (heap'.stateOf n'.ref) f' name := by
  obtain ⟨⟨v, hFound, -⟩, hNot, -⟩ := h
  have hGone : ∀ f' ∈ d.fields, ¬ StoresAs model (heap'.stateOf n'.ref) f' name :=
    fun f' hf' hStores => hNot (((snapshot_spec hSecond.params).2 name).2 ⟨f', hf', hStores⟩)
  obtain ⟨f, hf, hStores⟩ := ((snapshot_spec hFirst.params).2 name).1 ⟨v, hFound⟩
  cases hStores with
  | scalar hScalar => exact absurd (.scalar hScalar) (hGone f hf)
  | @entry entries e hMap hRead hEntry =>
      exact ⟨f, hf, hMap, entries, e, hRead, hEntry, rfl, hGone⟩

/-- What is stale stays as the first save has stored it; the last save alone does not store it. -/
theorem Stale.kept {name : String} (h : Stale registry.strategy n n' name)
    (hFirst : n.Portrays model registry heap d) (hSecond : n'.Portrays model registry heap' d) :
    (n'.upsert registry.strategy (n.upsert registry.strategy [])).find? name = n.params.find? name ∧
      (n'.upsert registry.strategy []).find? name = none := by
  have hSorted : Dict.Sorted n.params := (snapshot_spec hFirst.params).1
  have hSorted' : Dict.Sorted n'.params := (snapshot_spec hSecond.params).1
  obtain ⟨⟨v, hFound, hValue⟩, hNot, hNotKey⟩ := h
  have hMissing : n'.params.find? name = none := by
    cases hListed : n'.params.find? name with
    | none => rfl
    | some v => exact absurd ⟨v, hListed⟩ hNot
  rw [find?_upsert hSorted' hSecond.keyed, find?_upsert hSorted' hSecond.keyed, hMissing]
  simp only [if_neg hNotKey]
  rw [find?_upsert hSorted hFirst.keyed, hFound]
  simp [hValue, Dict.find?]

/-- What is not stale is as the last save alone would store it. -/
theorem find?_upsert_of_not_stale {name : String} (h : ¬ Stale registry.strategy n n' name)
    (hFirst : n.Portrays model registry heap d) (hSecond : n'.Portrays model registry heap' d) :
    (n'.upsert registry.strategy (n.upsert registry.strategy [])).find? name =
      (n'.upsert registry.strategy []).find? name := by
  have hSorted : Dict.Sorted n.params := (snapshot_spec hFirst.params).1
  have hSorted' : Dict.Sorted n'.params := (snapshot_spec hSecond.params).1
  rw [find?_upsert hSorted' hSecond.keyed, find?_upsert hSorted' hSecond.keyed]
  cases hListed : n'.params.find? name with
  | some v => rfl
  | none =>
      by_cases hKey : registry.strategy.isNative = false ∧ name = registry.strategy.field
      · simp only [if_pos hKey]
      · -- The first save has stored nothing under the name, or it would be stale.
        simp only [if_neg hKey]
        rw [find?_upsert hSorted hFirst.keyed]
        cases hBefore : n.params.find? name with
        | none =>
            simp only [if_neg hKey]
        | some v =>
            by_cases hNull : v.isNull = true
            · simp [hNull, Dict.find?]
            · refine absurd ⟨⟨v, hBefore, eq_false_of_ne_true hNull⟩, ?_, hKey⟩ h
              rintro ⟨v', hFound⟩
              rw [hListed] at hFound
              cases hFound

/-- After two saves of an object onto one node its stored properties are those of the last save alone
exactly if nothing is stale: no entry that was stored of a property map is missing from the last
snapshot.  Scalars never are, absent ones included. -/
theorem last_save_wins_iff (model : EntityModel σ) (registry : Registry) (heap heap' : Heap σ)
    (d : TypeDescriptor) (n n' : PlannedNode) (hFirst : n.Portrays model registry heap d)
    (hSecond : n'.Portrays model registry heap' d) :
    (n'.upsert registry.strategy (n.upsert registry.strategy []) =
        n'.upsert registry.strategy [] ↔
      ∀ name, ¬ Stale registry.strategy n n' name) ∧
    (∀ name, (Stale registry.strategy n n' name →
        (n'.upsert registry.strategy (n.upsert registry.strategy [])).find? name =
          n.params.find? name) ∧
      (¬ Stale registry.strategy n n' name →
        (n'.upsert registry.strategy (n.upsert registry.strategy [])).find? name =
          (n'.upsert registry.strategy []).find? name)) ∧
    (∀ name, Stale registry.strategy n n' name → ∃ f ∈ d.fields, f.role = .propertyMap ∧
      ∃ entries e, model.read (heap.stateOf n.ref) f.field = some (.map entries) ∧ e ∈ entries ∧
        name = f.front ++ e.1 ∧
        ∀ f' ∈ d.fields, ¬ StoresAs model (heap'.stateOf n'.ref) f' name) := by
  have hFresh := fun name (hNot : ¬ Stale registry.strategy n n' name) =>
    find?_upsert_of_not_stale hNot hFirst hSecond
  refine ⟨⟨fun hSame name hName => ?_, fun hNone => ?_⟩,
    fun name => ⟨fun hName => (hName.kept hFirst hSecond).1, hFresh name⟩,
    fun name hName => hName.removed hFirst hSecond⟩
  · obtain ⟨hKept, hGone⟩ := hName.kept hFirst hSecond
    rw [← hSame, hKept] at hGone
    obtain ⟨⟨v, hFound, -⟩, -⟩ := hName
    rw [hFound] at hGone
    cases hGone
  · exact Dict.eq_of_find?_eq (sorted_upsert (sorted_upsert List.Pairwise.nil))
      (sorted_upsert List.Pairwise.nil) fun name => hFresh name (hNone name)

end

/-! A movie is saved with a title and a rating, and then without both. -/

namespace Archive

def movie : DeclaredType :=
  ⟨"Movie", "Movie", none,
    [⟨⟨"uuid", .scalar, "pk"⟩, .value (.option .string)⟩,
      ⟨⟨"title", .scalar, ""⟩, .value (.option .string)⟩,
      ⟨⟨"attrs", .propertyMap, "properties"⟩, .value (.map .any)⟩], false⟩

def strategy : KeyStrategy :=
  .uuid fun n => "k" ++ toString n

def descriptor : TypeDescriptor :=
  ⟨"Movie", "Movie", [⟨"uuid", "uuid", .key false, false, false⟩,
    ⟨"title", "title", .scalar false, false, false⟩,
    ⟨"attrs", "attrs", .propertyMap, false, false⟩], none⟩

def registry : Registry where
  strategy := strategy
  types := [descriptor]
  relationships := []

example : Registry.ofDecls strategy [movie.decl] = .ok registry := by rfl

/-- The movie with some values. -/
def heap (values : Dict Value) : Heap DeclaredObject :=
  ⟨1, fun _ => ⟨"Movie", movie, values, [], ⟨none, none⟩, false⟩⟩

def before : Heap DeclaredObject :=
  heap [("attrs", .map [("rating", .string "R")]), ("title", .string "Heat"), ("uuid", .string "m")]

def later : Heap DeclaredObject :=
  heap [("attrs", .map []), ("title", .null), ("uuid", .string "m")]

def first : PlannedNode :=
  ⟨"m", "Movie", false, some (.string "m"),
    [("attrs.rating", .string "R"), ("title", .string "Heat")], 0⟩

def second : PlannedNode :=
  ⟨"m", "Movie", false, some (.string "m"), [("title", .null)], 0⟩

theorem first_portrays : first.Portrays (declaredModel [movie]) registry before descriptor :=
  ⟨rfl, rfl, rfl⟩

theorem second_portrays : second.Portrays (declaredModel [movie]) registry later descriptor :=
  ⟨rfl, rfl, rfl⟩

end Archive

theorem archive_second_save :
    (Archive.second.upsert Archive.strategy (Archive.first.upsert Archive.strategy []) =
        Archive.second.upsert Archive.strategy [] ↔
      ∀ name, ¬ Stale Archive.strategy Archive.first Archive.second name) ∧
    (∀ name, (Stale Archive.strategy Archive.first Archive.second name →
        (Archive.second.upsert Archive.strategy
          (Archive.first.upsert Archive.strategy [])).find? name =
            Archive.first.params.find? name) ∧
      (¬ Stale Archive.strategy Archive.first Archive.second name →
        (Archive.second.upsert Archive.strategy
          (Archive.first.upsert Archive.strategy [])).find? name =
            (Archive.second.upsert Archive.strategy []).find? name)) ∧
    (∀ name, Stale Archive.strategy Archive.first Archive.second name →
      ∃ f ∈ Archive.descriptor.fields, f.role = .propertyMap ∧
        ∃ entries e, (declaredModel [Archive.movie]).read (Archive.before.stateOf 0) f.field =
            some (.map entries) ∧ e ∈ entries ∧ name = f.front ++ e.1 ∧
          ∀ f' ∈ Archive.descriptor.fields,
            ¬ StoresAs (declaredModel [Archive.movie]) (Archive.later.stateOf 0) f' name) :=
  last_save_wins_iff (declaredModel [Archive.movie]) Archive.registry Archive.before Archive.later
    Archive.descriptor Archive.first Archive.second Archive.first_portrays Archive.second_portrays

/-- The second save takes the title away but not the rating, which a load then finds again. -/
theorem archive_keeps_rating :
    Plan.make (declaredModel [Archive.movie]) Archive.registry Archive.before 0 0 0 =
      (.ok ⟨[("Movie", [Archive.first])], [], []⟩, 0) ∧
    Plan.make (declaredModel [Archive.movie]) Archive.registry Archive.later 0 0 0 =
      (.ok ⟨[("Movie", [Archive.second])], [], []⟩, 0) ∧
    Archive.second.upsert Archive.strategy (Archive.first.upsert Archive.strategy []) ≠
      Archive.second.upsert Archive.strategy [] ∧
    ∃ loaded, populate (declaredModel [Archive.movie]) false Archive.descriptor 1
        (Archive.second.upsert Archive.strategy (Archive.first.upsert Archive.strategy []))
        ((declaredModel [Archive.movie]).fresh "Movie") = .ok loaded ∧
      loaded.read "title" = some .null ∧
      loaded.read "attrs" = some (.map [("rating", .string "R")]) ∧
      (Archive.later.stateOf 0).read "attrs" = some (.map []) := by
  refine ⟨by rfl, by rfl, fun hSame => ?_, _, by rfl, by rfl, by rfl, by rfl⟩
  have hRating : (Archive.second.upsert Archive.strategy
      (Archive.first.upsert Archive.strategy [])).find? "attrs.rating" = some (.string "R") := by
    rfl
  rw [hSame] at hRating
  cases hRating

end GraphMapping
