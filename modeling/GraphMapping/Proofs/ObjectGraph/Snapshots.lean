import GraphMapping.Plan.Snapshot
import GraphMapping.Proofs.Entity
import GraphMapping.Proofs.ObjectGraph.Fields

/-!
# Snapshots of loaded objects

A snapshot is refused only if a field for a property map holds something else.  Filling an object from
stored properties gives every such field a map, so that a loaded object has a snapshot.
-/

namespace GraphMapping

variable {σ : Type}

/-- A field of an object can be stored as a property map: it holds a map, or nothing. -/
def EntityModel.HoldsMap (model : EntityModel σ) (state : σ) (field : String) : Prop :=
  ∀ value, model.read state field = some value → value = .null ∨ ∃ entries, value = .map entries

/-- What planning relies on in objects: a field for a property map that has been given a map can be stored
as one. -/
def EntityModel.KeepsMaps (model : EntityModel σ) (registry : Registry) : Prop :=
  ∀ d ∈ registry.types, ∀ f ∈ d.propertyMaps, ∀ state entries state', model.Attains d.type state →
    model.write state f.field (.map entries) = .ok state' → model.HoldsMap state' f.field

/-- Whatever field type takes a map gives a map back. -/
theorem convert_map {type : FieldType} {entries : List (String × Value)} {value : Value}
    (h : type.convert (.map entries) = .ok value) : ∃ entries', value = .map entries' := by
  induction type with
  | any =>
      cases h
      exact ⟨entries, rfl⟩
  | option item ih =>
      obtain ⟨x, hRead, rfl⟩ := map_eq_ok.1 h
      obtain ⟨y, hItem, rfl⟩ := map_eq_ok.1 hRead
      exact ih (map_eq_ok.2 ⟨y, hItem, rfl⟩)
  | map item =>
      obtain ⟨xs, -, rfl⟩ := map_eq_ok.1 h
      exact ⟨_, rfl⟩
  | string | int | int32 | float | bool | datetime | list => cases h

/-- Objects of declared types comply. -/
theorem declaredModel_keepsMaps (types : List DeclaredType) (registry : Registry) :
    (declaredModel types).KeepsMaps registry := by
  intro d _ f _ o entries o' _ h value hRead
  change DeclaredObject.write o f.field (.map entries) = .ok o' at h
  unfold DeclaredObject.write at h
  split at h
  · rename_i type hType
    obtain ⟨converted, hConvert, rfl⟩ := map_eq_ok.1 h
    obtain ⟨entries', rfl⟩ := convert_map hConvert
    change ((o.type.valueType? f.field).bind fun _ => (o.values.insert f.field _).find? f.field) = _ at hRead
    rw [hType, Option.bind_some, Dict.find?_insert_self] at hRead
    cases hRead
    exact .inr ⟨entries', rfl⟩
  · cases h

variable {model : EntityModel σ} {registry : Registry} {d : TypeDescriptor} {state state' : σ}

/-- An object has a snapshot if its property maps can be stored. -/
theorem snapshot_total (h : ∀ f ∈ d.propertyMaps, model.HoldsMap state f.field) :
    ∃ params, snapshot model d state = .ok params := by
  have hStep : ∀ f ∈ d.fields, ∀ params, True →
      ∃ params', snapshotField model d.type state params f = .ok params' ∧ True := by
    intro f hf params _
    unfold snapshotField
    split
    · exact ⟨_, rfl, trivial⟩
    · rename_i hRole
      have hMap : f ∈ d.propertyMaps :=
        List.mem_filter.2 ⟨hf, by rw [FieldDescriptor.isPropertyMap, hRole]; rfl⟩
      split
      · exact ⟨_, rfl, trivial⟩
      · exact ⟨_, rfl, trivial⟩
      · exact ⟨_, rfl, trivial⟩
      · rename_i value hNotMap hNotNull hRead
        rcases h f hMap value hRead with rfl | ⟨entries, rfl⟩
        · exact absurd rfl hNotNull
        · exact absurd rfl (hNotMap entries)
    · exact ⟨_, rfl, trivial⟩
  obtain ⟨params, hParams, -⟩ := foldlM_total hStep trivial
  exact ⟨params, hParams⟩

/-- Filling the property maps gives a map to each of them, and takes none from another. -/
theorem fillMaps_holdsMap (hSeparates : model.Separates) (hKeeps : model.KeepsMaps registry)
    (hd : d ∈ registry.types) {maps : List FieldDescriptor} (hMaps : maps ⊆ d.propertyMaps)
    {filling : Filling σ} (hAttains : model.Attains d.type filling.state)
    (h : fillMaps model maps filling = .ok state) {field : String}
    (hField : field ∈ maps.map (·.field) ∨ model.HoldsMap filling.state field) :
    model.HoldsMap state field := by
  induction maps generalizing filling with
  | nil =>
      cases h
      exact hField.resolve_left List.not_mem_nil
  | cons f rest ih =>
      unfold fillMaps at h
      obtain ⟨next, hWrite, hRest⟩ := bind_eq_ok.1 h
      refine ih (fun g hg => hMaps (List.mem_cons_of_mem _ hg)) (.write hAttains hWrite) hRest ?_
      by_cases hHere : field = f.field
      · rw [hHere]
        exact .inr (hKeeps d hd f (hMaps List.mem_cons_self) _ _ _ hAttains hWrite)
      · rcases hField with hNamed | hHeld
        · exact .inl ((List.mem_cons.1 hNamed).resolve_left hHere)
        · refine .inr fun value hRead => hHeld value ?_
          rw [← hRead]
          exact (hSeparates.read _ _ _ _ hWrite _ hHere).symm

/-- An object with the values of one that was filled from stored properties has a snapshot. -/
theorem snapshot_of_populate (hSeparates : model.Separates) (hKeeps : model.KeepsMaps registry)
    (hd : d ∈ registry.types) {native : Bool} {id : Int64} {properties : Dict Value}
    (h : populate model native d id properties (model.fresh d.type) = .ok state)
    (hRead : ∀ field, model.read state' field = model.read state field) :
    ∃ params, snapshot model d state' = .ok params := by
  obtain ⟨filling, hAttains, hMaps⟩ := populate_cases EntityModel.Attains.writes .fresh h
  refine snapshot_total fun f hf value hValue => ?_
  rw [hRead] at hValue
  exact fillMaps_holdsMap hSeparates hKeeps hd (List.Subset.refl _) hAttains hMaps
    (.inl (List.mem_map_of_mem hf)) value hValue

end GraphMapping
