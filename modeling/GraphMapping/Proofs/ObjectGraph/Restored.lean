import GraphMapping.Proofs.ObjectGraph.Fields
import GraphMapping.Proofs.ObjectGraph.Stored
import GraphMapping.Proofs.Plan.PropertyNames
import GraphMapping.Proofs.Value.Storage

/-!
# Stored properties give an object back

An object is stored field by field and filled property by property.  Where property names lead back to what
they were written for, each property comes to the field, or to the entry of a property map, that it was
stored of; the fields that stored nothing keep what a new object holds.  So if each field takes back what is
stored of its value, the new object holds all that the old one held.
-/

namespace GraphMapping

open TypeDescriptor FieldDescriptor

variable {σ : Type}

/-- The properties of an object as they are stored: those of its snapshot that are not null, and its key,
unless the database assigns keys. -/
def storedProperties (model : EntityModel σ) (strategy : KeyStrategy) (d : TypeDescriptor) (state : σ)
    (params : Dict Value) : Dict Value :=
  let present := params.filter fun e => !e.2.isNull
  match d.key? with
  | some pk =>
      if strategy.isNative then present
      else Dict.insert present pk.storage ((model.read state pk.field).getD .null).storage
  | none => present

/-- What an object stores for its key, its scalar fields and the entries of its property maps. -/
inductive StoresValue (model : EntityModel σ) (d : TypeDescriptor) (state : σ) :
    PropertySource → Value → Prop
  | field {f : FieldDescriptor} (hField : f ∈ d.fields) (hKind : (f.isScalar || f.isKey) = true) :
      StoresValue model d state ⟨f, none⟩ ((model.read state f.field).getD .null).storage
  | entry {f : FieldDescriptor} {entries : List (String × Value)} {e : String × Value}
      (hField : f ∈ d.fields) (hMap : f.role = .propertyMap)
      (hRead : model.read state f.field = some (.map entries)) (hEntry : e ∈ entries) :
      StoresValue model d state ⟨f, some e.1⟩ e.2.storage

/-- Whatever its state, an object of a type that is given a value for a field shows what it should. -/
def EntityModel.Shows (model : EntityModel σ) (type : TypeName) (field : String) (given : Value)
    (shown : Option Value) : Prop :=
  ∀ state, model.Written type state →
    ∃ state', model.write state field given = .ok state' ∧ model.read state' field = shown

/-- The fields of a type take back what is stored of an object: keys and scalars, property maps as a whole,
and the number of the database as the key; where null is left out, a new object holds just that. -/
structure EntityModel.Restores (model : EntityModel σ) (strategy : KeyStrategy) (d : TypeDescriptor)
    (id : Int64) (state : σ) : Prop where
  field : ∀ f ∈ d.fields, (f.isScalar || f.isKey) = true → ∃ given,
    (if f.isTemporal then
      temporalValue d.label f.storage ((model.read state f.field).getD .null).storage
    else .ok ((model.read state f.field).getD .null).storage) = .ok given ∧
      model.Shows d.type f.field given (model.read state f.field)
  absent : ∀ f ∈ d.fields, f.isScalar = true → ((model.read state f.field).getD .null).isNull = true →
    model.read (model.fresh d.type) f.field = model.read state f.field
  number : strategy.isNative = true → ∀ pk, d.key? = some pk →
    model.Shows d.type pk.field (.int id) (model.read state pk.field)
  map : ∀ f ∈ d.propertyMaps, ∃ entries, model.read state f.field = some (.map entries) ∧
    Dict.Sorted entries ∧ (∀ e ∈ entries, e.1 ≠ "" ∧ e.2.isNull = false) ∧
      model.Shows d.type f.field (.map (Value.storageEntries entries)) (model.read state f.field)

/-- An object that is being filled: a property that was taken up for a field has brought back what the old
object held, the other fields are as before, and the entries of property maps are those of the properties that
were taken up for them. -/
structure Filled (model : EntityModel σ) (d : TypeDescriptor) (state start : σ)
    (done : List (String × Value)) (filling : Filling σ) : Prop where
  written : model.Written d.type filling.state
  back : ∀ e ∈ done, ∀ f ∈ d.fields, d.sourceOf e.1 = some ⟨f, none⟩ →
    model.read filling.state f.field = model.read state f.field
  kept : ∀ f ∈ d.fields, (∀ e ∈ done, d.sourceOf e.1 ≠ some ⟨f, none⟩) →
    model.read filling.state f.field = model.read start f.field
  sorted : ∀ f : FieldDescriptor, Dict.Sorted ((filling.maps.find? f.field).getD [])
  entries : ∀ f ∈ d.fields, ∀ entry value,
    Dict.find? ((filling.maps.find? f.field).getD []) entry = some value ↔
      ∃ e ∈ done, d.sourceOf e.1 = some ⟨f, some entry⟩ ∧ e.2 = value

variable {model : EntityModel σ} {strategy : KeyStrategy} {decl : TypeDecl} {d : TypeDescriptor}
  {id : Int64} {state start : σ} {params : Dict Value} {s : PropertySource} {f g : FieldDescriptor}
  {name item : String} {value given : Value} {done more : List (String × Value)} {filling : Filling σ}

/-! ## What is stored -/

theorem mem_snapshotEntries {front : String} {entries : List (String × Value)} {p : String × Value}
    (h : p ∈ snapshotEntries front entries params) :
    p ∈ params ∨ ∃ e ∈ entries, p = (front ++ e.1, e.2.storage) := by
  induction entries generalizing params with
  | nil => exact .inl h
  | cons e rest ih =>
      unfold snapshotEntries at ih h
      rw [List.foldl_cons] at h
      rcases ih h with hBefore | ⟨e', he', hSame⟩
      · rcases Dict.mem_insert hBefore with hHere | hBefore
        · exact .inr ⟨e, List.mem_cons_self, hHere⟩
        · exact .inl hBefore
      · exact .inr ⟨e', List.mem_cons_of_mem _ he', hSame⟩

/-- The properties of a snapshot are stored for scalar fields and for entries of property maps. -/
theorem mem_snapshot {p : String × Value} (h : snapshot model d state = .ok params) (hp : p ∈ params) :
    ∃ s, StoresValue model d state s p.2 ∧ s.name = p.1 ∧ s.field.isKey = false := by
  have hAll : ∀ (fields : List FieldDescriptor) (before after : Dict Value), fields ⊆ d.fields →
      fields.foldlM (snapshotField model d.type state) before = .ok after → ∀ p ∈ after, p ∈ before ∨
        ∃ s, StoresValue model d state s p.2 ∧ s.name = p.1 ∧ s.field.isKey = false := by
    intro fields
    induction fields with
    | nil =>
        rintro before after - h p hp
        cases h
        exact .inl hp
    | cons f rest ih =>
        intro before after hFields h p hp
        rw [List.foldlM_cons] at h
        obtain ⟨next, hStep, hRest⟩ := bind_eq_ok.1 h
        have hf : f ∈ d.fields := hFields List.mem_cons_self
        rcases ih next after (fun g hg => hFields (List.mem_cons_of_mem _ hg)) hRest p hp with hNext | hSource
        · unfold snapshotField at hStep
          split at hStep
          · rename_i temporal hRole
            cases hStep
            rcases Dict.mem_insert hNext with rfl | hBefore
            · exact .inr ⟨⟨f, none⟩, .field hf (by simp [isScalar, hRole]), rfl, by simp [isKey, hRole]⟩
            · exact .inl hBefore
          · rename_i hRole
            split at hStep
            · rename_i entries hRead
              cases hStep
              rcases mem_snapshotEntries hNext with hBefore | ⟨e, he, rfl⟩
              · exact .inl hBefore
              · exact .inr ⟨⟨f, some e.1⟩, .entry hf hRole hRead he, rfl, by simp [isKey, hRole]⟩
            · cases hStep
              exact .inl hNext
            · cases hStep
              exact .inl hNext
            · cases hStep
          · cases hStep
            exact .inl hNext
        · exact .inr hSource
  exact (hAll d.fields [] params (List.Subset.refl _) h p hp).resolve_left List.not_mem_nil

/-- Keys, scalars and property maps are stored. -/
theorem isStored_iff :
    f.isStored = true ↔ (f.isScalar || f.isKey) = true ∨ f.isPropertyMap = true := by
  obtain ⟨storage, field, role, unique, indexed⟩ := f
  cases role with
  | scalar | key => exact ⟨fun _ => .inl rfl, fun _ => rfl⟩
  | propertyMap => exact ⟨fun _ => .inr rfl, fun _ => rfl⟩
  | relationship | ignored => exact ⟨fun h => (by cases h), fun h => (by rcases h with h | h <;> cases h)⟩

/-- A type has one key only. -/
theorem key?_of_mem (h : ofDecl strategy decl = .ok d) (hField : f ∈ d.fields) (hKey : f.isKey = true) :
    d.key? = some f := by
  obtain ⟨pk, hPk⟩ : ∃ pk, d.key? = some pk :=
    Option.isSome_iff_exists.1 (List.find?_isSome.2 ⟨f, hField, hKey⟩)
  have hHere := fieldStoredAs_self h hField (by rw [hKey, Bool.or_true])
  have hIsKey : pk.isKey = true := List.find?_some hPk
  rw [key_storage h hField hKey, ← key_storage h (List.mem_of_find?_eq_some hPk) hIsKey,
    fieldStoredAs_key h hPk] at hHere
  rw [hPk, Option.some.inj hHere]

/-- A property name leads back to what is stored under this name. -/
theorem name_of_sourceOf (h : d.sourceOf name = some s) : s.name = name := by
  unfold sourceOf at h
  split at h
  · rename_i f hField
    cases h
    have hHolds := List.find?_some hField
    simp only [Bool.and_eq_true, beq_iff_eq] at hHolds
    exact hHolds.2
  · obtain ⟨⟨f, entry⟩, hEntry, rfl⟩ := Option.map_eq_some_iff.1 h
    exact (mapEntryStoredAs_eq_some_iff.1 hEntry).2.1.symm

theorem sorted_storedProperties (hSnapshot : snapshot model d state = .ok params) :
    Dict.Sorted (storedProperties model strategy d state params) := by
  have hPresent : Dict.Sorted (params.filter fun e => !e.2.isNull) := (snapshot_spec hSnapshot).1.filter _
  unfold storedProperties
  split
  · split
    · exact hPresent
    · exact Dict.sorted_insert hPresent _ _
  · exact hPresent

/-- Every stored property is stored for something, and where the database assigns keys not for the key. -/
theorem mem_storedProperties {p : String × Value} (hSnapshot : snapshot model d state = .ok params)
    (hp : p ∈ storedProperties model strategy d state params) : ∃ s, StoresValue model d state s p.2 ∧
      s.name = p.1 ∧ (strategy.isNative = true → s.field.isKey = false) := by
  have hPresent : p ∈ params.filter (fun e => !e.2.isNull) → ∃ s, StoresValue model d state s p.2 ∧
      s.name = p.1 ∧ (strategy.isNative = true → s.field.isKey = false) := by
    intro hMem
    obtain ⟨s, hStored, hName, hKey⟩ := mem_snapshot hSnapshot (List.mem_filter.1 hMem).1
    exact ⟨s, hStored, hName, fun _ => hKey⟩
  unfold storedProperties at hp
  split at hp
  · rename_i pk hPk
    split at hp
    · exact hPresent hp
    · rename_i hNative
      rcases Dict.mem_insert hp with rfl | hp
      · have hKey : pk.isKey = true := List.find?_some hPk
        exact ⟨⟨pk, none⟩, .field (List.mem_of_find?_eq_some hPk) (by rw [hKey, Bool.or_true]), rfl,
          fun hYes => absurd hYes hNative⟩
      · exact hPresent hp
  · exact hPresent hp

/-- What is stored for something is one value. -/
theorem StoresValue.unique {other : Value} (h : StoresValue model d state s value)
    (hMaps : ∀ f ∈ d.propertyMaps, ∀ entries, model.read state f.field = some (.map entries) →
      Dict.Sorted entries)
    (hOther : StoresValue model d state s other) : value = other := by
  cases h with
  | field => cases hOther with
    | field => rfl
  | @entry f entries e hField hMap hRead hEntry =>
      generalize hItem : e.1 = item at hOther
      cases hOther with
      | @entry _ entries' e' _ _ hRead' hEntry' =>
          cases hRead.symm.trans hRead'
          have hSorted := hMaps f (List.mem_filter.2 ⟨hField, by simp [isPropertyMap, hMap]⟩) _ hRead
          have hHere := Dict.find?_of_mem hSorted (show (e.1, e.2) ∈ entries from hEntry)
          rw [hItem, Dict.find?_of_mem hSorted (show (e'.1, e'.2) ∈ entries from hEntry')] at hHere
          rw [Option.some.inj hHere]

/-- Where property names lead back, what is stored for something besides the key stands among the
properties, unless it is null. -/
theorem storedProperties_of_value (hSnapshot : snapshot model d state = .ok params)
    (hMaps : ∀ f ∈ d.propertyMaps, ∀ entries, model.read state f.field = some (.map entries) →
      Dict.Sorted entries)
    (hBack : ∀ s v, StoresValue model d state s v → d.sourceOf s.name = some s)
    (hStored : StoresValue model d state s value) (hKey : s.field.isKey = false)
    (hNull : value.isNull = false) : (s.name, value) ∈ storedProperties model strategy d state params := by
  obtain ⟨hSorted, hLists⟩ := snapshot_spec hSnapshot
  obtain ⟨listed, hListed⟩ : params.Lists s.name := by
    rw [hLists]
    cases hStored with
    | @field f hField hKind =>
        rw [show f.isKey = false from hKey, Bool.or_false] at hKind
        exact ⟨f, hField, .scalar hKind⟩
    | entry hField hMap hRead hEntry => exact ⟨_, hField, .entry hMap hRead hEntry⟩
  have hMem := Dict.mem_of_find? hListed
  obtain ⟨s', hStored', hName, -⟩ := mem_snapshot hSnapshot hMem
  have hSource := hBack s' listed hStored'
  rw [hName, hBack s value hStored] at hSource
  cases hSource
  have hValue : value = listed := hStored.unique hMaps hStored'
  rw [← hValue] at hMem
  have hPresent : (s.name, value) ∈ params.filter fun e => !e.2.isNull :=
    List.mem_filter.2 ⟨hMem, by rw [hNull]; rfl⟩
  unfold storedProperties
  split
  · rename_i pk hPk
    split
    · exact hPresent
    · have hIsKey : pk.isKey = true := List.find?_some hPk
      have hOther : s.name ≠ pk.storage := by
        intro hSame
        have hSource := hBack _ _ (.field (List.mem_of_find?_eq_some hPk) (by rw [hIsKey, Bool.or_true]))
        have hHere := hBack s value hStored
        rw [hSame] at hHere
        cases hHere.symm.trans hSource
        exact absurd hIsKey (by rw [hKey]; exact Bool.false_ne_true)
      refine Dict.mem_of_find? ?_
      rw [Dict.find?_insert_of_ne _ _ hOther]
      exact Dict.find?_of_mem (hSorted.filter _) hPresent
  · exact hPresent

/-! ## Filling -/

theorem mem_done_concat {p e : String × Value} : e ∈ done ++ [p] ↔ e ∈ done ∨ e = p := by
  rw [List.mem_append, List.mem_singleton]

/-- A field that takes the value given for it is written. -/
theorem take_field {state' : σ}
    (hGiven : (if f.isTemporal then temporalValue d.label f.storage value else .ok value) = .ok given)
    (hWrite : model.write filling.state f.field given = .ok state') :
    PropertySource.take ⟨f, none⟩ model d filling value = .ok ⟨state', filling.maps⟩ := by
  unfold PropertySource.take
  cases hTemporal : f.isTemporal with
  | true =>
      rw [hTemporal] at hGiven
      exact bind_eq_ok.2 ⟨given, hGiven, bind_eq_ok.2 ⟨state', hWrite, rfl⟩⟩
  | false =>
      rw [hTemporal] at hGiven
      cases hGiven
      exact bind_eq_ok.2 ⟨value, rfl, bind_eq_ok.2 ⟨state', hWrite, rfl⟩⟩

/-- A property that is taken up for a field brings back what the field held. -/
theorem Filled.field (h : Filled model d state start done filling) (hSeparates : model.Separates)
    (hUnique : ∀ f ∈ d.fields, ∀ g ∈ d.fields, f.field = g.field → f = g)
    (hRestores : model.Restores strategy d id state) (hSource : d.sourceOf name = some ⟨f, none⟩)
    (hStored : StoresValue model d state ⟨f, none⟩ value) : ∃ filling',
      fillProperty model d id filling (name, value) = .ok filling' ∧
      Filled model d state start (done ++ [(name, value)]) filling' := by
  cases hStored with
  | field hField hKind =>
      obtain ⟨given, hGiven, hShows⟩ := hRestores.field f hField hKind
      obtain ⟨state', hWrite, hRead⟩ := hShows _ h.written
      have hName : f.storage = name := name_of_sourceOf hSource
      have hOther : ∀ g ∈ d.fields, g ≠ f →
          model.read state' g.field = model.read filling.state g.field := fun g hg hApart =>
        hSeparates.read _ _ _ _ hWrite _ fun hSame => hApart (hUnique g hg f hField hSame)
      refine ⟨⟨state', filling.maps⟩, ?_, .write h.written hWrite, ?_, ?_, h.sorted, ?_⟩
      · rw [fillProperty_eq, hSource]
        exact take_field hGiven hWrite
      · intro e he g hg hBack
        by_cases hSame : g = f
        · rw [hSame]
          exact hRead
        · rw [hOther g hg hSame]
          rcases mem_done_concat.1 he with he | rfl
          · exact h.back e he g hg hBack
          · cases hSource.symm.trans hBack
            exact absurd rfl hSame
      · intro g hg hNot
        have hApart : g ≠ f := by
          rintro rfl
          exact hNot _ (mem_done_concat.2 (.inr rfl)) hSource
        rw [hOther g hg hApart]
        exact h.kept g hg fun e he => hNot e (mem_done_concat.2 (.inl he))
      · intro g hg entry value'
        refine (h.entries g hg entry value').trans ⟨?_, ?_⟩
        · rintro ⟨e, he, hEntry⟩
          exact ⟨e, mem_done_concat.2 (.inl he), hEntry⟩
        · rintro ⟨e, he, hEntry, hValue⟩
          rcases mem_done_concat.1 he with he | rfl
          · exact ⟨e, he, hEntry, hValue⟩
          · cases hSource.symm.trans hEntry

/-- A property that is taken up for an entry of a property map joins the entries of this map. -/
theorem Filled.entry (h : Filled model d state start done filling)
    (hUnique : ∀ f ∈ d.fields, ∀ g ∈ d.fields, f.field = g.field → f = g) (hField : f ∈ d.fields)
    (hSource : d.sourceOf name = some ⟨f, some item⟩) (hNew : ∀ e ∈ done, e.1 ≠ name) : ∃ filling',
      fillProperty model d id filling (name, value) = .ok filling' ∧
      Filled model d state start (done ++ [(name, value)]) filling' := by
  refine ⟨⟨filling.state, filling.maps.alter f.field fun entries =>
    (entries.getD []).insert item value⟩, ?_, h.written, ?_, ?_, ?_, ?_⟩
  · rw [fillProperty_eq, hSource]
    rfl
  · intro e he g hg hBack
    rcases mem_done_concat.1 he with he | rfl
    · exact h.back e he g hg hBack
    · cases hSource.symm.trans hBack
  · exact fun g hg hNot => h.kept g hg fun e he => hNot e (mem_done_concat.2 (.inl he))
  · intro g
    unfold Dict.alter
    by_cases hSame : g.field = f.field
    · rw [hSame, Dict.find?_insert_self]
      exact Dict.sorted_insert (h.sorted f) item value
    · rw [Dict.find?_insert_of_ne _ _ hSame]
      exact h.sorted g
  · intro g hg item' value'
    unfold Dict.alter
    by_cases hSame : g = f
    · subst hSame
      rw [Dict.find?_insert_self, Option.getD_some]
      by_cases hHere : item' = item
      · subst hHere
        rw [Dict.find?_insert_self]
        constructor
        · intro hValue
          exact ⟨_, mem_done_concat.2 (.inr rfl), hSource, Option.some.inj hValue⟩
        · rintro ⟨e, he, hEntry, rfl⟩
          -- No property before has the name of this entry.
          rcases mem_done_concat.1 he with he | rfl
          · exact absurd ((name_of_sourceOf hEntry).symm.trans (name_of_sourceOf hSource)) (hNew e he)
          · rfl
      · rw [Dict.find?_insert_of_ne _ _ hHere, h.entries g hg item' value']
        constructor
        · rintro ⟨e, he, hEntry⟩
          exact ⟨e, mem_done_concat.2 (.inl he), hEntry⟩
        · rintro ⟨e, he, hEntry, hValue⟩
          rcases mem_done_concat.1 he with he | rfl
          · exact ⟨e, he, hEntry, hValue⟩
          · cases hSource.symm.trans hEntry
            exact absurd rfl hHere
    · have hOther : g.field ≠ f.field := fun hFields => hSame (hUnique g hg f hField hFields)
      rw [Dict.find?_insert_of_ne _ _ hOther, h.entries g hg item' value']
      constructor
      · rintro ⟨e, he, hEntry⟩
        exact ⟨e, mem_done_concat.2 (.inl he), hEntry⟩
      · rintro ⟨e, he, hEntry, hValue⟩
        rcases mem_done_concat.1 he with he | rfl
        · exact ⟨e, he, hEntry, hValue⟩
        · cases hSource.symm.trans hEntry
          exact absurd rfl hSame

/-- Properties that lead back to what they were stored for are all taken up. -/
theorem Filled.run (h : Filled model d state start done filling) (hSeparates : model.Separates)
    (hUnique : ∀ f ∈ d.fields, ∀ g ∈ d.fields, f.field = g.field → f = g)
    (hRestores : model.Restores strategy d id state) (hSorted : Dict.Sorted (done ++ more))
    (hBack : ∀ p ∈ more, ∃ s, StoresValue model d state s p.2 ∧ d.sourceOf p.1 = some s) :
    ∃ filling', more.foldlM (fillProperty model d id) filling = .ok filling' ∧
      Filled model d state start (done ++ more) filling' := by
  induction more generalizing done filling with
  | nil => exact ⟨filling, rfl, by rw [List.append_nil]; exact h⟩
  | cons p rest ih =>
      obtain ⟨name, value⟩ := p
      obtain ⟨⟨f, entry⟩, hStored, hSource⟩ := hBack _ List.mem_cons_self
      have hStep : ∃ filling', fillProperty model d id filling (name, value) = .ok filling' ∧
          Filled model d state start (done ++ [(name, value)]) filling' := by
        cases entry with
        | none => exact h.field hSeparates hUnique hRestores hSource hStored
        | some entry =>
            refine h.entry hUnique (by cases hStored; assumption) hSource fun e he hSame => ?_
            have hLess := (List.pairwise_append.1 hSorted).2.2 e he _ List.mem_cons_self
            rw [hSame] at hLess
            exact String.lt_irrefl _ hLess
      obtain ⟨next, hFill, hNext⟩ := hStep
      have hAll : done ++ (name, value) :: rest = done ++ [(name, value)] ++ rest := by
        rw [List.append_assoc, List.singleton_append]
      rw [hAll] at hSorted
      obtain ⟨filling', hFills, hFilled⟩ := ih hNext hSorted fun p hp => hBack p (List.mem_cons_of_mem _ hp)
      refine ⟨filling', ?_, hAll ▸ hFilled⟩
      rw [List.foldlM_cons]
      exact bind_eq_ok.2 ⟨next, hFill, hFills⟩

/-- Property maps take the entries that were met, each map its own. -/
theorem fillMaps_shows (hSeparates : model.Separates) {maps : List FieldDescriptor}
    (hNames : (maps.map (·.field)).Nodup) (hWritten : model.Written d.type filling.state)
    (hShows : ∀ f ∈ maps, model.Shows d.type f.field (.map ((filling.maps.find? f.field).getD []))
      (model.read state f.field)) :
    ∃ state', fillMaps model maps filling = .ok state' ∧
      (∀ f ∈ maps, model.read state' f.field = model.read state f.field) ∧
      ∀ field, field ∉ maps.map (·.field) → model.read state' field = model.read filling.state field := by
  induction maps generalizing filling with
  | nil => exact ⟨filling.state, rfl, fun _ hf => absurd hf List.not_mem_nil, fun _ _ => rfl⟩
  | cons f rest ih =>
      obtain ⟨hNot, hRest⟩ := List.nodup_cons.1 hNames
      obtain ⟨next, hWrite, hRead⟩ := hShows f List.mem_cons_self _ hWritten
      have hOther : ∀ g ∈ rest, g.field ≠ f.field := fun g hg hSame =>
        hNot (List.mem_map.2 ⟨g, hg, hSame⟩)
      have hLater : ∀ g ∈ rest, model.Shows d.type g.field
          (.map (((filling.maps.erase f.field).find? g.field).getD [])) (model.read state g.field) := by
        intro g hg
        rw [Dict.find?_erase_of_ne _ (hOther g hg)]
        exact hShows g (List.mem_cons_of_mem _ hg)
      obtain ⟨state', hFill, hMaps, hKept⟩ :=
        @ih ⟨next, filling.maps.erase f.field⟩ hRest (.write hWritten hWrite) hLater
      refine ⟨state', bind_eq_ok.2 ⟨next, hWrite, hFill⟩, fun g hg => ?_, fun field hField => ?_⟩
      · rcases List.mem_cons.1 hg with rfl | hg
        · rw [hKept g.field hNot, hRead]
        · exact hMaps g hg
      · obtain ⟨hHere, hThere⟩ := not_or.1 fun hMem => hField (List.mem_cons.2 hMem)
        rw [hKept field hThere]
        exact hSeparates.read _ _ _ _ hWrite _ hHere

theorem sorted_storageEntries {entries : List (String × Value)} (h : Dict.Sorted entries) :
    Dict.Sorted (Value.storageEntries entries) := by
  rw [Value.storageEntries_eq_map]
  exact List.pairwise_map.2 h

/-- The entries that were met of a property map are those that were stored of it. -/
theorem Filled.entries_eq {entries : List (String × Value)} (h : Filled model d state start done filling)
    (hf : f ∈ d.propertyMaps) (hRead : model.read state f.field = some (.map entries))
    (hSorted : Dict.Sorted entries)
    (hFrom : ∀ p ∈ done, ∃ s, StoresValue model d state s p.2 ∧ d.sourceOf p.1 = some s)
    (hAll : ∀ e ∈ entries, d.sourceOf (f.front ++ e.1) = some ⟨f, some e.1⟩ ∧
      (f.front ++ e.1, e.2.storage) ∈ done) :
    (filling.maps.find? f.field).getD [] = Value.storageEntries entries := by
  have hStorage := sorted_storageEntries hSorted
  refine Dict.eq_of_find?_eq (h.sorted f) hStorage fun name => Option.ext fun value => ?_
  rw [h.entries f (List.mem_filter.1 hf).1 name value]
  constructor
  · rintro ⟨p, hp, hSource, rfl⟩
    obtain ⟨s, hStored, hSource'⟩ := hFrom p hp
    cases hSource.symm.trans hSource'
    generalize p.2 = value at hStored
    cases hStored with
    | @entry _ entries' e _ _ hRead' hEntry =>
        cases hRead.symm.trans hRead'
        refine Dict.find?_of_mem hStorage ?_
        rw [Value.storageEntries_eq_map]
        exact List.mem_map.2 ⟨e, hEntry, rfl⟩
  · intro hFound
    have hMem := Dict.mem_of_find? hFound
    rw [Value.storageEntries_eq_map] at hMem
    obtain ⟨e, he, hSame⟩ := List.mem_map.1 hMem
    cases hSame
    exact ⟨_, (hAll e he).2, (hAll e he).1, rfl⟩

/-- Before its properties are taken up, a new object has at most its key. -/
theorem start_shows (hRestores : model.Restores strategy d id state) (hSeparates : model.Separates)
    (hUnique : ∀ f ∈ d.fields, ∀ g ∈ d.fields, f.field = g.field → f = g) :
    ∃ start, (∀ properties, populate model strategy.isNative d id properties (model.fresh d.type) =
        (properties.foldlM (fillProperty model d id) ⟨start, []⟩ >>= fillMaps model d.propertyMaps)) ∧
      model.Written d.type start ∧
      (strategy.isNative = true → ∀ pk, d.key? = some pk →
        model.read start pk.field = model.read state pk.field) ∧
      ∀ f ∈ d.fields, f.isKey = false → model.read start f.field = model.read (model.fresh d.type) f.field := by
  unfold populate
  cases hPk : d.key? with
  | none => exact ⟨_, fun _ => rfl, .fresh, fun _ _ h => (by cases h), fun _ _ _ => rfl⟩
  | some pk =>
      have hIsKey : pk.isKey = true := List.find?_some hPk
      cases hNative : strategy.isNative with
      | false => exact ⟨_, fun _ => rfl, .fresh, fun h => (by cases h), fun _ _ _ => rfl⟩
      | true =>
          obtain ⟨start, hWrite, hRead⟩ := hRestores.number hNative pk hPk _ .fresh
          refine ⟨start, fun properties => ?_, .write .fresh hWrite, ?_, fun f hf hKey => ?_⟩
          · dsimp only
            rw [hWrite]
            rfl
          · rintro - _ ⟨⟩
            exact hRead
          · refine hSeparates.read _ _ _ _ hWrite _ fun hSame => ?_
            rw [hUnique f hf pk (List.mem_of_find?_eq_some hPk) hSame, hIsKey] at hKey
            cases hKey

/-- An object that is filled from what was stored of another one holds in its key, its scalar fields and its
property maps what that one holds. -/
theorem populate_restores (h : ofDecl strategy decl = .ok d)
    (hNames : (decl.fields.map (·.name)).Nodup) (hApart : d.Apart) (hSeparates : model.Separates)
    (hSnapshot : snapshot model d state = .ok params) (hRestores : model.Restores strategy d id state) :
    ∃ state', populate model strategy.isNative d id (storedProperties model strategy d state params)
        (model.fresh d.type) = .ok state' ∧
      ∀ f ∈ d.fields, f.isStored = true → model.read state' f.field = model.read state f.field := by
  have hUnique : ∀ f ∈ d.fields, ∀ g ∈ d.fields, f.field = g.field → f = g :=
    fun f hf g hg hSame => field_unique h hNames hf hg hSame
  have hMaps : ∀ f ∈ d.propertyMaps, ∀ entries, model.read state f.field = some (.map entries) →
      Dict.Sorted entries ∧ ∀ e ∈ entries, e.1 ≠ "" ∧ e.2.isNull = false := by
    intro f hf entries hRead
    obtain ⟨entries', hRead', hSorted, hNamed, -⟩ := hRestores.map f hf
    cases hRead.symm.trans hRead'
    exact ⟨hSorted, hNamed⟩
  have hBack : ∀ s v, StoresValue model d state s v → d.sourceOf s.name = some s := by
    intro s v hStored
    cases hStored with
    | field hField hKind => exact sourceOf_field h hField hKind
    | @entry f entries e hField hMap hRead hEntry =>
        have hOf : f ∈ d.propertyMaps := List.mem_filter.2 ⟨hField, by simp [isPropertyMap, hMap]⟩
        exact sourceOf_entry_iff.2 (hApart.owns hOf ((hMaps f hOf entries hRead).2 e hEntry).1)
  have hPresent : ∀ s v, StoresValue model d state s v → s.field.isKey = false → v.isNull = false →
      (s.name, v) ∈ storedProperties model strategy d state params := fun s v hStored hKey hNull =>
    storedProperties_of_value hSnapshot (fun f hf entries hRead => (hMaps f hf entries hRead).1) hBack
      hStored hKey hNull
  have hFrom : ∀ p ∈ storedProperties model strategy d state params,
      ∃ s, StoresValue model d state s p.2 ∧ d.sourceOf p.1 = some s := by
    intro p hp
    obtain ⟨s, hStored, hName, -⟩ := mem_storedProperties hSnapshot hp
    exact ⟨s, hStored, hName ▸ hBack s _ hStored⟩
  obtain ⟨start, hStart, hWritten, hNumber, hFresh⟩ := start_shows hRestores hSeparates hUnique
  have hBegin : Filled model d state start [] ⟨start, []⟩ := by
    refine ⟨hWritten, fun _ he => absurd he List.not_mem_nil, fun _ _ _ => rfl, fun _ => List.Pairwise.nil,
      fun _ _ _ _ => ⟨fun hFound => (by cases hFound), fun hMet => ?_⟩⟩
    obtain ⟨_, he, -⟩ := hMet
    exact absurd he List.not_mem_nil
  obtain ⟨filling, hFills, hFilled⟩ := hBegin.run hSeparates hUnique hRestores
    (sorted_storedProperties hSnapshot) hFrom
  rw [List.nil_append] at hFilled
  have hMapNames : (d.propertyMaps.map (·.field)).Nodup := by
    rw [← (ofDecl_names h).1] at hNames
    exact hNames.sublist (List.filter_sublist.map _)
  have hMapsShow : ∀ f ∈ d.propertyMaps, model.Shows d.type f.field
      (.map ((filling.maps.find? f.field).getD [])) (model.read state f.field) := by
    intro f hf
    obtain ⟨entries, hRead, hSorted, hNamed, hShows⟩ := hRestores.map f hf
    obtain ⟨hField, hRole⟩ := List.mem_filter.1 hf
    have hMet : ∀ e ∈ entries, d.sourceOf (f.front ++ e.1) = some ⟨f, some e.1⟩ ∧ (f.front ++ e.1,
        e.2.storage) ∈ storedProperties model strategy d state params := by
      intro e he
      have hStored : StoresValue model d state ⟨f, some e.1⟩ e.2.storage :=
        .entry hField (eq_of_beq hRole) hRead he
      refine ⟨hBack _ _ hStored, hPresent _ _ hStored (by simp [isKey, eq_of_beq hRole]) ?_⟩
      rw [Value.isNull_storage]
      exact (hNamed e he).2
    rw [hFilled.entries_eq hf hRead hSorted hFrom hMet]
    exact hShows
  obtain ⟨state', hMapsFilled, hMap, hKept⟩ :=
    fillMaps_shows hSeparates hMapNames hFilled.written hMapsShow
  refine ⟨state', (hStart _).trans (bind_eq_ok.2 ⟨filling, hFills, hMapsFilled⟩), fun f hf hStored => ?_⟩
  by_cases hIsMap : f.isPropertyMap = true
  · exact hMap f (List.mem_filter.2 ⟨hf, hIsMap⟩)
  -- No property map has the field's name.
  have hNotMap : f.field ∉ d.propertyMaps.map (·.field) := by
    intro hMem
    obtain ⟨g, hg, hSame⟩ := List.mem_map.1 hMem
    obtain ⟨hField, hRole⟩ := List.mem_filter.1 hg
    exact hIsMap (hUnique g hField f hf hSame ▸ hRole)
  rw [hKept f.field hNotMap]
  have hKind := (isStored_iff.1 hStored).resolve_right hIsMap
  have hSource : d.sourceOf f.storage = some ⟨f, none⟩ := sourceOf_field h hf hKind
  by_cases hLoaded : ∃ p ∈ storedProperties model strategy d state params,
      d.sourceOf p.1 = some ⟨f, none⟩
  · obtain ⟨p, hp, hBackTo⟩ := hLoaded
    exact hFilled.back p hp f hf hBackTo
  · -- Nothing was stored for the field, so it held null, or it is a key that the database assigned.
    rw [hFilled.kept f hf fun p hp hBackTo => hLoaded ⟨p, hp, hBackTo⟩]
    cases hKey : f.isKey with
    | false =>
        rw [hKey, Bool.or_false] at hKind
        rw [hFresh f hf hKey]
        refine hRestores.absent f hf hKind ?_
        by_contra hNull
        refine hLoaded ⟨_, hPresent _ _ (.field hf (by rw [hKind, Bool.true_or])) hKey ?_, hSource⟩
        rw [Value.isNull_storage]
        exact eq_false_of_ne_true hNull
    | true =>
        have hPk := key?_of_mem h hf hKey
        refine hNumber ?_ f hPk
        by_contra hNative
        have hStoredKey : (f.storage, ((model.read state f.field).getD .null).storage) ∈
            storedProperties model strategy d state params := by
          unfold storedProperties
          rw [hPk]
          dsimp only
          rw [if_neg hNative]
          exact Dict.mem_of_find? (Dict.find?_insert_self _ _ _)
        exact hLoaded ⟨_, hStoredKey, hSource⟩

end GraphMapping
