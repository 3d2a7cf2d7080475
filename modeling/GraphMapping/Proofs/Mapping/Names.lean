import GraphMapping.Mapping.Registration
import GraphMapping.Proofs.Results
import Mathlib.Data.List.Nodup

/-!
# Names of registered fields

Registration keeps the names of the declared fields and refuses a type of which two fields would be stored
under one name.  So a property name leads back to the one field that is stored under it.
-/

namespace GraphMapping

open FieldDescriptor TypeDescriptor

variable {strategy : KeyStrategy} {decl : FieldDecl} {decls : List FieldDecl} {f : FieldDescriptor}
  {fields : List FieldDescriptor} {type : TypeName} {isObject : Bool} {taken : List String}
  {typeDecl : TypeDecl} {d : TypeDescriptor} {pk : FieldDescriptor}

theorem ofScalar_spec {marks : Marks} {temporal : Bool}
    (h : ofScalar strategy decl marks temporal = .ok f) :
    f.field = decl.name ∧ (f.isKey = true → f.storage = strategy.field) ∧ f.relationship? = none ∧
      f.isStored = true := by
  unfold ofScalar at h
  split at h
  · cases h
  · split at h
    · split at h
      · split at h <;> cases h
        exact ⟨rfl, fun _ => rfl, rfl, rfl⟩
      · cases h
        exact ⟨rfl, fun _ => rfl, rfl, rfl⟩
    · cases h
      exact ⟨rfl, fun hKey => (by cases hKey), rfl, rfl⟩

theorem ofRelationship_spec {marks : Marks} {label : String} {direction : Direction}
    (h : ofRelationship decl marks label direction = .ok f) :
    f.field = decl.name ∧ (f.isKey || f.unique || f.indexed) = false ∧
      ∀ role, f.relationship? = some role → targetOf decl.shape = some (role.target, role.many) := by
  unfold ofRelationship at h
  split at h
  · cases h
  · rename_i hTarget
    split at h
    · cases h
    · split at h <;> cases h
      refine ⟨rfl, rfl, fun role hRole => ?_⟩
      cases hRole
      exact hTarget

/-- A registered field keeps the name of the declared one.  A key is stored as the strategy says, a
relationship leads to what the declared shape names, and what is marked is stored. -/
theorem fieldOf_spec (h : fieldOf strategy type decl = .ok f) :
    f.field = decl.name ∧ (f.isKey = true → f.storage = strategy.field) ∧
      (∀ role, f.relationship? = some role → targetOf decl.shape = some (role.target, role.many)) ∧
      ((f.isKey || f.unique || f.indexed) = true → f.isStored = true) := by
  unfold fieldOf at h
  split at h
  · cases h
  · split at h
    · cases h
    · rename_i hTag
      cases h
      unfold ofTag at hTag
      split at hTag
      · cases hTag
        exact ⟨rfl, fun hKey => (by cases hKey), fun _ hRole => (by cases hRole),
          fun hMark => (by cases hMark)⟩
      · split at hTag
        · obtain ⟨hName, hNoMark, hTarget⟩ := ofRelationship_spec hTag
          refine ⟨hName, fun hKey => ?_, hTarget, fun hMark => ?_⟩
          · simp [hKey] at hNoMark
          · rw [hNoMark] at hMark
            cases hMark
        · split at hTag
          · cases hTag
          · cases hTag
          · split at hTag
            · cases hTag
            · split at hTag <;> cases hTag
              exact ⟨rfl, fun hKey => (by cases hKey), fun _ hRole => (by cases hRole),
                fun hMark => (by cases hMark)⟩
          all_goals
            obtain ⟨hName, hKey, hPlain, hStored⟩ := ofScalar_spec hTag
            exact ⟨hName, hKey, fun _ hRole => (nomatch hPlain.symm.trans hRole), fun _ => hStored⟩

theorem mem_fieldsOf (h : fieldsOf strategy type isObject taken decls = .ok fields) :
    ∀ f ∈ fields, ∃ decl ∈ decls, fieldOf strategy type decl = .ok f := by
  induction decls generalizing taken fields with
  | nil =>
      cases h
      exact fun _ hf => absurd hf List.not_mem_nil
  | cons decl rest ih =>
      unfold fieldsOf at h
      obtain ⟨f, hField, h⟩ := bind_eq_ok.1 h
      dsimp only at h
      split at h
      · cases h
      · split at h
        · cases h
        · obtain ⟨others, hOthers, h⟩ := bind_eq_ok.1 h
          cases h
          intro g hg
          rcases List.mem_cons.1 hg with rfl | hg
          · exact ⟨decl, List.mem_cons_self, hField⟩
          · obtain ⟨other, hOther, hFrom⟩ := ih hOthers g hg
            exact ⟨other, List.mem_cons_of_mem _ hOther, hFrom⟩

theorem fieldsOf_names (h : fieldsOf strategy type isObject taken decls = .ok fields) :
    fields.map (·.field) = decls.map (·.name) ∧
      ((fields.filter (·.isStored)).map (·.storage)).Nodup ∧
      ∀ f ∈ fields, f.isStored = true → f.storage ∉ taken := by
  induction decls generalizing taken fields with
  | nil =>
      cases h
      exact ⟨rfl, List.nodup_nil, fun _ hf => absurd hf List.not_mem_nil⟩
  | cons decl rest ih =>
      unfold fieldsOf at h
      obtain ⟨f, hField, h⟩ := bind_eq_ok.1 h
      dsimp only at h
      split at h
      · cases h
      · rename_i hUnused
        split at h
        · cases h
        · obtain ⟨others, hOthers, h⟩ := bind_eq_ok.1 h
          cases h
          obtain ⟨hNames, hNodup, hApart⟩ := ih hOthers
          refine ⟨?_, ?_, ?_⟩
          · rw [List.map_cons, List.map_cons, (fieldOf_spec hField).1, hNames]
          · cases hStored : f.isStored with
            | false => simpa [hStored] using hNodup
            | true =>
                rw [List.filter_cons_of_pos hStored, List.map_cons, List.nodup_cons]
                refine ⟨fun hMem => ?_, hNodup⟩
                obtain ⟨g, hg, hSame⟩ := List.mem_map.1 hMem
                obtain ⟨hMem, hStored'⟩ := List.mem_filter.1 hg
                refine hApart g hMem hStored' ?_
                rw [if_pos hStored, hSame]
                exact List.mem_cons_self
          · intro g hg hStored
            rcases List.mem_cons.1 hg with rfl | hg
            · simpa [hStored] using hUnused
            · have hNot := hApart g hg hStored
              split at hNot
              · exact fun hMem => hNot (List.mem_cons_of_mem _ hMem)
              · exact hNot

/-- A registered type is the declared one, with the descriptors of its fields. -/
theorem ofDecl_cases (h : ofDecl strategy typeDecl = .ok d) :
    ∃ fields, fieldsOf strategy typeDecl.name typeDecl.endpoints.isSome [] typeDecl.fields = .ok fields ∧
      d = ⟨typeDecl.name, typeDecl.label, fields, typeDecl.endpoints⟩ := by
  unfold ofDecl at h
  dsimp only at h
  split at h
  · cases h
  · obtain ⟨fields, hFields, h⟩ := bind_eq_ok.1 h
    refine ⟨fields, hFields, ?_⟩
    split at h
    · cases h
    · split at h
      · cases h
      · split at h
        · cases h
        · cases h
          rfl

/-- The label of a registered type is a plain identifier. -/
theorem ofDecl_label (h : ofDecl strategy typeDecl = .ok d) : Identifier.isPlain d.label = true := by
  obtain ⟨fields, -, rfl⟩ := ofDecl_cases h
  unfold ofDecl at h
  dsimp only at h
  split at h
  · cases h
  · rename_i hPlain
    simpa using hPlain

theorem ofDecl_type (h : ofDecl strategy typeDecl = .ok d) : d.type = typeDecl.name := by
  obtain ⟨fields, -, rfl⟩ := ofDecl_cases h
  rfl

theorem ofDecl_names (h : ofDecl strategy typeDecl = .ok d) :
    d.fields.map (·.field) = typeDecl.fields.map (·.name) ∧
      ((d.fields.filter (·.isStored)).map (·.storage)).Nodup := by
  obtain ⟨fields, hFields, rfl⟩ := ofDecl_cases h
  obtain ⟨hNames, hNodup, -⟩ := fieldsOf_names hFields
  exact ⟨hNames, hNodup⟩

/-- A key is stored under the name that the strategy gives it. -/
theorem key_storage (h : ofDecl strategy typeDecl = .ok d) (hMem : f ∈ d.fields)
    (hKey : f.isKey = true) : f.storage = strategy.field := by
  obtain ⟨fields, hFields, rfl⟩ := ofDecl_cases h
  obtain ⟨decl, -, hFrom⟩ := mem_fieldsOf hFields f hMem
  exact (fieldOf_spec hFrom).2.1 hKey

/-- Keys, unique fields and indexed ones are stored. -/
theorem marked_stored (h : ofDecl strategy typeDecl = .ok d) (hMem : f ∈ d.fields)
    (hMark : (f.isKey || f.unique || f.indexed) = true) : f.isStored = true := by
  obtain ⟨fields, hFields, rfl⟩ := ofDecl_cases h
  obtain ⟨decl, -, hFrom⟩ := mem_fieldsOf hFields f hMem
  exact (fieldOf_spec hFrom).2.2.2 hMark

/-- Where no two fields are stored under one name, a key or scalar field is found under its storage name. -/
theorem fieldStoredAs_of_nodup (hStorage : ((d.fields.filter (·.isStored)).map (·.storage)).Nodup)
    (hMem : f ∈ d.fields) (hKind : (f.isScalar || f.isKey) = true) :
    d.fieldStoredAs f.storage = some f := by
  have hStored : ∀ g : FieldDescriptor, (g.isScalar || g.isKey) = true → g.isStored = true := by
    rintro ⟨storage, field, role, unique, indexed⟩ hRole
    cases role <;> first | rfl | cases hRole
  cases hFound : d.fieldStoredAs f.storage with
  | none =>
      have hNot := List.find?_eq_none.1 hFound f hMem
      simp [hKind] at hNot
  | some g =>
      have hHolds := List.find?_some hFound
      simp only [Bool.and_eq_true, beq_iff_eq] at hHolds
      exact congrArg some (List.inj_on_of_nodup_map hStorage
        (List.mem_filter.2 ⟨List.mem_of_find?_eq_some hFound, hStored g hHolds.1⟩)
        (List.mem_filter.2 ⟨hMem, hStored f hKind⟩) hHolds.2)

/-- A key or scalar field of a registered type is found under its storage name. -/
theorem fieldStoredAs_self (h : ofDecl strategy typeDecl = .ok d) (hMem : f ∈ d.fields)
    (hKind : (f.isScalar || f.isKey) = true) : d.fieldStoredAs f.storage = some f :=
  fieldStoredAs_of_nodup (ofDecl_names h).2 hMem hKind

/-- A relationship field leads to what the shape of its declaration names. -/
theorem relationship_declared {role : RelationshipRole} (h : ofDecl strategy typeDecl = .ok d)
    (hf : (f, role) ∈ d.relationships) : ∃ decl ∈ typeDecl.fields, decl.name = f.field ∧
      targetOf decl.shape = some (role.target, role.many) := by
  obtain ⟨fields, hFields, rfl⟩ := ofDecl_cases h
  obtain ⟨g, hg, hRole⟩ := List.mem_filterMap.1 hf
  obtain ⟨role, hHere, ⟨⟩⟩ := Option.map_eq_some_iff.1 hRole
  obtain ⟨decl, hDecl, hFrom⟩ := mem_fieldsOf hFields f hg
  obtain ⟨hName, -, hTarget, -⟩ := fieldOf_spec hFrom
  exact ⟨decl, hDecl, hName.symm, hTarget role hHere⟩

/-- The property of the key is that of no other field. -/
theorem fieldStoredAs_key (h : ofDecl strategy typeDecl = .ok d) (hKey : d.key? = some pk) :
    d.fieldStoredAs pk.storage = some pk := by
  have hIsKey : pk.isKey = true := List.find?_some hKey
  exact fieldStoredAs_self h (List.mem_of_find?_eq_some hKey) (by rw [hIsKey, Bool.or_true])

/-- Where the declared fields have different names, so have the registered ones. -/
theorem field_unique (h : ofDecl strategy typeDecl = .ok d)
    (hNames : (typeDecl.fields.map (·.name)).Nodup) {f g : FieldDescriptor} (hf : f ∈ d.fields)
    (hg : g ∈ d.fields) (hSame : f.field = g.field) : f = g := by
  rw [← (ofDecl_names h).1] at hNames
  exact List.inj_on_of_nodup_map hNames hf hg hSame

end GraphMapping
