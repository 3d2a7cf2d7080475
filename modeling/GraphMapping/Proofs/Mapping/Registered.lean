import GraphMapping.Proofs.Mapping.Bindings
import GraphMapping.Proofs.Mapping.Names

/-!
# Registries of declared types

Types are registered one after the other, each name once.  So a registry has one descriptor for each name of
a type.  Where in addition every declaration gives each field name once, the name of a field leads to one
role, and a field that takes a relationship is known to have the relationship's type.
-/

namespace GraphMapping

/-- No two types have the same name, and no two fields of a type. -/
structure Registry.Unambiguous (r : Registry) : Prop where
  types : (r.types.map (·.type)).Nodup
  fields : ∀ d ∈ r.types, (d.fields.map (·.field)).Nodup

variable {strategy : KeyStrategy} {decl : TypeDecl} {decls : List TypeDecl} {r : Registry}
  {d d' : TypeDescriptor} {f f' : FieldDescriptor} {role role' : RelationshipRole}

namespace RegistryBuilder

variable {b b' : RegistryBuilder}

/-- Where no two types have one name, each is found under its own. -/
theorem findType_self {types : List TypeDescriptor} (hTypes : (types.map (·.type)).Nodup)
    (hd : d ∈ types) : findType types d.type = some d := by
  cases hFind : findType types d.type with
  | none =>
      have hNot := List.find?_eq_none.1 hFind d hd
      simp at hNot
  | some found =>
      obtain ⟨hMem, hType⟩ := mem_of_findType hFind
      rw [List.inj_on_of_nodup_map hTypes hMem hd hType]

/-- A type is registered if its name is new; its descriptor is put behind the others. -/
theorem register_eq_ok : b.register decl = .ok (d, b') ↔
    findType b.types decl.name = none ∧ TypeDescriptor.ofDecl b.strategy decl = .ok d ∧
      b' = { b with types := b.types ++ [d] } := by
  unfold register
  dsimp only
  cases hFind : findType b.types decl.name with
  | some old =>
      rw [if_pos (by simp)]
      exact ⟨fun h => (by cases h), fun h => (by cases h.1)⟩
  | none =>
      rw [if_neg (by simp)]
      constructor
      · intro h
        obtain ⟨descriptor, hDeclared, h⟩ := bind_eq_ok.1 h
        cases h
        exact ⟨rfl, hDeclared, rfl⟩
      · rintro ⟨-, hDeclared, rfl⟩
        exact bind_eq_ok.2 ⟨d, hDeclared, rfl⟩

/-- A name is new if it is apart from those of the types so far. -/
theorem findType_eq_none {types : List TypeDescriptor} (hType : d.type = decl.name)
    (hTypes : (types.map (·.type)).Nodup) :
    findType types decl.name = none ↔ ((types ++ [d]).map (·.type)).Nodup := by
  unfold findType
  rw [List.find?_eq_none, List.map_append, List.nodup_append, ← hType]
  constructor
  · intro h
    refine ⟨hTypes, List.nodup_singleton _, ?_⟩
    rintro name hName other hOther rfl
    obtain ⟨old, hOld, rfl⟩ := List.mem_map.1 hName
    exact h old hOld (by simpa using hOther)
  · rintro ⟨-, -, hApart⟩ old hOld hSame
    exact hApart _ (List.mem_map_of_mem hOld) d.type (by simp) (by simpa using hSame)

/-- Declarations are registered if each is one of a type, under a name that no other type has. -/
theorem fold_eq_ok (hTypes : (b.types.map (·.type)).Nodup) :
    decls.foldlM (fun (b : RegistryBuilder) decl => return (← b.register decl).2) b = .ok b' ↔
      ∃ types, List.Forall₂ (fun decl d => TypeDescriptor.ofDecl b.strategy decl = .ok d) decls types ∧
        ((b.types ++ types).map (·.type)).Nodup ∧ b' = { b with types := b.types ++ types } := by
  induction decls generalizing b with
  | nil =>
      constructor
      · intro h
        cases h
        exact ⟨[], .nil, by rwa [List.append_nil], by rw [List.append_nil]⟩
      · rintro ⟨types, hEach, -, rfl⟩
        cases hEach
        rw [List.append_nil]
        rfl
  | cons decl rest ih =>
      rw [List.foldlM_cons]
      constructor
      · intro h
        obtain ⟨next, hHere, h⟩ := bind_eq_ok.1 h
        obtain ⟨⟨d, _⟩, hRegister, hHere⟩ := bind_eq_ok.1 hHere
        cases hHere
        obtain ⟨hNew, hDeclared, rfl⟩ := register_eq_ok.1 hRegister
        obtain ⟨types, hEach, hNames, rfl⟩ :=
          (ih ((findType_eq_none (ofDecl_type hDeclared) hTypes).1 hNew)).1 h
        rw [List.append_assoc] at hNames ⊢
        exact ⟨d :: types, .cons hDeclared hEach, hNames, rfl⟩
      · rintro ⟨types, hEach, hNames, rfl⟩
        obtain _ | ⟨hDeclared, hEach⟩ := hEach
        rename_i d types
        rw [List.append_cons] at hNames
        have hFirst : ((b.types ++ [d]).map (·.type)).Nodup := by
          rw [List.map_append] at hNames
          exact (List.nodup_append.1 hNames).1
        refine bind_eq_ok.2 ⟨{ b with types := b.types ++ [d] }, bind_eq_ok.2 ⟨(d, _),
          register_eq_ok.2 ⟨(findType_eq_none (ofDecl_type hDeclared) hTypes).2 hFirst, hDeclared, rfl⟩,
          rfl⟩, ?_⟩
        rw [ih hFirst]
        exact ⟨types, hEach, hNames, by rw [List.append_cons]⟩

theorem types_of_build (h : b.build = .ok r) : r.types = b.types ∧ r.strategy = b.strategy := by
  unfold build at h
  obtain ⟨_, -, h⟩ := bind_eq_ok.1 h
  obtain ⟨_, -, h⟩ := bind_eq_ok.1 h
  obtain ⟨table, -, h⟩ := bind_eq_ok.1 h
  cases h
  exact ⟨rfl, rfl⟩

end RegistryBuilder

namespace Registry

theorem descriptor_eq_ok {type : TypeName} :
    r.descriptor type = .ok d ↔ findType r.types type = some d := by
  unfold descriptor
  cases findType r.types type <;> simp

/-- A registry of declared types is frozen from their descriptors, in the order of the declarations, if no
two have one name. -/
theorem ofDecls_eq_ok : ofDecls strategy decls = .ok r ↔
    ∃ types, List.Forall₂ (fun decl d => TypeDescriptor.ofDecl strategy decl = .ok d) decls types ∧
      (types.map (·.type)).Nodup ∧ RegistryBuilder.build ⟨strategy, types⟩ = .ok r := by
  have hNone : ((RegistryBuilder.new strategy).types.map (·.type)).Nodup := List.nodup_nil
  unfold ofDecls
  constructor
  · intro h
    obtain ⟨builder, hBuilder, hFrozen⟩ := bind_eq_ok.1 h
    obtain ⟨types, hEach, hTypes, rfl⟩ := (RegistryBuilder.fold_eq_ok hNone).1 hBuilder
    exact ⟨types, hEach, hTypes, hFrozen⟩
  · rintro ⟨types, hEach, hTypes, hFrozen⟩
    exact bind_eq_ok.2 ⟨_, (RegistryBuilder.fold_eq_ok hNone).2 ⟨types, hEach, hTypes, rfl⟩, hFrozen⟩

/-- A registry of declared types is frozen from a builder.  It has the types that were declared, in their
order, and no two of one name. -/
theorem ofDecls_cases (h : ofDecls strategy decls = .ok r) :
    (∃ builder : RegistryBuilder, builder.build = .ok r) ∧ (r.types.map (·.type)).Nodup ∧
      List.Forall₂ (fun decl d => TypeDescriptor.ofDecl strategy decl = .ok d) decls r.types := by
  obtain ⟨types, hEach, hTypes, hFrozen⟩ := ofDecls_eq_ok.1 h
  rw [(RegistryBuilder.types_of_build hFrozen).1]
  exact ⟨⟨_, hFrozen⟩, hTypes, hEach⟩

theorem type_names (h : ofDecls strategy decls = .ok r) :
    decls.map (·.name) = r.types.map (·.type) := by
  obtain ⟨-, -, hEach⟩ := ofDecls_cases h
  have hNames : List.Forall₂ (fun decl d => decl.name = d.type) decls r.types :=
    hEach.imp fun _ _ hDeclared => (ofDecl_type hDeclared).symm
  rw [← List.forall₂_eq_eq_eq, List.forall₂_map_left_iff, List.forall₂_map_right_iff]
  exact hNames

/-- In a registry of declared types names lead to one type and one field. -/
theorem ofDecls_unambiguous (hNames : ∀ decl ∈ decls, (decl.fields.map (·.name)).Nodup)
    (h : ofDecls strategy decls = .ok r) : r.Unambiguous := by
  obtain ⟨-, hTypes, hEach⟩ := ofDecls_cases h
  refine ⟨hTypes, fun d hd => ?_⟩
  obtain ⟨decl, hDecl, hDeclared⟩ := (exists_of_forall₂ hEach).2 d hd
  rw [(ofDecl_names hDeclared).1]
  exact hNames decl hDecl

namespace Unambiguous

variable (h : r.Unambiguous)

include h

theorem type_unique (hd : d ∈ r.types) (hd' : d' ∈ r.types) (hSame : d.type = d'.type) : d = d' :=
  List.inj_on_of_nodup_map h.types hd hd' hSame

/-- Every registered type is found under its name. -/
theorem descriptor (hd : d ∈ r.types) : r.descriptor d.type = .ok d :=
  descriptor_eq_ok.2 (RegistryBuilder.findType_self h.types hd)

/-- The name of a relationship field leads to one role. -/
theorem role_unique (hd : d ∈ r.types) (hf : (f, role) ∈ d.relationships)
    (hf' : (f', role') ∈ d.relationships) (hSame : f.field = f'.field) : role = role' := by
  obtain ⟨g, hg, hRole⟩ := List.mem_filterMap.1 hf
  obtain ⟨g', hg', hRole'⟩ := List.mem_filterMap.1 hf'
  obtain ⟨role, hHere, ⟨⟩⟩ := Option.map_eq_some_iff.1 hRole
  obtain ⟨role', hThere, ⟨⟩⟩ := Option.map_eq_some_iff.1 hRole'
  cases List.inj_on_of_nodup_map (h.fields d hd) hg hg' hSame
  exact Option.some.inj (hHere.symm.trans hThere)

/-- A field that takes relationships of a type on one side has this type, and leads to the other side. -/
theorem role_of_binds {type : String} {side : Side} {object : Option TypeName} {far : TypeName}
    (hBinds : r.Binds d.type f.field type side object far) (hd : d ∈ r.types)
    (hf : (f, role) ∈ d.relationships) :
    role.label = type ∧ (object = none → role.direction ≠ side.against) := by
  obtain ⟨d', hd', hType, f', role', hf', hName, hLabel, -, hDirection⟩ := hBinds
  cases h.type_unique hd' hd hType
  cases h.role_unique hd hf' hf hName
  exact ⟨hLabel, hDirection⟩

end Unambiguous

end Registry

end GraphMapping
