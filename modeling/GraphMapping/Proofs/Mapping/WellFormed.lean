import GraphMapping.Proofs.Mapping.FlatFields
import GraphMapping.Proofs.Mapping.Registered
import GraphMapping.Proofs.Mapping.Reordered
import Mathlib.Data.List.DropRight

/-!
# Frozen registries are well formed

What a registry is relied on for is checked in several places: tags are read one by one, fields and types
are described one by one, and how types refer to each other is checked when they are frozen.  A builder
holds what was registered since it was last reset, each type once; so whatever it freezes has passed all of
these checks.
-/

namespace GraphMapping

open FieldDescriptor TypeDescriptor

/-- A call to a builder that leaves it open. -/
inductive BuilderCall where
  | register (decl : TypeDecl)
  | reset

/-- What a builder answers. -/
inductive BuilderReply where
  | registered (d : TypeDescriptor)
  | refused (e : Error)
  | cleared

namespace BuilderReply

/-- The descriptor of a type that was registered. -/
def registered? : BuilderReply → Option TypeDescriptor
  | .registered d => some d
  | _ => none

/-- Whether all types were forgotten. -/
def isCleared : BuilderReply → Bool
  | .cleared => true
  | _ => false

/-- The types that were registered since all were forgotten for the last time. -/
def types (replies : List BuilderReply) : List TypeDescriptor :=
  (replies.rtakeWhile fun reply => !reply.isCleared).filterMap registered?

end BuilderReply

namespace RegistryBuilder

/-- Put a call to a builder. -/
def call (b : RegistryBuilder) : BuilderCall → BuilderReply × RegistryBuilder
  | .register decl =>
      match b.register decl with
      | .ok (d, b') => (.registered d, b')
      | .error e => (.refused e, b)
  | .reset => (.cleared, b.reset)

/-- Put calls to a builder, one after the other. -/
def callAll (b : RegistryBuilder) : List BuilderCall → List BuilderReply × RegistryBuilder
  | [] => ([], b)
  | c :: rest =>
      let (reply, b) := b.call c
      let (replies, b) := b.callAll rest
      (reply :: replies, b)

end RegistryBuilder

/-- A descriptor is well formed in a registry. -/
structure TypeDescriptor.WellFormed (r : Registry) (d : TypeDescriptor) : Prop where
  mapped : ∃ f ∈ d.fields, f.isIgnored = false
  storage : ((d.fields.filter (·.isStored)).map (·.storage)).Nodup
  keys : d.fields.countP (·.isKey) ≤ 1
  keyed : d.isObject = false → d.fields.countP (·.isKey) = 1
  keyStorage : ∀ f ∈ d.fields, f.isKey = true → f.storage = r.strategy.field
  related : ∀ f role, (f, role) ∈ d.relationships → Identifier.isPlain role.label = true ∧
    ∃ target, r.descriptor role.target = .ok target
  alone : d.isObject = true → d.relationships = []
  ends : ∀ start finish, d.endpoints = some (start, finish) → ∀ type ∈ [start, finish],
    ∃ n, r.descriptor type = .ok n ∧ n.isObject = false

/-- The record of a relationship field holds all that the field needs. -/
structure FlatField.Complete (r : Registry) (f : FlatField) : Prop where
  label : ∃ label, f.label = some label ∧ Identifier.isPlain label = true
  target : ∃ target d, f.target = some target ∧ r.descriptor target = .ok d
  direction : ∃ direction, f.direction = some direction

/-- A registry has well-formed types, each name once, and each label for one node type. -/
structure Registry.WellFormed (r : Registry) : Prop where
  names : (r.types.map (·.type)).Nodup
  types : ∀ d ∈ r.types, d.WellFormed r
  labels : ((r.types.filter fun d => !d.isObject).map (·.label)).Nodup

variable {strategy : KeyStrategy} {decl : FieldDecl} {decls : List FieldDecl} {f : FieldDescriptor}
  {fields : List FieldDescriptor} {type : TypeName} {isObject : Bool} {taken : List String}
  {typeDecl : TypeDecl} {d : TypeDescriptor} {role : RelationshipRole} {r : Registry}
  {b b' : RegistryBuilder} {calls : List BuilderCall}

/-! ## One type -/

/-- A relationship field has a plain type name, and this and its direction are what its tag says. -/
theorem fieldOf_relationship (h : fieldOf strategy type decl = .ok f)
    (hRole : f.relationship? = some role) : Identifier.isPlain role.label = true ∧
      ∃ marks, Tag.parse decl.tag = .ok (.mapped marks) ∧
        marks.relationship = some (role.label, role.direction) := by
  have hPlain : ∀ marks temporal, ofScalar strategy decl marks temporal ≠ .ok f := by
    intro marks temporal hScalar
    exact nomatch (ofScalar_spec hScalar).2.2.1.symm.trans hRole
  unfold fieldOf at h
  split at h
  · cases h
  · rename_i tag hParsed
    split at h
    · cases h
    · rename_i field hTag
      cases h
      unfold ofTag at hTag
      split at hTag
      · cases hTag
        cases hRole
      · rename_i marks
        split at hTag
        · rename_i label direction hMarks
          unfold ofRelationship at hTag
          split at hTag
          · cases hTag
          · split at hTag
            · cases hTag
            · split at hTag
              · cases hTag
              · rename_i hLabel
                cases hTag
                cases hRole
                exact ⟨by simpa using hLabel, marks, hParsed, hMarks⟩
        · split at hTag
          · cases hTag
          · cases hTag
          · split at hTag
            · cases hTag
            · split at hTag <;> cases hTag
              cases hRole
          · exact absurd hTag (hPlain _ _)
          · exact absurd hTag (hPlain _ _)

/-- Relationship-objects have no relationship fields. -/
theorem fieldsOf_alone (h : fieldsOf strategy type true taken decls = .ok fields) :
    ∀ f ∈ fields, f.relationship? = none := by
  induction decls generalizing taken fields with
  | nil =>
      cases h
      exact fun _ hf => absurd hf List.not_mem_nil
  | cons decl rest ih =>
      unfold fieldsOf at h
      obtain ⟨f, -, h⟩ := bind_eq_ok.1 h
      dsimp only at h
      split at h
      · cases h
      · split at h
        · cases h
        · rename_i hNone
          obtain ⟨others, hOthers, h⟩ := bind_eq_ok.1 h
          cases h
          intro g hg
          rcases List.mem_cons.1 hg with rfl | hg
          · simpa using hNone
          · exact ih hOthers g hg

/-- A registered type has a mapped field, and one key; an object may have none. -/
theorem ofDecl_counts (h : ofDecl strategy typeDecl = .ok d) :
    (∃ f ∈ d.fields, f.isIgnored = false) ∧ d.fields.countP (·.isKey) ≤ 1 ∧
      (d.isObject = false → d.fields.countP (·.isKey) = 1) := by
  unfold ofDecl at h
  dsimp only at h
  split at h
  · cases h
  · obtain ⟨fields, -, h⟩ := bind_eq_ok.1 h
    split at h
    · cases h
    · rename_i hMapped
      split at h
      · cases h
      · rename_i hMost
        split at h
        · cases h
        · rename_i hLeast
          cases h
          refine ⟨by simpa using hMapped, Nat.le_of_not_lt hMost, fun hNode => ?_⟩
          have hSome : fields.countP (·.isKey) ≠ 0 := by
            intro hZero
            refine hLeast ⟨hZero, ?_⟩
            cases hEnds : typeDecl.endpoints with
            | none => rfl
            | some ends =>
                rw [TypeDescriptor.isObject, hEnds] at hNode
                cases hNode
          have hAtMost : fields.countP (·.isKey) ≤ 1 := Nat.le_of_not_lt hMost
          exact Nat.le_antisymm hAtMost (Nat.pos_of_ne_zero hSome)

theorem ofDecl_alone (h : ofDecl strategy typeDecl = .ok d) (hObject : d.isObject = true) :
    d.relationships = [] := by
  obtain ⟨fields, hFields, rfl⟩ := ofDecl_cases h
  rw [show typeDecl.endpoints.isSome = true from hObject] at hFields
  refine List.filterMap_eq_nil_iff.2 fun f hf => ?_
  rw [fieldsOf_alone hFields f hf]
  rfl

/-- A relationship field is that of a declared one, whose tag gives its type name and its direction. -/
theorem ofDecl_relationship (h : ofDecl strategy typeDecl = .ok d)
    (hField : (f, role) ∈ d.relationships) : Identifier.isPlain role.label = true ∧
      ∃ decl ∈ typeDecl.fields, ∃ marks, Tag.parse decl.tag = .ok (.mapped marks) ∧
        marks.relationship = some (role.label, role.direction) := by
  obtain ⟨fields, hFields, rfl⟩ := ofDecl_cases h
  obtain ⟨g, hg, hRole⟩ := List.mem_filterMap.1 hField
  obtain ⟨role, hHere, ⟨⟩⟩ := Option.map_eq_some_iff.1 hRole
  obtain ⟨decl, hDecl, hFrom⟩ := mem_fieldsOf hFields f hg
  obtain ⟨hPlain, hTag⟩ := fieldOf_relationship hFrom hHere
  exact ⟨hPlain, decl, hDecl, hTag⟩

/-! ## Records -/

/-- The records of relationship kinds are those of relationship fields. -/
theorem relationship_of_flat {g : FlatField} (hg : g ∈ d.flat.fields)
    (hKind : g.kind.isRelationship = true) :
    ∃ f role, (f, role) ∈ d.relationships ∧ f.relationship? = some role ∧ g = f.flat := by
  obtain ⟨f, hf, rfl⟩ := List.mem_map.1 hg
  rw [f.isRelationship_flat] at hKind
  obtain ⟨role, hRole⟩ := Option.isSome_iff_exists.1 hKind
  exact ⟨f, role, List.mem_filterMap.2 ⟨f, hf, by rw [hRole]; rfl⟩, hRole, rfl⟩

/-- In a well-formed type the records of relationship fields lack nothing. -/
theorem TypeDescriptor.WellFormed.complete (h : d.WellFormed r) {g : FlatField}
    (hg : g ∈ d.flat.fields) (hKind : g.kind.isRelationship = true) : g.Complete r := by
  obtain ⟨f, role, hField, hRole, rfl⟩ := relationship_of_flat hg hKind
  obtain ⟨hLabel, target, hTarget⟩ := h.related f role hField
  unfold FieldDescriptor.flat
  rw [hRole]
  exact ⟨⟨role.label, rfl, hLabel⟩, ⟨role.target, target, rfl, hTarget⟩, ⟨role.direction, rfl⟩⟩

/-! ## Builders -/

/-- Where a builder has come to by calls: it has the types that were registered since the last reset, each
described as the strategy says, and no two of one name. -/
structure RegistryBuilder.Reached (strategy : KeyStrategy) (calls : List BuilderCall)
    (replies : List BuilderReply) (b : RegistryBuilder) : Prop where
  under : b.strategy = strategy
  types : b.types = BuilderReply.types replies
  names : (b.types.map (·.type)).Nodup
  declared : ∀ d ∈ b.types, ∃ decl, .register decl ∈ calls ∧ ofDecl strategy decl = .ok d

namespace RegistryBuilder

theorem callAll_concat (b : RegistryBuilder) (calls : List BuilderCall) (c : BuilderCall) :
    b.callAll (calls ++ [c]) = ((b.callAll calls).1 ++ [((b.callAll calls).2.call c).1],
      ((b.callAll calls).2.call c).2) := by
  induction calls generalizing b with
  | nil => rfl
  | cons first rest ih =>
      rw [List.cons_append, callAll, callAll]
      dsimp only
      rw [ih]
      rfl

theorem call_of_ok {decl : TypeDecl} (h : b.register decl = .ok (d, b')) :
    b.call (.register decl) = (.registered d, b') := by
  unfold call
  dsimp only
  rw [h]

theorem call_of_error {decl : TypeDecl} {e : Error} (h : b.register decl = .error e) :
    b.call (.register decl) = (.refused e, b) := by
  unfold call
  dsimp only
  rw [h]

/-- A refused call changes nothing. -/
theorem call_refused {c : BuilderCall} {e : Error} (h : (b.call c).1 = .refused e) :
    (b.call c).2 = b := by
  cases c with
  | reset => cases h
  | register decl =>
      cases hRegister : b.register decl with
      | error e => rw [call_of_error hRegister]
      | ok found =>
          rw [call_of_ok hRegister] at h
          cases h

/-- One call adds a type, or forgets all of them, or changes nothing. -/
theorem Reached.call {replies : List BuilderReply} (h : Reached strategy calls replies b)
    (c : BuilderCall) :
    Reached strategy (calls ++ [c]) (replies ++ [(b.call c).1]) (b.call c).2 := by
  have hMore : ∀ d ∈ b.types, ∃ decl, .register decl ∈ calls ++ [c] ∧ ofDecl strategy decl = .ok d :=
    fun d hd => (h.declared d hd).imp fun _ hDecl => ⟨List.mem_append_left _ hDecl.1, hDecl.2⟩
  cases c with
  | reset =>
      refine ⟨h.under, ?_, List.nodup_nil, fun d hd => absurd hd List.not_mem_nil⟩
      unfold BuilderReply.types
      rw [List.rtakeWhile_concat_neg _ _ _ (by simp [RegistryBuilder.call, BuilderReply.isCleared])]
      rfl
  | register decl =>
      cases hRegister : b.register decl with
      | error e =>
          rw [call_of_error hRegister]
          refine ⟨h.under, ?_, h.names, hMore⟩
          unfold BuilderReply.types
          rw [List.rtakeWhile_concat_pos _ _ _ (by rfl), List.filterMap_append, h.types]
          exact (List.append_nil _).symm
      | ok found =>
          obtain ⟨d, b'⟩ := found
          rw [call_of_ok hRegister]
          obtain ⟨hNew, hDeclared, rfl⟩ := register_eq_ok.1 hRegister
          rw [h.under] at hDeclared
          refine ⟨h.under, ?_, (findType_eq_none (ofDecl_type hDeclared) h.names).1 hNew, ?_⟩
          · unfold BuilderReply.types
            rw [List.rtakeWhile_concat_pos _ _ _ (by rfl), List.filterMap_append, h.types]
            rfl
          · intro d' hd'
            rcases List.mem_append.1 hd' with hd' | hd'
            · exact hMore d' hd'
            · rw [List.mem_singleton.1 hd']
              exact ⟨decl, List.mem_append_right _ List.mem_cons_self, hDeclared⟩

/-- However a builder is called, it has just what was registered since the last reset. -/
theorem reached (strategy : KeyStrategy) (calls : List BuilderCall) :
    Reached strategy calls ((RegistryBuilder.new strategy).callAll calls).1
      ((RegistryBuilder.new strategy).callAll calls).2 := by
  induction calls using List.reverseRecOn with
  | nil => exact ⟨rfl, rfl, List.nodup_nil, fun d hd => absurd hd List.not_mem_nil⟩
  | append_singleton calls c ih =>
      rw [callAll_concat]
      exact ih.call c

/-! ## Freezing -/

/-- The declarations are at fault. -/
def Misdeclared (e : Error) : Prop :=
  e.category = .configuration

variable {types : List TypeDescriptor}

theorem nodeLabel_failsOnly (context : String) (type : TypeName) :
    FailsOnly Misdeclared (nodeLabel types context type) := by
  unfold nodeLabel
  split
  · split
    · exact .error rfl
    · exact .ok _
  · exact .error rfl

theorem checkLabels_failsOnly (seen : List TypeDescriptor) :
    FailsOnly Misdeclared (checkLabels seen types) := by
  induction types generalizing seen with
  | nil => exact .ok ()
  | cons d rest ih =>
      unfold checkLabels
      split
      · exact ih seen
      · split
        · exact .error rfl
        · exact ih _

theorem checkEndpoints_failsOnly (d : TypeDescriptor) :
    FailsOnly Misdeclared (checkEndpoints types d) := by
  unfold checkEndpoints
  split
  · exact .ok ()
  · exact (nodeLabel_failsOnly _ _).bind fun _ _ => (nodeLabel_failsOnly _ _).bind fun _ _ => .ok _

theorem sidesOf_failsOnly (owner : TypeDescriptor) (f : FieldDescriptor) (role : RelationshipRole) :
    FailsOnly Misdeclared (sidesOf types owner f role) := by
  unfold sidesOf
  dsimp only
  split
  · exact .error rfl
  · split
    · refine (nodeLabel_failsOnly _ _).bind fun _ _ => (nodeLabel_failsOnly _ _).bind fun _ _ => ?_
      split
      · exact .error rfl
      · exact .ok _
    · exact .ok _

/-- A record binds, or its declaration is at fault: nothing is found absent in it. -/
theorem sidesOf_flat_failsOnly {owner : TypeDescriptor} {g : FlatField} (hg : g ∈ owner.flat.fields)
    (hKind : g.kind.isRelationship = true) :
    FailsOnly Misdeclared (g.sidesOf (types.map TypeDescriptor.flat) owner.flat) := by
  obtain ⟨f, role, -, hRole, rfl⟩ := relationship_of_flat hg hKind
  rw [FlatField.sidesOf_flat owner hRole]
  exact sidesOf_failsOnly owner f role

theorem bindType_failsOnly (table : List (EdgeKey × Candidates)) (owner : TypeDescriptor) :
    FailsOnly Misdeclared (bindType types table owner) := by
  unfold bindType
  split
  · exact .ok table
  · refine .foldlM fun field _ table => (sidesOf_failsOnly _ _ _).bind fun found _ =>
      .foldlM fun place _ table => ?_
    unfold bindSide
    dsimp only
    split
    · exact .error rfl
    · exact .ok _

/-- Freezing fails only because declarations do not fit together. -/
theorem build_failsOnly : FailsOnly Misdeclared b.build :=
  (checkLabels_failsOnly _).bind fun _ _ =>
    .bind (.forM fun d _ => checkEndpoints_failsOnly d) fun _ _ =>
      .bind (.foldlM fun owner _ table => bindType_failsOnly table owner) fun _ _ => .ok _

/-- Whatever a builder freezes is well formed. -/
theorem Reached.wellFormed {replies : List BuilderReply} (h : Reached strategy calls replies b)
    (hFrozen : b.build = .ok r) : r.WellFormed := by
  obtain ⟨hTypes, hStrategy⟩ := types_of_build hFrozen
  have hCoherent := Coherent.of_build hFrozen
  refine ⟨hTypes ▸ h.names, fun d hd => ?_, ?_⟩
  · rw [hTypes] at hd
    obtain ⟨decl, -, hDeclared⟩ := h.declared d hd
    obtain ⟨hMapped, hMost, hOne⟩ := ofDecl_counts hDeclared
    refine ⟨hMapped, (ofDecl_names hDeclared).2, hMost, hOne, fun f hf hKey => ?_,
      fun f role hField => ⟨(ofDecl_relationship hDeclared hField).1, ?_⟩, ofDecl_alone hDeclared,
      fun start finish hEnds => ?_⟩
    · rw [hStrategy, h.under]
      exact key_storage hDeclared hf hKey
    · have hNode : d.isObject = false := by
        by_contra hObject
        rw [ofDecl_alone hDeclared (by simpa using hObject)] at hField
        cases hField
      obtain ⟨⟨sides, object⟩, hSides⟩ := hCoherent.sides d hd hNode (f, role) hField
      obtain ⟨target, hTarget, -⟩ := sidesOf_cases hSides
      rw [← hTypes] at hTarget
      exact ⟨target, Registry.descriptor_eq_ok.2 hTarget⟩
    · have hChecked := hCoherent.endpoints d hd
      unfold checkEndpoints at hChecked
      rw [hEnds] at hChecked
      obtain ⟨_, hStart, hChecked⟩ := bind_eq_ok.1 hChecked
      obtain ⟨_, hFinish, -⟩ := bind_eq_ok.1 hChecked
      obtain ⟨a, ha, haNode, -⟩ := nodeLabel_eq_ok.1 hStart
      obtain ⟨z, hz, hzNode, -⟩ := nodeLabel_eq_ok.1 hFinish
      rw [← hTypes] at ha hz
      intro type hType
      simp only [List.mem_cons, List.not_mem_nil, or_false] at hType
      rcases hType with rfl | rfl
      · exact ⟨a, Registry.descriptor_eq_ok.2 ha, haNode⟩
      · exact ⟨z, Registry.descriptor_eq_ok.2 hz, hzNode⟩
  · rw [hTypes, List.Nodup, List.pairwise_map, List.pairwise_filter]
    refine hCoherent.labels.imp fun hApart hNode hNode' => ?_
    exact hApart (by simpa using hNode) (by simpa using hNode')

end RegistryBuilder

end GraphMapping
