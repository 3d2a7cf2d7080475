import GraphMapping.Mapping.Registry
import GraphMapping.Proofs.Results
import Mathlib.Data.List.Pairwise

/-!
# What a frozen registry binds

Freezing fills a table with the places where relationship fields bind.  The table is sound: whatever it
binds was put there by a field of a node type.  It is complete: it has every place of every field.  From
both follows what a registry resolves, and that what it resolves to fits the types on both sides.
-/

namespace GraphMapping

/-- Objects of a type have a relationship field for objects of another type. -/
def Registry.Takes (r : Registry) (owner : TypeName) (field : String) (target : TypeName) : Prop :=
  ∃ d ∈ r.types, d.type = owner ∧
    ∃ f role, (f, role) ∈ d.relationships ∧ f.field = field ∧ role.target = target

/-- What takes a relationship fits the types at its ends. -/
structure Registry.Fits (r : Registry) (m : EdgeMatch) (first last : TypeName) : Prop where
  bound : m.start.isSome ∨ m.finish.isSome
  start : ∀ b, m.start = some b → r.Takes first b.field (m.object.getD last)
  finish : ∀ b, m.finish = some b → r.Takes last b.field (m.object.getD first)
  object : ∀ type, m.object = some type →
    ∃ d, r.descriptor type = .ok d ∧ d.endpoints = some (first, last)

/-- The near and the far end of a relationship, seen from one side, as its start and its end. -/
def Side.order {α : Type} (near far : α) : Side → α × α
  | .start => (near, far)
  | .finish => (far, near)

/-- The direction of fields that lead to the other side of a relationship. -/
def Side.against : Side → Direction
  | .start => .incoming
  | .finish => .outgoing

/-- The field that takes a relationship on one side. -/
def EdgeMatch.on (m : EdgeMatch) : Side → Option Binding
  | .start => m.start
  | .finish => m.finish

/-- Objects of a type have a relationship field for one side of the relationships of a type.  It is for their
own objects if they have some, else for objects of the type on the far side, and does not lead the other
way. -/
def Registry.Binds (r : Registry) (near : TypeName) (field type : String) (side : Side)
    (object : Option TypeName) (far : TypeName) : Prop :=
  ∃ d ∈ r.types, d.type = near ∧ ∃ f role, (f, role) ∈ d.relationships ∧ f.field = field ∧
    role.label = type ∧ role.target = object.getD far ∧
    (object = none → role.direction ≠ side.against)

namespace RegistryBuilder

/-- A relationship field of a node type puts a binding at a place. -/
def Puts (types : List TypeDescriptor) (b : Binding) (place : EdgeKey × Side)
    (object : Option TypeName) : Prop :=
  ∃ owner ∈ types, owner.isObject = false ∧ ∃ f role sides, (f, role) ∈ owner.relationships ∧
    sidesOf types owner f role = .ok (sides, object) ∧ place ∈ sides ∧
    b = ⟨owner.type, f.field, role.many, role.direction⟩

/-- The fields recorded for one side of a relationship. -/
def Candidates.on (c : Candidates) : Side → List Binding
  | .start => c.starts
  | .finish => c.finishes

/-- A binding stands at a place in a table. -/
def Stands (table : List (EdgeKey × Candidates)) (b : Binding) (place : EdgeKey × Side)
    (object : Option TypeName) : Prop :=
  ∃ c, table.find? (·.1 == place.1) = some (place.1, c) ∧ b ∈ Candidates.on c place.2 ∧
    c.object = object

/-- Whatever a table binds was put there by a field, and no key is without a binding. -/
structure Sound (types : List TypeDescriptor) (table : List (EdgeKey × Candidates)) : Prop where
  puts : ∀ key c, table.find? (·.1 == key) = some (key, c) →
    ∀ side, ∀ b ∈ Candidates.on c side, Puts types b (key, side) c.object
  bound : ∀ key c, table.find? (·.1 == key) = some (key, c) → ∃ side b, b ∈ Candidates.on c side

/-- What stands in a table also stands in the other. -/
def Grows (table table' : List (EdgeKey × Candidates)) : Prop :=
  ∀ b place object, Stands table b place object → Stands table' b place object

/-- All places of a field stand in a table. -/
def FieldStands (types : List TypeDescriptor) (owner : TypeDescriptor)
    (table : List (EdgeKey × Candidates)) (field : FieldDescriptor × RelationshipRole) : Prop :=
  ∃ sides object, sidesOf types owner field.1 field.2 = .ok (sides, object) ∧
    ∀ place ∈ sides, Stands table
      ⟨owner.type, field.1.field, field.2.many, field.2.direction⟩ place object

/-- All places of all fields of a type stand in a table, if it is a node type. -/
def TypeStands (types : List TypeDescriptor) (table : List (EdgeKey × Candidates))
    (owner : TypeDescriptor) : Prop :=
  owner.isObject = false → ∀ field ∈ owner.relationships, FieldStands types owner table field

variable {types : List TypeDescriptor} {table table' : List (EdgeKey × Candidates)} {b : Binding}
  {key other : EdgeKey} {place : EdgeKey × Side} {object : Option TypeName} {c : Candidates}
  {owner : TypeDescriptor} {field : FieldDescriptor × RelationshipRole}

theorem find?_putCandidates : (putCandidates table key c).find? (·.1 == other) =
    if other = key then some (key, c) else table.find? (·.1 == other) := by
  induction table with
  | nil =>
      by_cases h : other = key
      · simp [putCandidates, h]
      · simp [putCandidates, h, Ne.symm h]
  | cons entry rest ih =>
      obtain ⟨k, old⟩ := entry
      unfold putCandidates
      by_cases hk : k = key
      · subst hk
        by_cases h : other = k
        · simp [h]
        · simp [h, Ne.symm h]
      · by_cases h : other = key
        · subst h
          simp [hk, ih]
        · simp [hk, h, List.find?_cons, ih]

theorem key_of_find? {entry : EdgeKey × Candidates}
    (h : table.find? (·.1 == key) = some entry) : entry.1 = key := by
  have hKey := List.find?_some h
  simpa using hKey

theorem candidatesAt_of_find? (h : table.find? (·.1 == key) = some (key, c)) :
    candidatesAt table key = c := by
  unfold candidatesAt
  rw [h]

theorem candidatesAt_cases (table : List (EdgeKey × Candidates)) (key : EdgeKey) :
    table.find? (·.1 == key) = some (key, candidatesAt table key) ∨
      candidatesAt table key = ⟨[], [], none⟩ := by
  unfold candidatesAt
  cases hFind : table.find? (·.1 == key) with
  | none => exact .inr rfl
  | some entry =>
      obtain ⟨k, c⟩ := entry
      have hKey : k = key := key_of_find? hFind
      subst hKey
      exact .inl rfl

/-- Binding a field on one side records it there and leaves everything else alone; what the key has
bound before agrees on the object. -/
theorem bindSide_cases (h : bindSide b object table place = .ok table') :
    ∃ c, (∀ other, table'.find? (·.1 == other) =
        if other = place.1 then some (place.1, c) else table.find? (·.1 == other)) ∧
      c.object = object ∧ b ∈ Candidates.on c place.2 ∧
      (∀ side old, old ∈ Candidates.on (candidatesAt table place.1) side →
        old ∈ Candidates.on c side ∧ (candidatesAt table place.1).object = object) ∧
      ∀ side old, old ∈ Candidates.on c side →
        old ∈ Candidates.on (candidatesAt table place.1) side ∨ (old = b ∧ side = place.2) := by
  obtain ⟨key, side⟩ := place
  unfold bindSide at h
  dsimp only at h ⊢
  split at h
  · cases h
  · rename_i hAgree
    cases h
    -- A key that has a binding already must have agreed on the object.
    have hObject : ∀ side old, old ∈ Candidates.on (candidatesAt table key) side →
        (candidatesAt table key).object = object := by
      intro side old hOld
      by_cases hSame : (candidatesAt table key).object = object
      · exact hSame
      · refine absurd ?_ hAgree
        cases side
        · have hSome : (candidatesAt table key).starts ≠ [] := List.ne_nil_of_mem hOld
          simp [hSame, hSome]
        · have hSome : (candidatesAt table key).finishes ≠ [] := List.ne_nil_of_mem hOld
          simp [hSame, hSome]
    cases side with
    | start =>
        refine ⟨_, fun other => find?_putCandidates, rfl, List.mem_append_right _ (by simp),
          fun side old hOld => ⟨?_, hObject side old hOld⟩, fun side old hOld => ?_⟩
        · cases side
          · exact List.mem_append_left _ hOld
          · exact hOld
        · cases side
          · rcases List.mem_append.1 hOld with hOld | hNew
            · exact .inl hOld
            · exact .inr ⟨List.mem_singleton.1 hNew, rfl⟩
          · exact .inl hOld
    | finish =>
        refine ⟨_, fun other => find?_putCandidates, rfl, List.mem_append_right _ (by simp),
          fun side old hOld => ⟨?_, hObject side old hOld⟩, fun side old hOld => ?_⟩
        · cases side
          · exact hOld
          · exact List.mem_append_left _ hOld
        · cases side
          · exact .inl hOld
          · rcases List.mem_append.1 hOld with hOld | hNew
            · exact .inl hOld
            · exact .inr ⟨List.mem_singleton.1 hNew, rfl⟩

/-- One binding that a field puts at a place keeps a table sound, and stands there afterwards. -/
theorem bindSide_step (hPuts : Puts types b place object) (hSound : Sound types table)
    (h : bindSide b object table place = .ok table') :
    Sound types table' ∧ Grows table table' ∧ Stands table' b place object := by
  obtain ⟨c, hFind, hObject, hMem, hOld, hCases⟩ := bindSide_cases h
  have hHere : table'.find? (·.1 == place.1) = some (place.1, c) := by simp [hFind]
  refine ⟨⟨?_, ?_⟩, ?_, c, hHere, hMem, hObject⟩
  · intro key c' hc' side old hIn
    rw [hFind] at hc'
    split at hc'
    · rename_i hKey
      subst hKey
      cases hc'
      rw [hObject]
      rcases hCases side old hIn with hBefore | ⟨rfl, rfl⟩
      · have hSame := (hOld side old hBefore).2
        rcases candidatesAt_cases table place.1 with hEntry | hNone
        · have hPut := hSound.puts _ _ hEntry side old hBefore
          rw [hSame] at hPut
          exact hPut
        · rw [hNone] at hBefore
          cases side <;> cases hBefore
      · exact hPuts
    · exact hSound.puts key c' hc' side old hIn
  · intro key c' hc'
    rw [hFind] at hc'
    split at hc'
    · cases hc'
      exact ⟨place.2, b, hMem⟩
    · exact hSound.bound key c' hc'
  · rintro old ⟨key, side⟩ object' ⟨c', hc', hIn, hObject'⟩
    -- Only the entry of the key itself has changed, and it was extended.
    by_cases hKey : key = place.1
    · subst hKey
      have hAt : candidatesAt table place.1 = c' := candidatesAt_of_find? hc'
      rw [← hAt] at hIn hObject'
      obtain ⟨hStill, hSame⟩ := hOld side old hIn
      exact ⟨c, hHere, hStill, by rw [hObject, ← hSame, hObject']⟩
    · refine ⟨c', ?_, hIn, hObject'⟩
      rw [hFind, if_neg hKey]
      exact hc'

theorem Grows.refl (table : List (EdgeKey × Candidates)) : Grows table table :=
  fun _ _ _ h => h

theorem Grows.trans (x y z : List (EdgeKey × Candidates)) (h : Grows x y) (h' : Grows y z) :
    Grows x z :=
  fun b place object hStands => h' b place object (h b place object hStands)

theorem FieldStands.mono (field : FieldDescriptor × RelationshipRole)
    (x y : List (EdgeKey × Candidates)) (hGrows : Grows x y) (h : FieldStands types owner x field) :
    FieldStands types owner y field := by
  obtain ⟨sides, object, hSides, hAll⟩ := h
  exact ⟨sides, object, hSides, fun place hPlace => hGrows _ _ _ (hAll place hPlace)⟩

theorem bindField_step (hOwner : owner ∈ types) (hNode : owner.isObject = false)
    (hField : field ∈ owner.relationships) (hSound : Sound types table)
    (h : bindField types owner table field = .ok table') :
    Sound types table' ∧ Grows table table' ∧ FieldStands types owner table' field := by
  unfold bindField at h
  obtain ⟨⟨sides, object⟩, hSides, h⟩ := bind_eq_ok.1 h
  obtain ⟨hSound', hGrows, hAll⟩ := foldlM_collects
    (D := fun place table => Stands table
      ⟨owner.type, field.1.field, field.2.many, field.2.direction⟩ place object)
    Grows.refl Grows.trans (fun place x y hGrows hStands => hGrows _ _ _ hStands)
    (fun place hPlace x y hSound hStep => bindSide_step
      ⟨owner, hOwner, hNode, field.1, field.2, sides, hField, hSides, hPlace, rfl⟩ hSound hStep)
    h hSound
  exact ⟨hSound', hGrows, sides, object, hSides, hAll⟩

theorem TypeStands.mono (owner : TypeDescriptor) (x y : List (EdgeKey × Candidates))
    (hGrows : Grows x y) (h : TypeStands types x owner) : TypeStands types y owner :=
  fun hNode field hField => FieldStands.mono field x y hGrows (h hNode field hField)

theorem bindType_step (hOwner : owner ∈ types) (hSound : Sound types table)
    (h : bindType types table owner = .ok table') :
    Sound types table' ∧ Grows table table' ∧ TypeStands types table' owner := by
  unfold bindType at h
  split at h
  · rename_i hObject
    cases h
    exact ⟨hSound, .refl _, fun hNode => absurd hObject (by simp [hNode])⟩
  · rename_i hNode
    have hNode : owner.isObject = false := by simpa using hNode
    obtain ⟨hSound', hGrows, hAll⟩ := foldlM_collects
      (D := fun field table => FieldStands types owner table field)
      Grows.refl Grows.trans FieldStands.mono
      (fun field hField x y hSound hStep => bindField_step hOwner hNode hField hSound hStep)
      h hSound
    exact ⟨hSound', hGrows, fun _ => hAll⟩

theorem sound_nil : Sound types [] :=
  ⟨fun _ _ h => (by cases h), fun _ _ h => (by cases h)⟩

/-- The table of a frozen registry is sound and has all places of all fields. -/
theorem table_complete (h : types.foldlM (bindType types) [] = .ok table) :
    Sound types table ∧ ∀ owner ∈ types, TypeStands types table owner := by
  obtain ⟨hSound, -, hAll⟩ := foldlM_collects (D := fun owner table => TypeStands types table owner)
    Grows.refl Grows.trans TypeStands.mono
    (fun owner hOwner x y hSound hStep => bindType_step hOwner hSound hStep) h sound_nil
  exact ⟨hSound, hAll⟩

/-! ## Labels and places -/

theorem mem_of_findType {type : TypeName} {d : TypeDescriptor} (h : findType types type = some d) :
    d ∈ types ∧ d.type = type :=
  ⟨List.mem_of_find?_eq_some h, by simpa using List.find?_some h⟩

/-- Node types are told apart by their labels. -/
def Apart (d d' : TypeDescriptor) : Prop :=
  d.isObject = false → d'.isObject = false → d.label ≠ d'.label

instance : Std.Symm Apart := ⟨fun _ _ h hNode hNode' => (h hNode' hNode).symm⟩

/-- The labels of node types differ from those seen before, and from each other. -/
theorem checkLabels_eq_ok {seen : List TypeDescriptor} : checkLabels seen types = .ok () ↔
    (∀ d ∈ types, d.isObject = false → ∀ old ∈ seen, old.label ≠ d.label) ∧
      types.Pairwise Apart := by
  -- The labels seen so far are part of the induction: each later one differs from them.
  induction types generalizing seen with
  | nil => simp [checkLabels]
  | cons a rest ih =>
      unfold checkLabels
      rw [List.pairwise_cons, List.forall_mem_cons]
      by_cases hObject : a.isObject = true
      · rw [if_pos hObject, ih]
        simp [Apart, hObject]
      · have hNode : a.isObject = false := by simpa using hObject
        rw [if_neg hObject]
        cases hSeen : seen.find? (·.label == a.label) with
        | some previous =>
            have hSame : previous.label = a.label := by simpa using List.find?_some hSeen
            constructor
            · intro h
              cases h
            · rintro ⟨⟨hNew, -⟩, -⟩
              exact absurd hSame (hNew hNode previous (List.mem_of_find?_eq_some hSeen))
        | none =>
            have hNew : ∀ old ∈ seen, old.label ≠ a.label := by simpa using hSeen
            rw [ih]
            constructor
            · rintro ⟨hLater, hRest⟩
              exact ⟨⟨fun _ => hNew, fun d hd hd' old hOld =>
                  hLater d hd hd' old (List.mem_append_left _ hOld)⟩,
                fun d hd _ hd' => hLater d hd hd' a (List.mem_append_right _ List.mem_cons_self), hRest⟩
            · rintro ⟨⟨-, hLater⟩, hFirst, hRest⟩
              refine ⟨fun d hd hd' old hOld => ?_, hRest⟩
              rcases List.mem_append.1 hOld with hOld | hOld
              · exact hLater d hd hd' old hOld
              · rw [List.mem_singleton.1 hOld]
                exact hFirst d hd hNode hd'

theorem nodeLabel_eq_ok {context label : String} {type : TypeName} :
    nodeLabel types context type = .ok label ↔
      ∃ d, findType types type = some d ∧ d.isObject = false ∧ d.label = label := by
  unfold nodeLabel
  cases findType types type with
  | none => simp
  | some d => cases hObject : d.isObject <;> simp [hObject]

/-- The places of a field to a node, or of a field to a relationship-object. -/
theorem sidesOf_cases {f : FieldDescriptor} {role : RelationshipRole} {sides : List (EdgeKey × Side)}
    (h : sidesOf types owner f role = .ok (sides, object)) :
    ∃ target, findType types role.target = some target ∧
      ((target.endpoints = none ∧ object = none ∧
          sides = plainSides role.direction role.label owner.label target.label) ∨
        ∃ start finish a z, target.endpoints = some (start, finish) ∧
          findType types start = some a ∧ a.isObject = false ∧
          findType types finish = some z ∧ z.isObject = false ∧ object = some role.target ∧
          sides = objectSides owner.type role.direction start finish ⟨a.label, role.label, z.label⟩ ∧
          sides ≠ []) := by
  unfold sidesOf at h
  dsimp only at h
  cases hTarget : findType types role.target with
  | none =>
      rw [hTarget] at h
      cases h
  | some target =>
      rw [hTarget] at h
      dsimp only at h
      refine ⟨target, rfl, ?_⟩
      cases hEnds : target.endpoints with
      | none =>
          rw [hEnds] at h
          cases h
          exact .inl ⟨rfl, rfl, rfl⟩
      | some ends =>
          obtain ⟨start, finish⟩ := ends
          rw [hEnds] at h
          dsimp only at h
          obtain ⟨startLabel, hStart, h⟩ := bind_eq_ok.1 h
          obtain ⟨finishLabel, hFinish, h⟩ := bind_eq_ok.1 h
          obtain ⟨a, ha, haNode, rfl⟩ := nodeLabel_eq_ok.1 hStart
          obtain ⟨z, hz, hzNode, rfl⟩ := nodeLabel_eq_ok.1 hFinish
          split at h
          · cases h
          · rename_i hSome
            cases h
            exact .inr ⟨start, finish, a, z, rfl, ha, haNode, hz, hzNode, rfl, rfl,
              by simpa using hSome⟩

theorem mem_plainSides {direction : Direction} {label here there : String} {side : Side} :
    (key, side) ∈ plainSides direction label here there ↔
      (key.start, key.finish) = side.order here there ∧ key.type = label ∧
        direction ≠ side.against := by
  obtain ⟨start, type, finish⟩ := key
  cases direction <;> cases side <;> simp [plainSides, Side.order, Side.against] <;> tauto

theorem mem_objectSides {direction : Direction} {type start finish : TypeName} {side : Side} :
    (other, side) ∈ objectSides type direction start finish key ↔
      other = key ∧ direction ≠ side.against ∧ ∃ far, (start, finish) = side.order type far := by
  cases direction <;> cases side <;> simp [objectSides, Side.order, Side.against] <;> tauto

end RegistryBuilder

theorem mem_of_preferred {bindings : List Binding} {b : Binding} (h : preferred bindings = some b) :
    b ∈ bindings := by
  unfold preferred at h
  rcases Option.or_eq_some_iff.1 h with h | ⟨-, h⟩
  · exact List.mem_of_find?_eq_some h
  · rcases Option.or_eq_some_iff.1 h with h | ⟨-, h⟩
    · exact List.mem_of_find?_eq_some h
    · exact List.mem_of_head? h

theorem preferred_isSome {bindings : List Binding} {b : Binding} (h : b ∈ bindings) :
    (preferred bindings).isSome := by
  unfold preferred
  cases bindings with
  | nil => cases h
  | cons first rest => simp

namespace Registry

open RegistryBuilder

theorem mem_of_descriptor {r : Registry} {type : TypeName} {d : TypeDescriptor}
    (h : r.descriptor type = .ok d) : d ∈ r.types ∧ d.type = type := by
  unfold descriptor at h
  split at h
  · rename_i found hFound
    cases h
    exact mem_of_findType hFound
  · cases h

theorem mem_of_withLabels {r : Registry} {labels : List String} {d : TypeDescriptor}
    (h : r.withLabels labels = .ok d) : d ∈ r.types ∧ d.isObject = false := by
  unfold withLabels at h
  split at h
  · rename_i found hFound
    cases h
    obtain ⟨label, -, hLabel⟩ := List.exists_of_findSome?_eq_some hFound
    have hHolds : d.isObject = false ∧ d.label = label := by
      simpa using List.find?_some hLabel
    exact ⟨List.mem_of_find?_eq_some hLabel, hHolds.1⟩
  · cases h

section

variable {builder : RegistryBuilder} {r : Registry} (hBuilt : builder.build = .ok r)

include hBuilt

/-- What a registry knows is what its types put into the table. -/
theorem build_cases : checkLabels [] r.types = .ok () ∧ ∃ table,
    r.types.foldlM (bindType r.types) [] = .ok table ∧
    r.relationships = table.map fun (key, c) =>
      (key, ⟨preferred c.starts, preferred c.finishes, c.object⟩) := by
  unfold RegistryBuilder.build at hBuilt
  obtain ⟨u, hLabels, h⟩ := bind_eq_ok.1 hBuilt
  obtain ⟨v, hEndpoints, h⟩ := bind_eq_ok.1 h
  obtain ⟨table, hTable, h⟩ := bind_eq_ok.1 h
  cases h
  exact ⟨hLabels, table, hTable, rfl⟩

theorem label_unique {d d' : TypeDescriptor} (hd : d ∈ r.types) (hd' : d' ∈ r.types)
    (hNode : d.isObject = false) (hNode' : d'.isObject = false) (hLabel : d.label = d'.label) :
    d = d' := by
  by_contra hNe
  have hApart := (checkLabels_eq_ok.1 (build_cases hBuilt).1).2
  exact hApart.forall hd hd' hNe hNode hNode' hLabel

theorem withLabel_eq_some {d : TypeDescriptor} (hd : d ∈ r.types) (hNode : d.isObject = false) :
    r.withLabel d.label = some d := by
  unfold withLabel
  cases hFind : r.types.find? fun d' => !d'.isObject && d'.label == d.label with
  | none =>
      have hNot := List.find?_eq_none.1 hFind d hd
      simp [hNode] at hNot
  | some d' =>
      have hHolds : d'.isObject = false ∧ d'.label = d.label := by
        simpa using List.find?_some hFind
      rw [label_unique hBuilt (List.mem_of_find?_eq_some hFind) hd hHolds.1 hNode hHolds.2]

omit hBuilt in
/-- Resolving a key prefers one of the fields that the table has under it, on each side. -/
theorem resolve_of_table {table : List (EdgeKey × Candidates)} {key : EdgeKey} {m : EdgeMatch}
    (hTable : r.relationships = table.map fun (key, c) =>
      (key, ⟨preferred c.starts, preferred c.finishes, c.object⟩)) :
    r.resolve key = .ok m ↔ ∃ c, table.find? (·.1 == key) = some (key, c) ∧
      m = ⟨preferred c.starts, preferred c.finishes, c.object⟩ := by
  have hFind : r.relationships.find? (·.1 == key) = (table.find? (·.1 == key)).map fun (key, c) =>
      (key, ⟨preferred c.starts, preferred c.finishes, c.object⟩) := by
    rw [hTable, List.find?_map]
    rfl
  unfold resolve
  rw [hFind]
  cases hEntry : table.find? (·.1 == key) with
  | none => simp
  | some entry =>
      obtain ⟨k, c⟩ := entry
      have hKey : k = key := key_of_find? hEntry
      subst hKey
      constructor
      · intro h
        cases h
        exact ⟨c, rfl, rfl⟩
      · rintro ⟨c', hc', rfl⟩
        cases hc'
        rfl

/-- What a registry resolves is what its table has under the key. -/
theorem table_of_build : ∃ table, Sound r.types table ∧
    (∀ owner ∈ r.types, TypeStands r.types table owner) ∧
    ∀ key m, r.resolve key = .ok m ↔ ∃ c, table.find? (·.1 == key) = some (key, c) ∧
      m = ⟨preferred c.starts, preferred c.finishes, c.object⟩ := by
  obtain ⟨-, table, hTable, hRelationships⟩ := build_cases hBuilt
  obtain ⟨hSound, hStands⟩ := table_complete hTable
  exact ⟨table, hSound, hStands, fun key m => resolve_of_table hRelationships⟩

/-- Every relationship field of a node type binds somewhere, and resolves wherever it does. -/
theorem field_resolves {d : TypeDescriptor} {f : FieldDescriptor} {role : RelationshipRole}
    (hd : d ∈ r.types) (hNode : d.isObject = false) (hField : (f, role) ∈ d.relationships) :
    ∃ sides object, sidesOf r.types d f role = .ok (sides, object) ∧
      ∀ place ∈ sides, ∃ m, r.resolve place.1 = .ok m ∧ m.object = object := by
  obtain ⟨table, -, hStands, hResolve⟩ := table_of_build hBuilt
  obtain ⟨sides, object, hSides, hAll⟩ := hStands d hd hNode (f, role) hField
  refine ⟨sides, object, hSides, fun place hPlace => ?_⟩
  obtain ⟨c, hFind, -, hObject⟩ := hAll place hPlace
  exact ⟨_, (hResolve _ _).2 ⟨c, hFind, rfl⟩, hObject⟩

/-- A field that binds between the labels of two node types is a field of one of them for the other, or
for an object between them, under the relationship's type. -/
theorem puts_binds {a z : TypeDescriptor} {type : String} {b : Binding} {side : Side}
    {object : Option TypeName} (ha : a ∈ r.types) (hz : z ∈ r.types) (haNode : a.isObject = false)
    (hzNode : z.isObject = false) (h : Puts r.types b (⟨a.label, type, z.label⟩, side) object) :
    (∃ near far, (a.type, z.type) = side.order near far ∧ r.Binds near b.field type side object far) ∧
      ∀ name, object = some name →
        ∃ d, r.descriptor name = .ok d ∧ d.endpoints = some (a.type, z.type) := by
  obtain ⟨owner, hOwner, hOwnerNode, f, role, sides, hField, hSides, hPlace, rfl⟩ := h
  obtain ⟨target, hTarget, ⟨hEnds, rfl, rfl⟩ |
    ⟨start, finish, x, y, hEnds, hx, hxNode, hy, hyNode, rfl, rfl, -⟩⟩ := sidesOf_cases hSides
  · -- Places name labels; as labels tell node types apart they name the types.
    obtain ⟨hLabels, hLabel, hDirection⟩ := mem_plainSides.1 hPlace
    obtain ⟨hTargetMem, hTargetType⟩ := mem_of_findType hTarget
    have hTargetNode : target.isObject = false := by simp [TypeDescriptor.isObject, hEnds]
    refine ⟨⟨owner.type, target.type, ?_, owner, hOwner, rfl, f, role, hField, rfl, hLabel.symm,
      hTargetType.symm, fun _ => hDirection⟩, fun name hName => by cases hName⟩
    cases side with
    | start =>
        have hBoth : a.label = owner.label ∧ z.label = target.label := by
          simpa [Side.order] using hLabels
        rw [label_unique hBuilt ha hOwner haNode hOwnerNode hBoth.1,
          label_unique hBuilt hz hTargetMem hzNode hTargetNode hBoth.2]
        rfl
    | finish =>
        have hBoth : a.label = target.label ∧ z.label = owner.label := by
          simpa [Side.order] using hLabels
        rw [label_unique hBuilt ha hTargetMem haNode hTargetNode hBoth.1,
          label_unique hBuilt hz hOwner hzNode hOwnerNode hBoth.2]
        rfl
  · obtain ⟨hKey, -, far, hOrder⟩ := mem_objectSides.1 hPlace
    obtain ⟨hxMem, hxType⟩ := mem_of_findType hx
    obtain ⟨hyMem, hyType⟩ := mem_of_findType hy
    have hBoth : a.label = x.label ∧ type = role.label ∧ z.label = y.label := by simpa using hKey
    have hStart : a.type = start := by
      rw [label_unique hBuilt ha hxMem haNode hxNode hBoth.1, hxType]
    have hFinish : z.type = finish := by
      rw [label_unique hBuilt hz hyMem hzNode hyNode hBoth.2.2, hyType]
    rw [hStart, hFinish]
    refine ⟨⟨owner.type, far, hOrder, owner, hOwner, rfl, f, role, hField, rfl, hBoth.2.1.symm, rfl,
      fun hPlain => by cases hPlain⟩, ?_⟩
    intro name hName
    cases hName
    refine ⟨target, ?_, hEnds⟩
    unfold descriptor
    rw [hTarget]

omit hBuilt in
theorem Binds.takes {near far : TypeName} {field type : String} {side : Side}
    {object : Option TypeName} (h : r.Binds near field type side object far) :
    r.Takes near field (object.getD far) := by
  obtain ⟨d, hd, hType, f, role, hField, hName, -, hTarget, -⟩ := h
  exact ⟨d, hd, hType, f, role, hField, hName, hTarget⟩

section

variable {a z : TypeDescriptor} {type : String} {m : EdgeMatch} (ha : a ∈ r.types) (hz : z ∈ r.types)
  (haNode : a.isObject = false) (hzNode : z.isObject = false)
  (h : r.resolve ⟨a.label, type, z.label⟩ = .ok m)

include ha hz haNode hzNode h

/-- A field that takes a relationship between two node types on one side is one of the type there. -/
theorem binds_of_resolve {side : Side} {b : Binding} (hb : m.on side = some b) :
    ∃ near far, (a.type, z.type) = side.order near far ∧
      r.Binds near b.field type side m.object far := by
  obtain ⟨table, hSound, -, hResolve⟩ := table_of_build hBuilt
  obtain ⟨c, hFind, rfl⟩ := (hResolve _ _).1 h
  have hMem : b ∈ Candidates.on c side := by
    cases side
    · exact mem_of_preferred hb
    · exact mem_of_preferred hb
  exact (puts_binds hBuilt ha hz haNode hzNode (hSound.puts _ _ hFind side b hMem)).1

/-- Whatever resolves between the labels of two node types fits them. -/
theorem fits_of_resolve : r.Fits m a.type z.type := by
  have hBinds : ∀ side b, m.on side = some b → ∃ near far, (a.type, z.type) = side.order near far ∧
      r.Binds near b.field type side m.object far :=
    fun side b hb => binds_of_resolve hBuilt ha hz haNode hzNode h hb
  obtain ⟨table, hSound, -, hResolve⟩ := table_of_build hBuilt
  obtain ⟨c, hFind, rfl⟩ := (hResolve _ _).1 h
  obtain ⟨side, bound, hBound⟩ := hSound.bound _ _ hFind
  refine ⟨?_, fun b hb => ?_, fun b hb => ?_, ?_⟩
  · cases side
    · exact .inl (preferred_isSome hBound)
    · exact .inr (preferred_isSome hBound)
  · obtain ⟨near, far, hOrder, hStart⟩ := hBinds .start b hb
    cases hOrder
    exact hStart.takes
  · obtain ⟨near, far, hOrder, hFinish⟩ := hBinds .finish b hb
    cases hOrder
    exact hFinish.takes
  · exact (puts_binds hBuilt ha hz haNode hzNode (hSound.puts _ _ hFind side bound hBound)).2

end

end

end Registry

end GraphMapping
