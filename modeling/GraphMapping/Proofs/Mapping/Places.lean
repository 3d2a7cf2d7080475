import GraphMapping.Proofs.Mapping.Registered
import Mathlib.Data.List.Pairwise

/-!
# Which field takes a relationship

The table that freezing fills has, under each key and for each side, the fields that suit this side in the
order in which they were visited.  As labels tell node types apart, only one type has such fields, so this
order is the one in which the type declares them.  Of these a directed one is preferred to an undirected
one, and an earlier one to a later one.
-/

namespace GraphMapping

/-- The label at a side of a relationship. -/
def EdgeKey.near (key : EdgeKey) : Side → String
  | .start => key.start
  | .finish => key.finish

/-- A field of a node type could take the relationships under a key on one side: its tag names their type and
does not point the other way, and it leads to the type at the other side, or to an object whose endpoints
are the two types. -/
def Registry.Suits (r : Registry) (d : TypeDescriptor) (role : RelationshipRole) (key : EdgeKey)
    (side : Side) : Prop :=
  role.label = key.type ∧ role.direction ≠ side.against ∧ ∃ target far : TypeDescriptor,
    r.descriptor role.target = .ok target ∧ (key.start, key.finish) = side.order d.label far.label ∧
      (target.endpoints = none ∧ far = target ∨
        r.descriptor far.type = .ok far ∧ target.endpoints = some (side.order d.type far.type))

/-- What is chosen for one side of the relationships under a key: a field of the type with the label at this
side.  It suits; every suiting field before it is undirected, and it is not; and if it is undirected itself,
so is every suiting field after it.  Nothing is chosen only if no field suits. -/
def Registry.Picks (r : Registry) (key : EdgeKey) (side : Side) : Option Binding → Prop
  | none => ∀ d ∈ r.types, d.isObject = false → ∀ f role, (f, role) ∈ d.relationships →
      ¬ r.Suits d role key side
  | some b => ∃ d, r.withLabel (key.near side) = some d ∧ ∃ before f role after,
      d.relationships = before ++ (f, role) :: after ∧
      b = ⟨d.type, f.field, role.many, role.direction⟩ ∧ r.Suits d role key side ∧
      (∀ f' role', (f', role') ∈ before → r.Suits d role' key side →
        role'.direction = .both ∧ role.direction ≠ .both) ∧
      (role.direction = .both → ∀ f' role', (f', role') ∈ after → r.Suits d role' key side →
        role'.direction = .both)

variable {bindings : List Binding} {b : Binding} {side : Side}

/-- Where no field points the other way, the preferred one is the first directed one, or else the first. -/
theorem preferred_spec (hDirection : ∀ b ∈ bindings, b.direction ≠ side.against)
    (h : preferred bindings = some b) : ∃ before after, bindings = before ++ b :: after ∧
      (∀ b' ∈ before, b'.direction = .both ∧ b.direction ≠ .both) ∧
      (b.direction = .both → ∀ b' ∈ after, b'.direction = .both) := by
  unfold preferred at h
  rcases Option.or_eq_some_iff.1 h with h | ⟨-, h⟩
  · -- An outgoing field is chosen at the start only, where no field is incoming.
    obtain ⟨hOut, before, after, rfl, hBefore⟩ := List.find?_eq_some_iff_append.1 h
    have hOut : b.direction = .outgoing := by simpa using hOut
    have hSide : side = .start := by
      cases side with
      | start => rfl
      | finish => exact absurd hOut (hDirection b (by simp))
    subst hSide
    refine ⟨before, after, rfl, fun b' hb' => ⟨?_, by simp [hOut]⟩, by simp [hOut]⟩
    have hNotOut : b'.direction ≠ .outgoing := by simpa using hBefore b' hb'
    have hNotIn : b'.direction ≠ .incoming := hDirection b' (by simp [hb'])
    cases hHere : b'.direction <;> simp_all
  · rcases Option.or_eq_some_iff.1 h with h | ⟨hNone, h⟩
    · obtain ⟨hDirected, before, after, rfl, hBefore⟩ := List.find?_eq_some_iff_append.1 h
      have hDirected : b.direction ≠ .both := by simpa using hDirected
      refine ⟨before, after, rfl, fun b' hb' => ⟨?_, hDirected⟩, fun hBoth => absurd hBoth hDirected⟩
      simpa using hBefore b' hb'
    · cases bindings with
      | nil => cases h
      | cons first rest =>
          cases h
          refine ⟨[], rest, rfl, fun b' hb' => absurd hb' List.not_mem_nil, fun _ b' hb' => ?_⟩
          simpa using List.find?_eq_none.1 hNone b' (List.mem_cons_of_mem _ hb')

namespace RegistryBuilder

variable {types : List TypeDescriptor} {table table' : List (EdgeKey × Candidates)}
  {key other : EdgeKey} {place : EdgeKey × Side} {object : Option TypeName} {c : Candidates}
  {owner : TypeDescriptor} {field : FieldDescriptor × RelationshipRole}

/-- Where one member of a list alone adds something, it is the one that is found. -/
theorem flatMap_of_find? {α β : Type} {items : List α} {p : α → Bool} {added : α → List β}
    (hApart : items.Pairwise fun a b => ¬ (p a = true ∧ p b = true))
    (hOnly : ∀ a ∈ items, p a = false → added a = []) :
    items.flatMap added = (items.find? p).elim [] added := by
  induction items with
  | nil => rfl
  | cons a rest ih =>
      obtain ⟨hFirst, hRest⟩ := List.pairwise_cons.1 hApart
      rw [List.flatMap_cons, List.find?_cons]
      cases hHere : p a with
      | true =>
          have hNone : rest.flatMap added = [] := List.flatMap_eq_nil_iff.2 fun b hb =>
            hOnly b (List.mem_cons_of_mem _ hb) (by simpa [hHere] using hFirst b hb)
          rw [hNone, List.append_nil]
          rfl
      | false =>
          rw [hOnly a List.mem_cons_self hHere, List.nil_append]
          exact ih hRest fun b hb => hOnly b (List.mem_cons_of_mem _ hb)

/-- The binding that a field of a type puts at a place, if it does. -/
def placed (types : List TypeDescriptor) (place : EdgeKey × Side) (owner : TypeDescriptor)
    (field : FieldDescriptor × RelationshipRole) : Option Binding :=
  match sidesOf types owner field.1 field.2 with
  | .ok (sides, _) =>
      if place ∈ sides then some ⟨owner.type, field.1.field, field.2.many, field.2.direction⟩ else none
  | .error _ => none

/-- The bindings that the fields of a type put at a place, in the order of the fields. -/
def placedBy (types : List TypeDescriptor) (place : EdgeKey × Side) (owner : TypeDescriptor) :
    List Binding :=
  if owner.isObject then [] else owner.relationships.filterMap (placed types place owner)

theorem placedBy_node (hNode : owner.isObject = false) :
    placedBy types place owner = owner.relationships.filterMap (placed types place owner) :=
  if_neg (by simp [hNode])

/-- The bindings recorded in a table for a place. -/
def recorded (table : List (EdgeKey × Candidates)) (place : EdgeKey × Side) : List Binding :=
  Candidates.on (candidatesAt table place.1) place.2

theorem candidatesAt_putCandidates : candidatesAt (putCandidates table key c) other =
    if other = key then c else candidatesAt table other := by
  unfold candidatesAt
  rw [find?_putCandidates]
  by_cases h : other = key
  · rw [if_pos h, if_pos h]
  · rw [if_neg h, if_neg h]

theorem recorded_bindSide {here : EdgeKey × Side} (h : bindSide b object table here = .ok table') :
    recorded table' place = recorded table place ++ if here = place then [b] else [] := by
  obtain ⟨key, side⟩ := here
  obtain ⟨key', side'⟩ := place
  unfold bindSide at h
  dsimp only at h
  split at h
  · cases h
  · cases h
    unfold recorded
    dsimp only
    rw [candidatesAt_putCandidates]
    by_cases hKey : key' = key
    · subst hKey
      cases side <;> cases side' <;> simp [Candidates.on]
    · simp [hKey, Ne.symm hKey]

theorem sidesOf_nodup {sides : List (EdgeKey × Side)}
    (h : sidesOf types owner field.1 field.2 = .ok (sides, object)) : sides.Nodup := by
  obtain ⟨target, -, ⟨-, -, rfl⟩ | ⟨start, finish, a, z, -, -, -, -, -, -, rfl, -⟩⟩ := sidesOf_cases h
  · cases field.2.direction <;> simp [plainSides]
  · unfold objectSides
    cases field.2.direction <;> split <;> (try split) <;> simp

theorem flatMap_of_nodup {α β : Type} [DecidableEq α] {places : List α} {here : α} {b : β}
    (h : places.Nodup) :
    places.flatMap (fun place => if place = here then [b] else []) =
      if here ∈ places then [b] else [] := by
  induction places with
  | nil => rfl
  | cons first rest ih =>
      obtain ⟨hFirst, hRest⟩ := List.nodup_cons.1 h
      rw [List.flatMap_cons, ih hRest]
      by_cases hHere : first = here
      · subst hHere
        simp [hFirst]
      · simp [hHere, Ne.symm hHere]

theorem recorded_bindField (h : bindField types owner table field = .ok table') :
    recorded table' place = recorded table place ++ (placed types place owner field).toList := by
  unfold bindField at h
  obtain ⟨⟨sides, object⟩, hSides, h⟩ := bind_eq_ok.1 h
  rw [foldlM_appends (L := fun table => recorded table place)
    (fun here _ x y hStep => recorded_bindSide hStep) h, flatMap_of_nodup (sidesOf_nodup hSides)]
  unfold placed
  rw [hSides]
  dsimp only
  split <;> rfl

theorem recorded_bindType (h : bindType types table owner = .ok table') :
    recorded table' place = recorded table place ++ placedBy types place owner := by
  unfold bindType at h
  unfold placedBy
  split at h
  · rename_i hObject
    cases h
    rw [if_pos hObject, List.append_nil]
  · rename_i hNode
    rw [if_neg hNode, List.filterMap_eq_flatMap_toList]
    exact foldlM_appends (L := fun table => recorded table place)
      (fun field _ x y hStep => recorded_bindField hStep) h

/-- The table has under each key what the fields of the types put there. -/
theorem recorded_table (h : types.foldlM (bindType types) [] = .ok table) (place : EdgeKey × Side) :
    recorded table place = types.flatMap (placedBy types place) := by
  rw [foldlM_appends (L := fun table => recorded table place)
    (fun owner _ x y hStep => recorded_bindType hStep) h]
  obtain ⟨key, side⟩ := place
  cases side <;> rfl

end RegistryBuilder

namespace Registry

open RegistryBuilder

variable {r : Registry} {d : TypeDescriptor} {type : TypeName} {f : FieldDescriptor}
  {role : RelationshipRole} {key : EdgeKey}

/-- The places of a field are those that it suits. -/
theorem suits_iff {sides : List (EdgeKey × Side)} {object : Option TypeName}
    (hHere : r.descriptor d.type = .ok d)
    (hSides : sidesOf r.types d f role = .ok (sides, object)) :
    (key, side) ∈ sides ↔ r.Suits d role key side := by
  obtain ⟨target, hTarget, ⟨hEnds, -, rfl⟩ |
    ⟨start, finish, a, z, hEnds, ha, -, hz, -, -, rfl, -⟩⟩ := sidesOf_cases hSides
  · rw [mem_plainSides]
    constructor
    · rintro ⟨hLabels, hType, hDirection⟩
      exact ⟨hType.symm, hDirection, target, target, descriptor_eq_ok.2 hTarget, hLabels,
        .inl ⟨hEnds, rfl⟩⟩
    · rintro ⟨hType, hDirection, target', far, hTarget', hLabels, ⟨-, rfl⟩ | ⟨-, hEnds'⟩⟩
      · cases ok_unique (descriptor_eq_ok.2 hTarget) hTarget'
        exact ⟨hLabels, hType.symm, hDirection⟩
      · cases ok_unique (descriptor_eq_ok.2 hTarget) hTarget'
        cases hEnds.symm.trans hEnds'
  · have hStart := descriptor_eq_ok.2 ha
    have hFinish := descriptor_eq_ok.2 hz
    obtain rfl : a.type = start := (mem_of_findType ha).2
    obtain rfl : z.type = finish := (mem_of_findType hz).2
    rw [mem_objectSides]
    constructor
    · rintro ⟨rfl, hDirection, far, hOrder⟩
      refine ⟨rfl, hDirection, target, ?_⟩
      -- The endpoint on this side is the type itself, found under its name.
      cases side with
      | start =>
          obtain ⟨hNear, rfl⟩ := Prod.mk.inj hOrder
          cases ok_unique hHere (hNear ▸ hStart)
          exact ⟨z, descriptor_eq_ok.2 hTarget, rfl, .inr ⟨hFinish, hEnds⟩⟩
      | finish =>
          obtain ⟨rfl, hNear⟩ := Prod.mk.inj hOrder
          cases ok_unique hHere (hNear ▸ hFinish)
          exact ⟨a, descriptor_eq_ok.2 hTarget, rfl, .inr ⟨hStart, hEnds⟩⟩
    · rintro ⟨hType, hDirection, target', far, hTarget', hLabels, ⟨hEnds', -⟩ | ⟨hFar, hEnds'⟩⟩
      · cases ok_unique (descriptor_eq_ok.2 hTarget) hTarget'
        cases hEnds.symm.trans hEnds'
      · cases ok_unique (descriptor_eq_ok.2 hTarget) hTarget'
        have hOrder : (a.type, z.type) = side.order d.type far.type :=
          Option.some.inj (hEnds.symm.trans hEnds')
        refine ⟨?_, hDirection, far.type, hOrder⟩
        obtain ⟨start, label, finish⟩ := key
        cases side with
        | start =>
            obtain ⟨hNear, hOther⟩ := Prod.mk.inj hOrder
            cases ok_unique hHere (hNear ▸ hStart)
            cases ok_unique hFar (hOther ▸ hFinish)
            cases hLabels
            cases hType
            rfl
        | finish =>
            obtain ⟨hOther, hNear⟩ := Prod.mk.inj hOrder
            cases ok_unique hHere (hNear ▸ hFinish)
            cases ok_unique hFar (hOther ▸ hStart)
            cases hLabels
            cases hType
            rfl

theorem Suits.label (h : r.Suits d role key side) : d.label = key.near side := by
  obtain ⟨-, -, target, far, -, hLabels, -⟩ := h
  cases side
  · exact (Prod.mk.inj hLabels).1.symm
  · exact (Prod.mk.inj hLabels).2.symm

section

variable {builder : RegistryBuilder} (hBuilt : builder.build = .ok r)
  (hTypes : (r.types.map (·.type)).Nodup)

include hBuilt hTypes

/-- A field of a node type puts a binding where it suits, and nowhere else. -/
theorem placed_eq_some_iff {b : Binding} (hd : d ∈ r.types) (hNode : d.isObject = false)
    (hField : (f, role) ∈ d.relationships) :
    placed r.types (key, side) d (f, role) = some b ↔
      r.Suits d role key side ∧ b = ⟨d.type, f.field, role.many, role.direction⟩ := by
  obtain ⟨sides, object, hSides, -⟩ := field_resolves hBuilt hd hNode hField
  have hHere := descriptor_eq_ok.2 (findType_self hTypes hd)
  unfold placed
  dsimp only
  rw [hSides]
  dsimp only
  by_cases hPlace : (key, side) ∈ sides
  · rw [if_pos hPlace, Option.some_inj, ← suits_iff hHere hSides, eq_comm]
    exact (and_iff_right hPlace).symm
  · rw [if_neg hPlace, ← suits_iff hHere hSides]
    exact ⟨fun h => (by cases h), fun h => absurd h.1 hPlace⟩

/-- Only the node type with the label at a side puts bindings there. -/
theorem recorded_eq {table : List (EdgeKey × Candidates)}
    (hTable : r.types.foldlM (bindType r.types) [] = .ok table) :
    recorded table (key, side) =
      (r.withLabel (key.near side)).elim [] (placedBy r.types (key, side)) := by
  rw [recorded_table hTable]
  refine flatMap_of_find? ?_ fun d hd hOther => ?_
  · refine (checkLabels_eq_ok.1 (build_cases hBuilt).1).2.imp fun hApart ⟨h, h'⟩ => ?_
    simp only [Bool.and_eq_true, Bool.not_eq_true', beq_iff_eq] at h h'
    exact hApart h.1 h'.1 (h.2.trans h'.2.symm)
  · cases hNode : d.isObject with
    | true => exact if_pos hNode
    | false =>
      rw [placedBy_node hNode]
      refine List.filterMap_eq_nil_iff.2 fun field hField => ?_
      refine Option.eq_none_iff_forall_ne_some.2 fun b hb => ?_
      have hSuits := ((placed_eq_some_iff hBuilt hTypes hd hNode hField).1 hb).1
      simp [hNode, hSuits.label] at hOther

/-- The binding preferred among those of a type comes from a field that suits, and those that come from the
fields before and after it say what these are. -/
theorem preferred_placedBy {b : Binding} (hd : d ∈ r.types) (hNode : d.isObject = false)
    (h : preferred (placedBy r.types (key, side) d) = some b) :
    ∃ before f role after, d.relationships = before ++ (f, role) :: after ∧
      b = ⟨d.type, f.field, role.many, role.direction⟩ ∧ r.Suits d role key side ∧
      (∀ f' role', (f', role') ∈ before → r.Suits d role' key side →
        role'.direction = .both ∧ role.direction ≠ .both) ∧
      (role.direction = .both → ∀ f' role', (f', role') ∈ after → r.Suits d role' key side →
        role'.direction = .both) := by
  have hPlaced : ∀ f role, (f, role) ∈ d.relationships → ∀ b,
      placed r.types (key, side) d (f, role) = some b ↔
        r.Suits d role key side ∧ b = ⟨d.type, f.field, role.many, role.direction⟩ :=
    fun f role hField b => placed_eq_some_iff hBuilt hTypes hd hNode hField
  rw [placedBy_node hNode] at h
  have hDirection : ∀ b ∈ d.relationships.filterMap (placed r.types (key, side) d),
      b.direction ≠ side.against := by
    intro b hb
    obtain ⟨⟨f, role⟩, hField, hb⟩ := List.mem_filterMap.1 hb
    obtain ⟨⟨-, hDirection, -⟩, rfl⟩ := (hPlaced f role hField b).1 hb
    exact hDirection
  obtain ⟨before, after, hSplit, hBefore, hAfter⟩ := preferred_spec hDirection h
  -- The bindings in front and behind come from the fields in front and behind.
  obtain ⟨front, back, hFields, rfl, hBack⟩ := List.filterMap_eq_append_iff.1 hSplit
  obtain ⟨passed, ⟨f, role⟩, back, rfl, hPassed, hHere, rfl⟩ := List.filterMap_eq_cons_iff.1 hBack
  rw [← List.append_assoc] at hFields
  obtain ⟨hSuits, rfl⟩ := (hPlaced f role (by simp [hFields]) b).1 hHere
  refine ⟨front ++ passed, f, role, back, hFields, rfl, hSuits,
    fun f' role' hField hSuits' => ?_, fun hBoth f' role' hField hSuits' => ?_⟩
  · have hMem : (f', role') ∈ d.relationships := by
      rw [hFields]
      exact List.mem_append_left _ hField
    have hPut := (hPlaced f' role' hMem _).2 ⟨hSuits', rfl⟩
    rcases List.mem_append.1 hField with hFront | hSkipped
    · exact hBefore _ (List.mem_filterMap.2 ⟨_, hFront, hPut⟩)
    · cases hPut.symm.trans (hPassed _ hSkipped)
  · have hPut := (hPlaced f' role' (by simp [hFields, hField]) _).2 ⟨hSuits', rfl⟩
    exact hAfter hBoth _ (List.mem_filterMap.2 ⟨_, hField, hPut⟩)

/-- What is preferred among the bindings at a place is what is to be picked there. -/
theorem picks_preferred {table : List (EdgeKey × Candidates)}
    (hTable : r.types.foldlM (bindType r.types) [] = .ok table) :
    r.Picks key side (preferred (recorded table (key, side))) := by
  rw [recorded_eq hBuilt hTypes hTable]
  cases hLabel : r.withLabel (key.near side) with
  | none =>
      intro d hd hNode f role _ hSuits
      have hFound := withLabel_eq_some hBuilt hd hNode
      rw [hSuits.label, hLabel] at hFound
      cases hFound
  | some d =>
      have hd : d ∈ r.types := List.mem_of_find?_eq_some hLabel
      obtain ⟨hNode, hNear⟩ : d.isObject = false ∧ d.label = key.near side := by
        simpa using List.find?_some hLabel
      simp only [Option.elim_some]
      cases hPicked : preferred (placedBy r.types (key, side) d) with
      | none =>
          intro d' hd' hNode' f role hField hSuits
          cases label_unique hBuilt hd hd' hNode hNode' (hNear.trans hSuits.label.symm)
          have hPut := (placed_eq_some_iff hBuilt hTypes hd hNode hField).2 ⟨hSuits, rfl⟩
          rw [placedBy_node hNode] at hPicked
          have hSome := preferred_isSome (List.mem_filterMap.2 ⟨_, hField, hPut⟩)
          rw [hPicked] at hSome
          cases hSome
      | some b => exact ⟨d, hLabel, preferred_placedBy hBuilt hTypes hd hNode hPicked⟩

/-- Whatever resolves has a field on some side, and on each side the one to be picked. -/
theorem resolve_picks {m : EdgeMatch} (h : r.resolve key = .ok m) :
    (m.start.isSome ∨ m.finish.isSome) ∧ ∀ side, r.Picks key side (m.on side) := by
  obtain ⟨-, table, hTable, hRelationships⟩ := build_cases hBuilt
  obtain ⟨c, hFind, rfl⟩ := (resolve_of_table hRelationships).1 h
  refine ⟨?_, fun side => ?_⟩
  · obtain ⟨side, bound, hBound⟩ := (table_complete hTable).1.bound _ _ hFind
    cases side
    · exact .inl (preferred_isSome hBound)
    · exact .inr (preferred_isSome hBound)
  · have hOn : (EdgeMatch.mk (preferred c.starts) (preferred c.finishes) c.object).on side =
        preferred (recorded table (key, side)) := by
      unfold recorded
      rw [candidatesAt_of_find? hFind]
      cases side <;> rfl
    rw [hOn]
    exact picks_preferred hBuilt hTypes hTable

end

end Registry

end GraphMapping
