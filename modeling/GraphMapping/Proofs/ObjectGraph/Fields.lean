import GraphMapping.Proofs.Dict.Lookup
import GraphMapping.Proofs.Mapping.Registered
import GraphMapping.Proofs.ObjectGraph.Linking
import Mathlib.Data.List.Induction

/-!
# What linking puts into fields

Linking a relationship records an entry in the field that is bound on each side: the object at the other
end, or the relationship's own object.  No other field of a node changes, and the ends of the
relationship's object are set once.  So after all links a field holds the entries of the relationships
bound to it, in their order; a field for one object keeps the last of them.
-/

namespace GraphMapping

/-- A state that an object of a type comes to when it is changed. -/
inductive EntityModel.Attains {σ : Type} (model : EntityModel σ) (type : TypeName) : σ → Prop
  | fresh : Attains model type (model.fresh type)
  | write {state state' : σ} {field : String} {value : Value} (hState : Attains model type state)
      (hWrite : model.write state field value = .ok state') : Attains model type state'
  | relate {state state' : σ} {field : String} {name : TypeName} {target : Ref}
      (hState : Attains model type state)
      (hRelate : model.relate state field name target = .ok state') : Attains model type state'
  | join {state state' : σ} {side : Side} {name : TypeName} {target : Ref}
      (hState : Attains model type state) (hJoin : model.join state side name target = .ok state') :
      Attains model type state'

/-- The ends of an object with one of them set. -/
def Ends.set (ends : Ends) (r : Ref) : Side → Ends
  | .start => { ends with start := some r }
  | .finish => { ends with finish := some r }

/-- What linking relies on in objects.  The relationship fields of a new object are empty; relating an object
to another one changes no other field, and adds to a field for many objects and replaces what a field for
one object refers to.  Objects that let their ends be set show them. -/
structure EntityModel.Relates {σ : Type} (model : EntityModel σ) (registry : Registry) : Prop where
  fresh : ∀ d ∈ registry.types, ∀ f role, (f, role) ∈ d.relationships →
    model.related (model.fresh d.type) f.field = []
  relate : ∀ d ∈ registry.types, ∀ f role, (f, role) ∈ d.relationships →
    ∀ state type target state', model.Attains d.type state →
      model.relate state f.field type target = .ok state' →
        model.related state' f.field =
            (if role.many then model.related state f.field else []) ++ [target] ∧
          ∀ other, other ≠ f.field → model.related state' other = model.related state other
  canJoin : ∀ d ∈ registry.types, ∀ state, model.Attains d.type state → model.canJoin state = true →
    (model.ends state).isSome
  join : ∀ d ∈ registry.types, ∀ state side type target state', model.Attains d.type state →
    model.join state side type target = .ok state' →
      model.ends state' = (model.ends state).map (·.set target side)

/-- What a field holds after more objects have been recorded in it. -/
def held (many : Bool) (before entries : List Ref) : List Ref :=
  entries.foldl (fun refs r => (if many then refs else []) ++ [r]) before

/-- What a relationship puts into a field of a node: for each side on which it is bound to this field the
object at the other end, or its own object. -/
def EdgeLink.entries (l : EdgeLink) (nodes : List (Int64 × Ref)) (n : Int64) (field : String) :
    List Ref :=
  (if l.edge.start = n ∧ l.taken.start.any (·.field == field) = true then
    (l.object.or (nodes.lookup l.edge.finish)).toList else []) ++
  if l.edge.finish = n ∧ l.taken.finish.any (·.field == field) = true then
    (l.object.or (nodes.lookup l.edge.start)).toList else []

/-- A relationship that can be linked: its ends and its object are there, in states of their types. -/
structure Ready {σ : Type} (model : EntityModel σ) (registry : Registry) (labels : List (Int64 × String))
    (nodes : List (Int64 × Ref)) (heap : Heap σ) (l : EdgeLink) (first last : TypeDescriptor)
    (x y : Ref) : Prop where
  joins : Joins registry labels nodes heap l first last x y
  start : heap.Holds model.Attains x first.type
  finish : heap.Holds model.Attains y last.type
  object : ∀ o, l.object = some o → o ∉ nodes.map (·.2) ∧
    ∃ d ∈ registry.types, heap.Holds model.Attains o d.type

/-! ## Objects of declared types -/

/-- Objects of declared types keep their type. -/
theorem type_of_attains {types : List DeclaredType} {type : TypeName} {o : DeclaredObject}
    (h : (declaredModel types).Attains type o) : o.type = .ofName types type := by
  induction h with
  | fresh => rfl
  | write hState hWrite ih =>
      change DeclaredObject.write _ _ _ = .ok _ at hWrite
      unfold DeclaredObject.write at hWrite
      split at hWrite
      · obtain ⟨v, -, rfl⟩ := map_eq_ok.1 hWrite
        exact ih
      · cases hWrite
  | relate hState hRelate ih =>
      change DeclaredObject.relate _ _ _ _ = .ok _ at hRelate
      unfold DeclaredObject.relate at hRelate
      split at hRelate
      · cases hRelate
      · split at hRelate
        · split at hRelate
          · cases hRelate
          · split at hRelate <;> cases hRelate <;> exact ih
        · cases hRelate
  | @join _ _ side _ _ hState hJoin ih =>
      change DeclaredObject.join _ _ _ _ = .ok _ at hJoin
      unfold DeclaredObject.join at hJoin
      split at hJoin
      · cases hJoin
      · cases side <;> dsimp only at hJoin <;> split at hJoin <;> cases hJoin <;> exact ih

theorem shownEnds_setEnd (o : DeclaredObject) (side : Side) (r : Ref) :
    (o.setEnd side (some r)).shownEnds = o.shownEnds.map (·.set r side) := by
  unfold DeclaredObject.shownEnds
  cases side with
  | start =>
      change (if o.hidden then none else o.type.offeredEndpoints.map fun _ => o.ends.set r .start) = _
      split
      · rfl
      · rw [Option.map_map]
        rfl
  | finish =>
      change (if o.hidden then none else o.type.offeredEndpoints.map fun _ => o.ends.set r .finish) = _
      split
      · rfl
      · rw [Option.map_map]
        rfl

theorem DeclaredObject.related_relate {o o' : DeclaredObject} {field : String} {type target : TypeName}
    {many : Bool} {r : Ref} (hTargets : o.type.targets? field = some (target, many))
    (h : o.relate field type r = .ok o') :
    o'.related field = (if many then o.related field else []) ++ [r] ∧
      ∀ other, other ≠ field → o'.related other = o.related other := by
  unfold DeclaredObject.relate at h
  rw [hTargets] at h
  unfold DeclaredObject.related
  split at h
  · cases h
  · rename_i hBare
    dsimp only at h
    split at h
    · cases h
    · cases many with
      | true =>
          cases h
          simp only [hBare, Bool.false_eq_true, if_false, if_true, Dict.push, Dict.alter]
          exact ⟨by rw [Dict.find?_insert_self]; rfl,
            fun other hOther => by rw [Dict.find?_insert_of_ne _ _ hOther]⟩
      | false =>
          cases h
          simp only [hBare, Bool.false_eq_true, if_false]
          exact ⟨by rw [Dict.find?_insert_self]; rfl,
            fun other hOther => by rw [Dict.find?_insert_of_ne _ _ hOther]⟩

/-- Objects of declared types comply where the registry has their fields as they are declared. -/
theorem declaredModel_relates {types : List DeclaredType} {registry : Registry}
    (hFields : ∀ d ∈ registry.types, ∀ f role, (f, role) ∈ d.relationships →
      (DeclaredType.ofName types d.type).targets? f.field = some (role.target, role.many)) :
    (declaredModel types).Relates registry where
  fresh := by
    intro d _ f role _
    change DeclaredObject.related _ _ = []
    unfold DeclaredObject.related
    split <;> rfl
  relate := by
    intro d hd f role hField o type target o' hAttains h
    have hTargets := hFields d hd f role hField
    rw [← type_of_attains hAttains] at hTargets
    exact DeclaredObject.related_relate hTargets h
  canJoin := fun _ _ _ _ h => h
  join := by
    intro d _ o side type target o' _ h
    change DeclaredObject.join o side type target = .ok o' at h
    unfold DeclaredObject.join at h
    split at h
    · cases h
    · dsimp only at h
      split at h <;> split at h <;> cases h <;> exact shownEnds_setEnd o _ target

/-- A field of a declared type accepts the targets that registration reads from its shape, or none if it is
no relationship field. -/
def DeclaredField.Faithful (f : DeclaredField) : Prop :=
  f.content.targets? = FieldDescriptor.targetOf f.decl.shape

instance (f : DeclaredField) : Decidable f.Faithful :=
  inferInstanceAs (Decidable (f.content.targets? = FieldDescriptor.targetOf f.decl.shape))

theorem DeclaredType.ofName_self {types : List DeclaredType} (hNames : (types.map (·.name)).Nodup)
    {t : DeclaredType} (ht : t ∈ types) : DeclaredType.ofName types t.name = t := by
  unfold ofName
  cases hFind : types.find? (·.name == t.name) with
  | none =>
      have hNot := List.find?_eq_none.1 hFind t ht
      simp at hNot
  | some found =>
      have hSame : found.name = t.name := by simpa using List.find?_some hFind
      exact List.inj_on_of_nodup_map hNames (List.mem_of_find?_eq_some hFind) ht hSame

theorem DeclaredType.targets?_self {t : DeclaredType} (hNames : (t.fields.map (·.decl.name)).Nodup)
    {f : DeclaredField} (hf : f ∈ t.fields) {targets : TypeName × Bool}
    (hTargets : f.content.targets? = some targets) : t.targets? f.decl.name = some targets := by
  unfold DeclaredType.targets?
  have hMem : f ∈ t.fields.filter (·.decl.name == f.decl.name) := List.mem_filter.2 ⟨hf, by simp⟩
  cases hFound : t.fields.filter (·.decl.name == f.decl.name) with
  | nil =>
      rw [hFound] at hMem
      cases hMem
  | cons g rest =>
      have hg : g ∈ t.fields.filter (·.decl.name == f.decl.name) := hFound ▸ List.mem_cons_self
      obtain ⟨hg, hSame⟩ := List.mem_filter.1 hg
      cases List.inj_on_of_nodup_map hNames hg hf (by simpa using hSame)
      rw [List.findSome?_cons, hTargets]

/-- Objects of declared types comply with the registry of these types. -/
theorem declaredModel_relates_of_decls {types : List DeclaredType} {strategy : KeyStrategy}
    {registry : Registry} (h : Registry.ofDecls strategy (types.map (·.decl)) = .ok registry)
    (hNames : ∀ t ∈ types, (t.fields.map (·.decl.name)).Nodup)
    (hFaithful : ∀ t ∈ types, ∀ f ∈ t.fields, f.Faithful) :
    (declaredModel types).Relates registry := by
  obtain ⟨-, hTypes, hEach⟩ := Registry.ofDecls_cases h
  have hTypeNames : (types.map (·.name)).Nodup := by
    rw [← Registry.type_names h, List.map_map] at hTypes
    exact hTypes
  refine declaredModel_relates fun d hd f role hField => ?_
  obtain ⟨_, hDecl, hDeclared⟩ := (exists_of_forall₂ hEach).2 d hd
  obtain ⟨t, ht, rfl⟩ := List.mem_map.1 hDecl
  have hName : d.type = t.name := ofDecl_type hDeclared
  obtain ⟨_, hFieldDecl, hSame, hTarget⟩ := relationship_declared hDeclared hField
  obtain ⟨g, hg, rfl⟩ := List.mem_map.1 hFieldDecl
  rw [hName, DeclaredType.ofName_self hTypeNames ht, ← hSame]
  exact DeclaredType.targets?_self (hNames t ht) hg ((hFaithful t ht g hg).trans hTarget)

/-! ## One relationship -/

theorem held_append (many : Bool) (before xs ys : List Ref) :
    held many before (xs ++ ys) = held many (held many before xs) ys := by
  unfold held
  rw [List.foldl_append]

theorem held_many (before entries : List Ref) : held true before entries = before ++ entries := by
  induction entries using List.reverseRecOn with
  | nil => exact (List.append_nil _).symm
  | append_singleton entries r ih =>
      rw [held_append, ih, ← List.append_assoc]
      rfl

theorem held_one (entries : List Ref) : held false [] entries = entries.getLast?.toList := by
  induction entries using List.reverseRecOn with
  | nil => rfl
  | append_singleton entries r ih =>
      rw [held_append, List.getLast?_concat]
      rfl

section

variable {σ : Type} {model : EntityModel σ} {registry : Registry} {heap heap' : Heap σ}
  {labels : List (Int64 × String)} {nodes : List (Int64 × Ref)} {l : EdgeLink}
  {first last : TypeDescriptor} {x y r o target : Ref} {n : Int64} {type : TypeName}

theorem lookup_inj {m : Int64} (hApart : (nodes.map (·.2)).Nodup) (hn : nodes.lookup n = some r)
    (hm : nodes.lookup m = some r) : n = m := by
  exact congrArg Prod.fst
    (List.inj_on_of_nodup_map hApart (mem_of_lookup hn) (mem_of_lookup hm) rfl)

theorem EntityModel.Attains.writes : ∀ type state field value state', model.Attains type state →
    model.write state field value = .ok state' → model.Attains type state' :=
  fun _ _ _ _ _ hState hWrite => .write hState hWrite

/-- The objects of nodes are in states of their types. -/
theorem PassesMade.attains {entries : List StoredNode} {edges : List StoredEdge}
    {links : List EdgeLink} (h : PassesMade model registry entries edges nodes links heap)
    (hr : nodes.lookup n = some r) : heap.Holds model.Attains r (heap.typeOf r) := by
  obtain ⟨-, -, -, d, -, hHolds⟩ :=
    (h.built (fun _ _ => .fresh) EntityModel.Attains.writes).typed (n, r) (mem_of_lookup hr)
  rw [hHolds.2.1]
  exact hHolds

theorem Ready.mono (h : Ready model registry labels nodes heap l first last x y)
    (hGrows : heap.Grows model.Attains heap') :
    Ready model registry labels nodes heap' l first last x y := by
  obtain ⟨hJoins, hStart, hFinish, hObject⟩ := h
  refine ⟨{ hJoins with start := ?_, finish := ?_, object := ?_ }, hGrows.holds _ _ hStart,
    hGrows.holds _ _ hFinish, fun o ho => ?_⟩
  · exact ⟨hJoins.start.1, (hGrows.typeOf hStart).trans hJoins.start.2⟩
  · exact ⟨hJoins.finish.1, (hGrows.typeOf hFinish).trans hJoins.finish.2⟩
  · rw [← hJoins.object]
    cases hOwn : l.object with
    | none => rfl
    | some o =>
        obtain ⟨-, d, -, hHolds⟩ := hObject o hOwn
        exact congrArg some (hGrows.typeOf hHolds)
  · obtain ⟨hNew, d, hd, hHolds⟩ := hObject o ho
    exact ⟨hNew, d, hd, hGrows.holds _ _ hHolds⟩

theorem mem_refs_of_lookup (hr : nodes.lookup n = some r) : r ∈ nodes.map (·.2) :=
  List.mem_map_of_mem (mem_of_lookup hr)

/-- An object is at an end of a relationship exactly if its number is there. -/
theorem lookup_eq_iff {m : Int64} {q : Ref} (hApart : (nodes.map (·.2)).Nodup)
    (hr : nodes.lookup n = some r) (hq : nodes.lookup m = some q) : m = n ↔ r = q := by
  constructor
  · rintro rfl
    exact Option.some.inj (hr.symm.trans hq)
  · rintro rfl
    exact lookup_inj hApart hq hr

/-- What a relationship puts into a field of a node, by the objects of its ends. -/
theorem Ready.entries (h : Ready model registry labels nodes heap l first last x y)
    (hApart : (nodes.map (·.2)).Nodup) (hr : nodes.lookup n = some r) (field : String) :
    l.entries nodes n field =
      (if r = x ∧ l.taken.start.any (·.field == field) = true then [l.object.getD y] else []) ++
        if r = y ∧ l.taken.finish.any (·.field == field) = true then [l.object.getD x] else [] := by
  have hx := h.joins.start.1
  have hy := h.joins.finish.1
  unfold EdgeLink.entries
  simp only [lookup_eq_iff hApart hr hx, lookup_eq_iff hApart hr hy, hx, hy]
  cases l.object <;> rfl

namespace ObjectGraph

variable (hRelates : model.Relates registry)

include hRelates

/-- Recording an object changes one field of one object. -/
theorem relateSide_fields {binding : Option Binding} (hOwner : heap.Holds model.Attains o type)
    (hTakes : ∀ b, binding = some b → ∃ far, registry.Takes type b.field far)
    (h : relateSide model binding o target heap = .ok heap') :
    heap.Grows model.Attains heap' ∧ (∀ q, q ≠ o → heap'.cell q = heap.cell q) ∧
      ∀ d ∈ registry.types, d.type = type → ∀ f role, (f, role) ∈ d.relationships →
        model.related (heap'.stateOf o) f.field =
          held role.many (model.related (heap.stateOf o) f.field)
            (if binding.any (·.field == f.field) = true then [target] else []) := by
  cases binding with
  | none =>
      cases h
      exact ⟨.refl _, fun _ _ => rfl, fun d _ _ f role _ => rfl⟩
  | some b =>
      obtain ⟨state, hRelate, rfl⟩ := map_eq_ok.1 h
      refine ⟨Heap.grows_put hOwner (.relate hOwner.2.2 hRelate), fun q hq => if_neg hq, ?_⟩
      rintro d hd rfl f role hField
      obtain ⟨far, d', hd', hType, f', role', hField', hName, -⟩ := hTakes b rfl
      rw [Heap.stateOf_put_self]
      by_cases hHere : b.field = f.field
      · rw [if_pos (by simpa using hHere)]
        rw [hHere] at hRelate
        exact (hRelates.relate d hd f role hField _ _ _ _ hOwner.2.2 hRelate).1
      · rw [if_neg (by simpa using hHere)]
        have hAttains := hOwner.2.2
        rw [← hType] at hAttains
        rw [← hName] at hRelate hHere
        exact (hRelates.relate d' hd' f' role' hField' _ _ _ _ hAttains hRelate).2 _ (Ne.symm hHere)

/-- Recording an object on each side changes at most one field of the object there. -/
theorem relateSides_fields {start finish : Option Binding} {s t : Ref} {heap₁ : Heap σ}
    {near far : TypeName} (hx : heap.Holds model.Attains x near) (hy : heap.Holds model.Attains y far)
    (hStart : ∀ b, start = some b → ∃ type, registry.Takes near b.field type)
    (hFinish : ∀ b, finish = some b → ∃ type, registry.Takes far b.field type)
    (hFirst : relateSide model start x s heap = .ok heap₁)
    (hSecond : relateSide model finish y t heap₁ = .ok heap') :
    heap.Grows model.Attains heap' ∧ (∀ q, q ≠ x → q ≠ y → heap'.cell q = heap.cell q) ∧
      ∀ r, ∀ d ∈ registry.types, heap.typeOf r = d.type → ∀ f role, (f, role) ∈ d.relationships →
        model.related (heap'.stateOf r) f.field =
          held role.many (model.related (heap.stateOf r) f.field)
            ((if r = x ∧ start.any (·.field == f.field) = true then [s] else []) ++
              if r = y ∧ finish.any (·.field == f.field) = true then [t] else []) := by
  obtain ⟨hGrows, hSame, hFields⟩ := relateSide_fields hRelates hx hStart hFirst
  obtain ⟨hGrows', hSame', hFields'⟩ :=
    relateSide_fields hRelates (hGrows.holds _ _ hy) hFinish hSecond
  refine ⟨hGrows.trans hGrows', fun q hqx hqy => (hSame' q hqy).trans (hSame q hqx), ?_⟩
  intro r d hd hType f role hField
  -- Each side only touches its own object.
  have hHere : model.related (heap₁.stateOf r) f.field =
      held role.many (model.related (heap.stateOf r) f.field)
        (if r = x ∧ start.any (·.field == f.field) = true then [s] else []) := by
    by_cases hrx : r = x
    · subst hrx
      simpa only [true_and] using hFields d hd (hType.symm.trans hx.2.1) f role hField
    · rw [if_neg fun h => hrx h.1, Heap.stateOf, hSame r hrx]
      rfl
  have hThere : model.related (heap'.stateOf r) f.field =
      held role.many (model.related (heap₁.stateOf r) f.field)
        (if r = y ∧ finish.any (·.field == f.field) = true then [t] else []) := by
    by_cases hry : r = y
    · subst hry
      simpa only [true_and] using hFields' d hd (hType.symm.trans hy.2.1) f role hField
    · rw [if_neg fun h => hry h.1, Heap.stateOf, hSame' r hry]
      rfl
  rw [held_append, hThere, hHere]

theorem joinObject_ends {d : TypeDescriptor} (hd : d ∈ registry.types)
    (ho : heap.Holds model.Attains o d.type) (h : joinObject model o x y heap = .ok heap') :
    heap.Grows model.Attains heap' ∧ (∀ q, q ≠ o → heap'.cell q = heap.cell q) ∧
      model.ends (heap'.stateOf o) = some ⟨some x, some y⟩ := by
  unfold joinObject at h
  split at h
  · rename_i hCan
    obtain ⟨ends, hEnds⟩ := Option.isSome_iff_exists.1 (hRelates.canJoin d hd _ ho.2.2 hCan)
    obtain ⟨half, hStart, hFinish⟩ := bind_eq_ok.1 h
    obtain ⟨state, hFirst, rfl⟩ := map_eq_ok.1 hStart
    obtain ⟨state', hSecond, rfl⟩ := map_eq_ok.1 hFinish
    have hAttains : model.Attains d.type state := .join ho.2.2 hFirst
    rw [Heap.stateOf_put_self] at hSecond
    have hGrows := Heap.grows_put ho hAttains
    refine ⟨hGrows.trans (Heap.grows_put (hGrows.holds _ _ ho) (.join hAttains hSecond)), ?_, ?_⟩
    · intro q hq
      exact (if_neg hq).trans (if_neg hq)
    · rw [Heap.stateOf_put_self, hRelates.join d hd _ _ _ _ _ hAttains hSecond,
        hRelates.join d hd _ _ _ _ _ ho.2.2 hFirst, hEnds]
      rfl
  · cases h

/-- Before anything is recorded the object of a relationship, if it has one, is joined to the ends; this
changes nothing else. -/
theorem join_fields {joined : Heap σ} (hReady : Ready model registry labels nodes heap l first last x y)
    (hObject : ∀ o, l.object = some o → joinObject model o x y heap = .ok joined)
    (hPlain : l.object = none → joined = heap) :
    heap.Grows model.Attains joined ∧ (∀ q, l.object ≠ some q → joined.cell q = heap.cell q) ∧
      ∀ o, l.object = some o → model.ends (joined.stateOf o) = some ⟨some x, some y⟩ := by
  cases hOwn : l.object with
  | none =>
      rw [hPlain hOwn]
      exact ⟨.refl heap, fun _ _ => rfl, fun o ho => by cases ho⟩
  | some o =>
      obtain ⟨-, d, hd, hHolds⟩ := hReady.object o hOwn
      obtain ⟨hGrows, hOthers, hEnds⟩ := joinObject_ends hRelates hd hHolds (hObject o hOwn)
      refine ⟨hGrows, fun q hq => hOthers q fun hSame => hq (congrArg some hSame.symm), fun o' ho => ?_⟩
      cases ho
      exact hEnds

/-- Linking one relationship records its entries, and sets the ends of its object. -/
theorem link_fields (hApart : (nodes.map (·.2)).Nodup)
    (hReady : Ready model registry labels nodes heap l first last x y)
    (h : link model nodes heap l = .ok heap') :
    heap.Grows model.Attains heap' ∧
      (∀ q, q ∉ nodes.map (·.2) → l.object ≠ some q → heap'.cell q = heap.cell q) ∧
      (∀ o, l.object = some o → model.ends (heap'.stateOf o) = some ⟨some x, some y⟩) ∧
      ∀ n r, nodes.lookup n = some r → ∀ d ∈ registry.types, heap.typeOf r = d.type →
        ∀ f role, (f, role) ∈ d.relationships →
          model.related (heap'.stateOf r) f.field =
            held role.many (model.related (heap.stateOf r) f.field) (l.entries nodes n f.field) := by
  have hJoins := hReady.joins
  have hx := hJoins.start.1
  have hy := hJoins.finish.1
  obtain ⟨x', y', joined, next, hx', hy', hObject, hPlain, hFirst, hSecond⟩ := link_eq_ok_iff.1 h
  cases Option.some.inj (hx.symm.trans hx')
  cases Option.some.inj (hy.symm.trans hy')
  obtain ⟨hJoined, hOthers, hEnds⟩ := join_fields hRelates hReady hObject hPlain
  obtain ⟨hGrows, hSame, hFields⟩ := relateSides_fields hRelates (hJoined.holds _ _ hReady.start)
    (hJoined.holds _ _ hReady.finish) (fun b hb => ⟨_, hJoins.fits.start b hb⟩)
    (fun b hb => ⟨_, hJoins.fits.finish b hb⟩) hFirst hSecond
  -- What is no node is touched by the join only.
  have hKept : ∀ q, q ∉ nodes.map (·.2) → heap'.cell q = joined.cell q := by
    intro q hq
    refine hSame q ?_ ?_
    · rintro rfl
      exact hq (mem_refs_of_lookup hx)
    · rintro rfl
      exact hq (mem_refs_of_lookup hy)
  refine ⟨hJoined.trans hGrows, fun q hq hNot => (hKept q hq).trans (hOthers q hNot), fun o ho => ?_, ?_⟩
  · rw [Heap.stateOf, hKept o (hReady.object o ho).1]
    exact hEnds o ho
  · intro n r hr d hd hType f role hField
    -- The relationship's object is not a node, so that joining it left the node alone.
    have hUntouched : joined.cell r = heap.cell r :=
      hOthers r fun ho => (hReady.object r ho).1 (mem_refs_of_lookup hr)
    have hType' : joined.typeOf r = d.type := by
      rw [Heap.typeOf, hUntouched]
      exact hType
    rw [hFields r d hd hType' f role hField, hReady.entries hApart hr, Heap.stateOf, hUntouched]
    rfl

/-- After all links a field holds the entries of all relationships in their order, and the object of each
relationship knows its ends. -/
theorem links_fields {links : List EdgeLink} (hApart : (nodes.map (·.2)).Nodup)
    (hObjects : (links.filterMap (·.object)).Nodup)
    (hNodes : ∀ n r, nodes.lookup n = some r → ∃ type, heap.Holds model.Attains r type)
    (hReady : ∀ l ∈ links, ∃ first last x y, Ready model registry labels nodes heap l first last x y)
    (h : links.foldlM (link model nodes) heap = .ok heap') :
    heap.Grows model.Attains heap' ∧
      (∀ q, q ∉ nodes.map (·.2) → q ∉ links.filterMap (·.object) → heap'.cell q = heap.cell q) ∧
      (∀ l ∈ links, ∀ o, l.object = some o → model.ends (heap'.stateOf o) =
        some ⟨nodes.lookup l.edge.start, nodes.lookup l.edge.finish⟩) ∧
      ∀ n r, nodes.lookup n = some r → ∀ d ∈ registry.types, heap.typeOf r = d.type →
        ∀ f role, (f, role) ∈ d.relationships →
          model.related (heap'.stateOf r) f.field =
            held role.many (model.related (heap.stateOf r) f.field)
              (links.flatMap fun l => l.entries nodes n f.field) := by
  induction links generalizing heap with
  | nil =>
      cases h
      exact ⟨.refl _, fun _ _ _ => rfl, fun _ hl => absurd hl List.not_mem_nil,
        fun _ _ _ _ _ _ _ _ _ => rfl⟩
  | cons l rest ih =>
      rw [List.foldlM_cons] at h
      obtain ⟨next, hHere, hRest⟩ := bind_eq_ok.1 h
      obtain ⟨first, last, x, y, hl⟩ := hReady l List.mem_cons_self
      obtain ⟨hGrows, hOthers, hEnds, hFields⟩ := link_fields hRelates hApart hl hHere
      have hRestObjects : (rest.filterMap (·.object)).Nodup :=
        ((List.sublist_cons_self l rest).filterMap _).nodup hObjects
      obtain ⟨hGrows', hOthers', hEnds', hFields'⟩ := ih hRestObjects
        (fun n r hr => (hNodes n r hr).imp fun type hHolds => hGrows.holds _ _ hHolds)
        (fun l' hl' => by
          obtain ⟨first', last', x', y', hReady'⟩ := hReady l' (List.mem_cons_of_mem _ hl')
          exact ⟨first', last', x', y', hReady'.mono hGrows⟩)
        hRest
      refine ⟨hGrows.trans hGrows', fun q hq hNot => ?_, fun l' hl' o ho => ?_, ?_⟩
      · rw [hOthers' q hq fun hMem => hNot ?_, hOthers q hq fun hOwn => hNot ?_]
        · exact List.mem_filterMap.2 ⟨l, List.mem_cons_self, hOwn⟩
        · exact ((List.sublist_cons_self l rest).filterMap _).subset hMem
      · rcases List.mem_cons.1 hl' with rfl | hl'
        · -- No later relationship has this object, so that its ends stay.
          have hLater : o ∉ rest.filterMap (·.object) := by
            rw [List.filterMap_cons_some ho] at hObjects
            exact (List.nodup_cons.1 hObjects).1
          rw [Heap.stateOf, hOthers' o (hl.object o ho).1 hLater, hl.joins.start.1, hl.joins.finish.1]
          exact hEnds o ho
        · exact hEnds' l' hl' o ho
      · intro n r hr d hd hType f role hField
        obtain ⟨type, hHolds⟩ := hNodes n r hr
        rw [hFields' n r hr d hd ((hGrows.typeOf hHolds).trans hType) f role hField,
          hFields n r hr d hd hType f role hField, List.flatMap_cons, held_append]

end ObjectGraph

/-- What the passes have made is ready to be linked. -/
theorem PassesMade.ready {builder : RegistryBuilder} {entries : List StoredNode}
    {edges : List StoredEdge} {links : List EdgeLink} (hFrozen : builder.build = .ok registry)
    (h : PassesMade model registry entries edges nodes links heap) (hl : l ∈ links) :
    ∃ first last x y,
      Ready model registry (ObjectGraph.nodeLabels registry entries) nodes heap l first last x y := by
  obtain ⟨first, last, x, y, hJoins⟩ := h.joins hFrozen hl
  refine ⟨first, last, x, y, hJoins, ?_, ?_, fun o ho => ⟨fun hMem => ?_, ?_⟩⟩
  · rw [← hJoins.start.2]
    exact h.attains hJoins.start.1
  · rw [← hJoins.finish.2]
    exact h.attains hJoins.finish.1
  · exact (List.nodup_append.1 h.apart).2.2 o hMem o (List.mem_filterMap.2 ⟨l, hl, ho⟩) rfl
  · rcases (h.linkFor (fun _ _ => .fresh) EntityModel.Attains.writes hl).object with
      ⟨-, hNone⟩ | ⟨type, o', hType, hSome, hHolds⟩
    · rw [hNone] at ho
      cases ho
    · cases hSome.symm.trans ho
      obtain ⟨d, hd, -⟩ := hJoins.fits.object type hType
      obtain ⟨hMem, rfl⟩ := Registry.mem_of_descriptor hd
      exact ⟨d, hMem, hHolds⟩

end

end GraphMapping
