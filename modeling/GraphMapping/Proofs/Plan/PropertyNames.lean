import GraphMapping.Proofs.Mapping.Names
import GraphMapping.Proofs.Plan.Upsert

/-!
# Property names and where they lead

An object is stored under the property names of its key and scalar fields and, entry by entry, of its
property maps.  On load a property name leads back to a field or to an entry of a property map.
Registration tells the names of fields apart, but an entry's name is made up only when the object is
stored: it can be that of another field, or belong to a property map declared earlier, or to none.
-/

namespace GraphMapping

open TypeDescriptor FieldDescriptor

/-- What a property is stored for: a key or scalar field, or one entry of a property map. -/
structure PropertySource where
  field : FieldDescriptor
  entry : Option String
deriving DecidableEq

/-- The name that a property is stored under. -/
def PropertySource.name (s : PropertySource) : String :=
  match s.entry with
  | none => s.field.storage
  | some entry => s.field.front ++ entry

/-- Where a property name leads on load. -/
def TypeDescriptor.sourceOf (d : TypeDescriptor) (property : String) : Option PropertySource :=
  match d.fieldStoredAs property with
  | some f => some ⟨f, none⟩
  | none => (d.mapEntryStoredAs property).map fun owner => ⟨owner.1, some owner.2⟩

/-- An object is stored for its key and its scalar fields, and for each entry of its property maps. -/
inductive StoredFor {σ : Type} (model : EntityModel σ) (d : TypeDescriptor) (state : σ) :
    PropertySource → Prop
  | field {f : FieldDescriptor} (hField : f ∈ d.fields) (hKind : (f.isScalar || f.isKey) = true) :
      StoredFor model d state ⟨f, none⟩
  | entry {f : FieldDescriptor} {entries : List (String × Value)} {e : String × Value}
      (hField : f ∈ d.fields) (hMap : f.role = .propertyMap)
      (hRead : model.read state f.field = some (.map entries)) (hEntry : e ∈ entries) :
      StoredFor model d state ⟨f, some e.1⟩

/-- The property name of an entry is its own: the entry has a name, no key or scalar field is stored under
the property name, and no property map declared earlier has an entry of it. -/
def TypeDescriptor.Owns (d : TypeDescriptor) (f : FieldDescriptor) (entry : String) : Prop :=
  entry ≠ "" ∧
  (∀ g ∈ d.fields, (g.isScalar || g.isKey) = true → g.storage ≠ f.front ++ entry) ∧
  ∃ before later, d.propertyMaps = before ++ f :: later ∧
    ∀ g ∈ before, ∀ rest, rest ≠ "" → f.front ++ entry ≠ g.front ++ rest

/-- No key or scalar field is stored under a name that begins like the entries of a property map, and no
property map's entries begin like those of another one. -/
structure TypeDescriptor.Apart (d : TypeDescriptor) : Prop where
  fields : ∀ f ∈ d.propertyMaps, ∀ g ∈ d.fields, (g.isScalar || g.isKey) = true →
    ¬ f.front.toList <+: g.storage.toList
  maps : d.propertyMaps.Pairwise fun f g =>
    ¬ f.front.toList <+: g.front.toList ∧ ¬ g.front.toList <+: f.front.toList

/-- Take up the value of a property for what it was stored for. -/
def PropertySource.take {σ : Type} (s : PropertySource) (model : EntityModel σ) (d : TypeDescriptor)
    (filling : Filling σ) (value : Value) : Except Error (Filling σ) :=
  match s.entry with
  | none => do
      let value ← if s.field.isTemporal then temporalValue d.label s.name value else .ok value
      let state ← model.write filling.state s.field.field value
      return { filling with state := state }
  | some entry =>
      .ok { filling with maps := filling.maps.alter s.field.field fun entries =>
        (entries.getD []).insert entry value }

variable {strategy : KeyStrategy} {decl : TypeDecl} {d : TypeDescriptor} {f g : FieldDescriptor}
  {name front text rest entry : String}

/-! ## Names of entries -/

theorem after_eq_some_iff : after front text = some rest ↔ rest ≠ "" ∧ text = front ++ rest := by
  unfold after
  by_cases hFront : front.toList <+: text.toList
  · obtain ⟨tail, hTail⟩ := hFront
    have hText : text = front ++ String.ofList tail := by
      apply String.toList_injective
      rw [String.toList_append, String.toList_ofList, hTail]
    have hRest : rest ≠ "" ∧ text = front ++ rest ↔ rest ≠ "" ∧ String.ofList tail = rest := by
      rw [hText, String.append_right_inj]
    rw [if_pos (List.isPrefixOf_iff_prefix.2 ⟨tail, hTail⟩), ← hTail, List.drop_left, hRest]
    cases tail with
    | nil =>
        constructor
        · intro h
          cases h
        · rintro ⟨hNamed, hEmpty⟩
          exact absurd hEmpty.symm hNamed
    | cons c cs =>
        constructor
        · intro h
          cases h
          exact ⟨fun hEmpty => by simpa using congrArg String.toList hEmpty, rfl⟩
        · rintro ⟨-, rfl⟩
          rfl
  · rw [if_neg fun h => hFront (List.isPrefixOf_iff_prefix.1 h)]
    constructor
    · intro h
      cases h
    · rintro ⟨-, rfl⟩
      exact absurd ⟨rest.toList, String.toList_append.symm⟩ hFront

theorem mapEntryStoredAs_eq_some_iff : d.mapEntryStoredAs name = some (f, entry) ↔
    entry ≠ "" ∧ name = f.front ++ entry ∧ ∃ before later, d.propertyMaps = before ++ f :: later ∧
      ∀ g ∈ before, ∀ rest, rest ≠ "" → name ≠ g.front ++ rest := by
  unfold mapEntryStoredAs
  rw [List.findSome?_eq_some_iff]
  constructor
  · rintro ⟨before, owner, later, hSplit, hOwner, hBefore⟩
    obtain ⟨rest, hAfter, hSame⟩ := Option.map_eq_some_iff.1 hOwner
    cases hSame
    obtain ⟨hNamed, hName⟩ := after_eq_some_iff.1 hAfter
    refine ⟨hNamed, hName, before, later, hSplit, fun g hg rest hRest hOther => ?_⟩
    have hNone := hBefore g hg
    rw [after_eq_some_iff.2 ⟨hRest, hOther⟩] at hNone
    cases hNone
  · rintro ⟨hNamed, hName, before, later, hSplit, hBefore⟩
    refine ⟨before, f, later, hSplit, ?_, fun g hg => ?_⟩
    · rw [after_eq_some_iff.2 ⟨hNamed, hName⟩]
      rfl
    · cases hAfter : after g.front name with
      | none => rfl
      | some rest =>
          obtain ⟨hRest, hOther⟩ := after_eq_some_iff.1 hAfter
          exact absurd hOther (hBefore g hg rest hRest)

theorem fieldStoredAs_eq_none_iff : d.fieldStoredAs name = none ↔
    ∀ g ∈ d.fields, (g.isScalar || g.isKey) = true → g.storage ≠ name := by
  unfold fieldStoredAs
  rw [List.find?_eq_none]
  simp only [Bool.and_eq_true, beq_iff_eq, not_and, ne_eq]

/-- The property name of an entry leads back to it exactly if it is the entry's own. -/
theorem sourceOf_entry_iff :
    d.sourceOf (f.front ++ entry) = some ⟨f, some entry⟩ ↔ d.Owns f entry := by
  unfold sourceOf Owns
  rw [← fieldStoredAs_eq_none_iff]
  cases d.fieldStoredAs (f.front ++ entry) with
  | some g => simp
  | none =>
      simp only [true_and]
      rw [Option.map_eq_some_iff]
      constructor
      · rintro ⟨⟨g, rest⟩, hFound, hSame⟩
        cases hSame
        obtain ⟨hNamed, -, hFirst⟩ := mapEntryStoredAs_eq_some_iff.1 hFound
        exact ⟨hNamed, hFirst⟩
      · rintro ⟨hNamed, hFirst⟩
        exact ⟨(f, entry), mapEntryStoredAs_eq_some_iff.2 ⟨hNamed, rfl, hFirst⟩, rfl⟩

/-- The storage name of a key or scalar field leads back to it. -/
theorem sourceOf_field (h : ofDecl strategy decl = .ok d) (hField : f ∈ d.fields)
    (hKind : (f.isScalar || f.isKey) = true) : d.sourceOf f.storage = some ⟨f, none⟩ := by
  unfold sourceOf
  rw [fieldStoredAs_self h hField hKind]

/-- Where the names of fields and property maps are apart, entries with a name own their property names. -/
theorem TypeDescriptor.Apart.owns (h : d.Apart) (hMap : f ∈ d.propertyMaps) (hNamed : entry ≠ "") :
    d.Owns f entry := by
  obtain ⟨before, later, hSplit⟩ := List.append_of_mem hMap
  refine ⟨hNamed, fun g hg hKind hSame => ?_, before, later, hSplit, fun g hg rest _ hSame => ?_⟩
  · refine h.fields f hMap g hg hKind ?_
    rw [hSame, String.toList_append]
    exact List.prefix_append _ _
  · have hApart := h.maps
    rw [hSplit] at hApart
    obtain ⟨hForth, hBack⟩ := (List.pairwise_append.1 hApart).2.2 g hg f List.mem_cons_self
    -- Both fronts begin the same property name, so the longer one begins with the shorter one.
    have hHere : f.front.toList <+: (f.front ++ entry).toList := by
      rw [String.toList_append]
      exact List.prefix_append _ _
    have hThere : g.front.toList <+: (f.front ++ entry).toList := by
      rw [hSame, String.toList_append]
      exact List.prefix_append _ _
    rcases List.prefix_or_prefix_of_prefix hHere hThere with hPrefix | hPrefix
    · exact hBack hPrefix
    · exact hForth hPrefix

section

variable {σ : Type} {model : EntityModel σ} {state : σ} {params : Dict Value} {s t : PropertySource}
  {id : Int64} {filling : Filling σ} {value : Value}

/-- The properties of an object are those of its snapshot, and its key. -/
theorem stored_iff (h : ofDecl strategy decl = .ok d) (hSnapshot : snapshot model d state = .ok params) :
    (∃ s, StoredFor model d state s ∧ s.name = name) ↔
      params.Lists name ∨ (d.key?.isSome = true ∧ name = strategy.field) := by
  rw [(snapshot_spec hSnapshot).2 name]
  constructor
  · rintro ⟨s, hStored, rfl⟩
    cases hStored with
    | @field f hField hKind =>
        have hEither : f.isScalar = true ∨ f.isKey = true := by simpa using hKind
        rcases hEither with hScalar | hKey
        · exact .inl ⟨f, hField, .scalar hScalar⟩
        · refine .inr ⟨?_, key_storage h hField hKey⟩
          unfold TypeDescriptor.key?
          rw [List.find?_isSome]
          exact ⟨f, hField, hKey⟩
    | entry hField hMap hRead hEntry => exact .inl ⟨_, hField, .entry hMap hRead hEntry⟩
  · rintro (⟨f, hField, hStores⟩ | ⟨hKey, rfl⟩)
    · cases hStores with
      | scalar hScalar => exact ⟨⟨f, none⟩, .field hField (by rw [hScalar, Bool.true_or]), rfl⟩
      | entry hMap hRead hEntry => exact ⟨_, .entry hField hMap hRead hEntry, rfl⟩
    · obtain ⟨pk, hPk⟩ := Option.isSome_iff_exists.1 hKey
      have hMem : pk ∈ d.fields := List.mem_of_find?_eq_some hPk
      have hIsKey : pk.isKey = true := List.find?_some hPk
      exact ⟨⟨pk, none⟩, .field hMem (by rw [hIsKey, Bool.or_true]), key_storage h hMem hIsKey⟩

/-- Whatever an object is stored for leads back, if an entry owns its property name. -/
theorem StoredFor.leads_back_iff (h : ofDecl strategy decl = .ok d) (hStored : StoredFor model d state s) :
    d.sourceOf s.name = some s ↔ ∀ entry, s.entry = some entry → d.Owns s.field entry := by
  cases hStored with
  | @field f hField hKind =>
      refine ⟨fun _ entry hEntry => (by cases hEntry), fun _ => ?_⟩
      exact sourceOf_field h hField hKind
  | @entry f entries e hField hMap hRead hEntry =>
      constructor
      · rintro hBack _ ⟨⟩
        exact sourceOf_entry_iff.1 hBack
      · intro hOwns
        exact sourceOf_entry_iff.2 (hOwns e.1 rfl)

/-- Filling takes up a property for what its name leads to, and refuses a name that leads nowhere. -/
theorem fillProperty_eq : fillProperty model d id filling (name, value) =
    match d.sourceOf name with
    | some s => s.take model d filling value
    | none => .error (.data ("unrecognized property '" ++ name ++ "' on " ++ d.label ++ " " ++
        toString id.toInt)) := by
  unfold fillProperty sourceOf
  dsimp only
  cases hField : d.fieldStoredAs name with
  | some f =>
      have hName : f.storage = name := by
        have hHolds := List.find?_some hField
        simp only [Bool.and_eq_true, beq_iff_eq] at hHolds
        exact hHolds.2
      simp only [PropertySource.take, PropertySource.name, hName]
  | none =>
      simp only
      cases hEntry : d.mapEntryStoredAs name with
      | some owner => rfl
      | none => rfl

/-- The properties of an object have different names, which lead back to what they are stored for, exactly
if every entry of its property maps owns its property name. -/
theorem names_lead_back_iff (model : EntityModel σ) (strategy : KeyStrategy) (decl : TypeDecl)
    (d : TypeDescriptor) (state : σ) (params : Dict Value) (h : ofDecl strategy decl = .ok d)
    (hSnapshot : snapshot model d state = .ok params) :
    -- What is stored are the key and the properties of the snapshot.
    (∀ name, (∃ s, StoredFor model d state s ∧ s.name = name) ↔
      params.Lists name ∨ (d.key?.isSome = true ∧ name = strategy.field)) ∧
    ((∀ s t, StoredFor model d state s → StoredFor model d state t → s.name = t.name → s = t) ∧
        (∀ s, StoredFor model d state s → d.sourceOf s.name = some s) ↔
      ∀ f entry, StoredFor model d state ⟨f, some entry⟩ → d.Owns f entry) ∧
    -- A single property leads back unless it is that of an entry which does not own its name.
    (∀ s, StoredFor model d state s →
      (d.sourceOf s.name = some s ↔ ∀ entry, s.entry = some entry → d.Owns s.field entry)) ∧
    -- Loading takes up a property for what its name leads to, and knows no name that leads nowhere.
    (∀ id filling name value, fillProperty model d id filling (name, value) =
      match d.sourceOf name with
      | some s => s.take model d filling value
      | none => .error (.data ("unrecognized property '" ++ name ++ "' on " ++ d.label ++ " " ++
          toString id.toInt))) ∧
    (d.Apart → ∀ f entry, StoredFor model d state ⟨f, some entry⟩ → (d.Owns f entry ↔ entry ≠ "")) := by
  refine ⟨fun name => stored_iff h hSnapshot, ⟨fun ⟨_, hBack⟩ f entry hStored => ?_, fun hOwns => ?_⟩,
    fun s hStored => hStored.leads_back_iff h, fun id filling name value => fillProperty_eq,
    fun hApart f entry hStored => ?_⟩
  · exact (hStored.leads_back_iff h).1 (hBack _ hStored) entry rfl
  · have hBack : ∀ s, StoredFor model d state s → d.sourceOf s.name = some s := by
      rintro ⟨f, source⟩ hStored
      refine (hStored.leads_back_iff h).2 fun entry hEntry => hOwns f entry ?_
      cases hEntry
      exact hStored
    refine ⟨fun s t hs ht hName => ?_, hBack⟩
    exact Option.some.inj ((hBack s hs).symm.trans (hName ▸ hBack t ht))
  · cases hStored with
    | entry hField hMap hRead hEntry =>
        have hOf : f ∈ d.propertyMaps := List.mem_filter.2 ⟨hField, by simp [isPropertyMap, hMap]⟩
        exact ⟨fun hOwns => hOwns.1, hApart.owns hOf⟩

end

namespace Poster

/-- A movie whose rating is stored like an entry of its other attributes. -/
def movie : DeclaredType :=
  ⟨"Movie", "Movie", none,
    [⟨⟨"uuid", .scalar, "pk"⟩, .value (.option .string)⟩,
      ⟨⟨"rating", .scalar, "name=attrs.rating"⟩, .value (.option .string)⟩,
      ⟨⟨"attrs", .propertyMap, "properties"⟩, .value (.map .any)⟩], false⟩

def rating : FieldDescriptor :=
  ⟨"attrs.rating", "rating", .scalar false, false, false⟩

def attrs : FieldDescriptor :=
  ⟨"attrs", "attrs", .propertyMap, false, false⟩

def descriptor : TypeDescriptor :=
  ⟨"Movie", "Movie", [⟨"uuid", "uuid", .key false, false, false⟩, rating, attrs], none⟩

/-- A movie with attributes. -/
def holding (entries : List (String × Value)) : DeclaredObject :=
  ⟨movie, [("attrs", .map entries), ("rating", .string "PG"), ("uuid", .string "m")], [],
    ⟨none, none⟩, false⟩

end Poster

/-- The names of a movie whose only property map has an entry with a name lead back. -/
theorem archive_names_lead_back :
    (∀ s t, StoredFor (declaredModel [Archive.movie]) Archive.descriptor (Archive.before.stateOf 0) s →
      StoredFor (declaredModel [Archive.movie]) Archive.descriptor (Archive.before.stateOf 0) t →
      s.name = t.name → s = t) ∧
    ∀ s, StoredFor (declaredModel [Archive.movie]) Archive.descriptor (Archive.before.stateOf 0) s →
      Archive.descriptor.sourceOf s.name = some s := by
  obtain ⟨-, hIff, -, -, hApart⟩ := names_lead_back_iff (declaredModel [Archive.movie]) Archive.strategy
    Archive.movie.decl Archive.descriptor (Archive.before.stateOf 0) Archive.first.params rfl rfl
  refine hIff.2 fun f entry hStored => (hApart ⟨?_, ?_⟩ f entry hStored).2 ?_
  · decide
  · decide
  · -- The only property map is the attributes, with their only entry.
    cases hStored with
    | @entry f entries e hField hMap hRead hEntry =>
        have hAttrs : f = ⟨"attrs", "attrs", .propertyMap, false, false⟩ := by
          rcases List.mem_cons.1 hField with rfl | hField
          · cases hMap
          · rcases List.mem_cons.1 hField with rfl | hField
            · cases hMap
            · exact List.mem_singleton.1 hField
        subst hAttrs
        cases hRead
        cases List.mem_singleton.1 hEntry
        decide

/-- An entry without a name is stored but not taken up again, and one that is named like a field takes its
place: both leave nothing for the map, and registration accepts the type. -/
theorem poster_names_go_astray :
    TypeDescriptor.ofDecl Archive.strategy Poster.movie.decl = .ok Poster.descriptor ∧
    snapshot (declaredModel [Poster.movie]) Poster.descriptor (Poster.holding [("", .string "R")]) =
      .ok [("attrs.", .string "R"), ("attrs.rating", .string "PG")] ∧
    populate (declaredModel [Poster.movie]) false Poster.descriptor 1
        [("attrs.", .string "R"), ("attrs.rating", .string "PG")]
        ((declaredModel [Poster.movie]).fresh "Movie") =
      .error (.data "unrecognized property 'attrs.' on Movie 1") ∧
    StoredFor (declaredModel [Poster.movie]) Poster.descriptor
      (Poster.holding [("rating", .string "R")]) ⟨Poster.rating, none⟩ ∧
    StoredFor (declaredModel [Poster.movie]) Poster.descriptor
      (Poster.holding [("rating", .string "R")]) ⟨Poster.attrs, some "rating"⟩ ∧
    snapshot (declaredModel [Poster.movie]) Poster.descriptor (Poster.holding [("rating", .string "R")]) =
      .ok [("attrs.rating", .string "R")] ∧
    Poster.descriptor.sourceOf "attrs.rating" = some ⟨Poster.rating, none⟩ := by
  refine ⟨by rfl, by rfl, by rfl, .field (by decide) (by decide), ?_, by rfl, by rfl⟩
  have hEntry : ("rating", Value.string "R") ∈ [("rating", Value.string "R")] := List.mem_cons_self
  exact .entry (by decide) rfl rfl hEntry

end GraphMapping
