import GraphMapping.Proofs.ObjectGraph.Restored

/-!
# Objects of declared types read back what was stored of them

The fields of a declared type are statically typed.  A new object holds for each of them the initial value of
its type, and each type takes back what is stored of its values, if the instants among them are regular.  So
an object that is filled from what was stored of another one holds the same values, where the declared names
keep the stored properties apart.
-/

namespace GraphMapping

open TypeDescriptor FieldDescriptor

/-- An object holds in each field a value of the field's type. -/
def DeclaredObject.Typed (o : DeclaredObject) : Prop :=
  ∀ field type v, o.type.valueType? field = some type → o.values.find? field = some v →
    ∃ x, v = type.write x

variable {types : List DeclaredType} {t : DeclaredType} {strategy : KeyStrategy} {d : TypeDescriptor}
  {o o' : DeclaredObject} {params : Dict Value} {id : Int64} {type : FieldType} {name field : String}
  {given v : Value} {f : FieldDescriptor}

/-! ## Values of objects -/

theorem read_eq_some : o.read field = some v ↔
    ∃ type, o.type.valueType? field = some type ∧ o.values.find? field = some v := by
  unfold DeclaredObject.read
  cases o.type.valueType? field with
  | none => simp
  | some type => simp

/-- A new object holds the initial value of each field's type. -/
theorem read_new (hField : ∃ g ∈ t.fields, g.decl.name = field) (hType : t.valueType? field = some type) :
    (DeclaredObject.new t).read field = some (type.write type.initial) := by
  refine read_eq_some.2 ⟨type, hType, Dict.find?_ofList_of_forall ?_ ?_⟩
  · obtain ⟨g, hg, rfl⟩ := hField
    exact ⟨_, List.mem_filterMap.2 ⟨g, hg, by rw [hType]; rfl⟩, rfl⟩
  · rintro e he rfl
    obtain ⟨g, -, hEntry⟩ := List.mem_filterMap.1 he
    obtain ⟨type', hType', rfl⟩ := Option.map_eq_some_iff.1 hEntry
    cases hType.symm.trans hType'
    rfl

/-- A field shows what its type makes of the value that it is given. -/
theorem shows_of_convert (hType : (DeclaredType.ofName types name).valueType? field = some type)
    (hConvert : type.convert given = .ok v) : (declaredModel types).Shows name field given (some v) := by
  intro state hWritten
  rw [← type_of_written hWritten] at hType
  refine ⟨{ state with values := state.values.insert field v }, ?_, ?_⟩
  · change DeclaredObject.write state field given = _
    unfold DeclaredObject.write
    rw [hType]
    exact map_eq_ok.2 ⟨v, hConvert, rfl⟩
  · exact read_eq_some.2 ⟨type, hType, Dict.find?_insert_self _ _ _⟩

/-! ## What is stored -/

section

variable (hTyped : o.Typed)

include hTyped

theorem held_of_read (hRead : o.read field = some v) :
    ∃ type, o.type.valueType? field = some type ∧ ∃ x, type.write x = v := by
  obtain ⟨type, hValue, hFound⟩ := read_eq_some.1 hRead
  obtain ⟨x, rfl⟩ := hTyped _ _ _ hValue hFound
  exact ⟨type, hValue, x, rfl⟩

/-- A new object holds null in a field that can hold null. -/
theorem read_new_of_null (hField : ∃ g ∈ o.type.fields, g.decl.name = field)
    (hRead : o.read field = some .null) : (DeclaredObject.new o.type).read field = some .null := by
  obtain ⟨type, hValue, x, hNull⟩ := held_of_read hTyped hRead
  rw [read_new hField hValue, FieldType.write_initial_of_null x hNull]

/-- A field whose type leaves no instant open takes what is stored of its value for the value. -/
theorem shows_stored (hOf : DeclaredType.ofName types d.type = o.type) (hRead : o.read field = some v)
    (hClear : ∀ type, o.type.valueType? field = some type → type.Clear v) (hInstants : v.ReadsBack) :
    (declaredModel types).Shows d.type field v.storage (some v) := by
  obtain ⟨type, hValue, x, rfl⟩ := held_of_read hTyped hRead
  rw [← hOf] at hValue
  exact shows_of_convert hValue (FieldType.convert_storage type x (hClear type (hOf ▸ hValue))
    hInstants)

/-- A field that holds null or an instant that is read back takes it from the stored text. -/
theorem shows_temporal (hOf : DeclaredType.ofName types d.type = o.type) (hRead : o.read field = some v)
    (hHolds : v = .null ∨ ∃ instant, v = .instant instant) (hInstants : v.ReadsBack)
    (label property : String) :
    temporalValue label property v.storage = .ok v ∧
      (declaredModel types).Shows d.type field v (some v) := by
  obtain ⟨type, hValue, x, hWrite⟩ := held_of_read hTyped hRead
  rw [← hOf] at hValue
  rcases hHolds with rfl | ⟨instant, rfl⟩
  · exact ⟨rfl, shows_of_convert hValue (FieldType.convert_null x hWrite)⟩
  · refine ⟨?_, shows_of_convert hValue (FieldType.convert_instant x hWrite)⟩
    change temporalValue label property (.string (Stamp.write instant)) = _
    unfold temporalValue
    dsimp only
    rw [Value.readsBack_instant.1 hInstants]

end

/-- An object of a declared and registered type with unambiguous names, which knows its fields, has a
snapshot, and holds in each field what the field is for. -/
structure DeclaredObject.Storable (types : List DeclaredType) (strategy : KeyStrategy) (d : TypeDescriptor)
    (o : DeclaredObject) (params : Dict Value) (id : Int64) : Prop where
  apartTypes : (types.map (·.name)).Nodup
  declared : o.type ∈ types
  registered : TypeDescriptor.ofDecl strategy o.type.decl = .ok d
  apartNames : (o.type.fields.map (·.decl.name)).Nodup
  apart : d.Apart
  typed : o.Typed
  known : ∀ f ∈ d.fields, f.isStored = true → ∃ v, o.read f.field = some v
  shown : snapshot (declaredModel types) d o = .ok params
  maps : ∀ f ∈ d.propertyMaps, ∃ entries, o.read f.field = some (.map entries) ∧
    Dict.Sorted entries ∧ ∀ e ∈ entries, e.1 ≠ "" ∧ e.2.isNull = false
  temporals : ∀ f ∈ d.fields, f.isTemporal = true →
    o.read f.field = some .null ∨ ∃ instant, o.read f.field = some (.instant instant)
  clear : ∀ f ∈ d.fields, f.isTemporal = false → ∀ type v, o.type.valueType? f.field = some type →
    o.read f.field = some v → type.Clear v
  /-- Where the database assigns keys, its number is the key. -/
  numbered : strategy.isNative = true → ∀ pk, d.key? = some pk → o.read pk.field = some (.int id)

/-- The instants in the values of an object are regular. -/
def DeclaredObject.Regular (o : DeclaredObject) (d : TypeDescriptor) : Prop :=
  ∀ f ∈ d.fields, ∀ v, o.read f.field = some v → ∀ instant ∈ v.instants, instant.Regular

/-- An object that is filled from what was stored of another one holds the same values in its key, its
scalar fields and its property maps. -/
def DeclaredObject.ReadsBack (types : List DeclaredType) (strategy : KeyStrategy) (d : TypeDescriptor)
    (o : DeclaredObject) (params : Dict Value) (id : Int64) : Prop :=
  ∃ o', populate (declaredModel types) strategy.isNative d id
      (storedProperties (declaredModel types) strategy d o params) ((declaredModel types).fresh d.type) =
        .ok o' ∧
    ∀ f ∈ d.fields, f.isStored = true → o'.read f.field = o.read f.field

/-- What is stored of an object reads back, with the number of the database as its key where the database
assigns keys, if the instants in its values are regular. -/
theorem stored_object_reads_back (types : List DeclaredType) (strategy : KeyStrategy) (d : TypeDescriptor)
    (o : DeclaredObject) (params : Dict Value) (id : Int64)
    (hStorable : o.Storable types strategy d params id) (hRegular : o.Regular d) :
    o.ReadsBack types strategy d params id := by
  obtain ⟨hTypes, ht, hRegistered, hNames, hApart, hTyped, hKnows, hSnapshot, hMaps, hTemporal, hClear,
    hNumber⟩ := hStorable
  have hName : d.type = o.type.name := ofDecl_type hRegistered
  have hOf : DeclaredType.ofName types d.type = o.type := by
    rw [hName]
    exact DeclaredType.ofName_self hTypes ht
  have hDeclared : (o.type.decl.fields.map (·.name)).Nodup := by
    change ((o.type.fields.map (·.decl)).map (·.name)).Nodup
    rw [List.map_map]
    exact hNames
  have hInstants : ∀ f ∈ d.fields, ∀ v, o.read f.field = some v → v.ReadsBack :=
    fun f hf v hRead => Value.readsBack_iff.2 (hRegular f hf v hRead)
  have hRestores : (declaredModel types).Restores strategy d id o := by
    refine ⟨fun f hf hKind => ?_, fun f hf hScalar hNull => ?_, fun hNative pk hPk => ?_, fun f hf => ?_⟩
    · obtain ⟨v, hRead⟩ := hKnows f hf (isStored_iff.2 (.inl hKind))
      change ∃ given, (if f.isTemporal then
          temporalValue d.label f.storage ((o.read f.field).getD .null).storage
        else .ok ((o.read f.field).getD .null).storage) = .ok given ∧
          (declaredModel types).Shows d.type f.field given (o.read f.field)
      rw [hRead, Option.getD_some]
      cases hHolds : f.isTemporal with
      | true =>
          have hInstant := hTemporal f hf hHolds
          simp only [hRead, Option.some.injEq] at hInstant
          exact ⟨v, shows_temporal hTyped hOf hRead hInstant (hInstants f hf v hRead) d.label
            f.storage⟩
      | false =>
          exact ⟨v.storage, rfl, shows_stored hTyped hOf hRead
            (fun type hValue => hClear f hf hHolds type v hValue hRead) (hInstants f hf v hRead)⟩
    · obtain ⟨v, hRead⟩ := hKnows f hf (isStored_iff.2 (.inl (by rw [hScalar]; rfl)))
      change ((o.read f.field).getD .null).isNull = true at hNull
      rw [hRead, Option.getD_some, Value.isNull_iff] at hNull
      subst hNull
      change (DeclaredObject.new (DeclaredType.ofName types d.type)).read f.field = o.read f.field
      have hMem : f.field ∈ o.type.decl.fields.map (·.name) := by
        rw [← (ofDecl_names hRegistered).1]
        exact List.mem_map_of_mem hf
      obtain ⟨_, hDecl, hSame⟩ := List.mem_map.1 hMem
      obtain ⟨g, hg, rfl⟩ := List.mem_map.1 hDecl
      rw [hOf, read_new_of_null hTyped ⟨g, hg, hSame⟩ hRead, hRead]
    · have hf := List.mem_of_find?_eq_some hPk
      have hRead := hNumber hNative pk hPk
      -- A number is no instant, so that the key is given as it is.
      have hPlain : pk.isTemporal = false := by
        by_contra hHolds
        simpa [hRead] using hTemporal pk hf (eq_true_of_ne_false hHolds)
      change (declaredModel types).Shows d.type pk.field (.int id) (o.read pk.field)
      rw [hRead]
      exact shows_stored hTyped hOf hRead
        (fun type hValue => hClear pk hf hPlain type _ hValue hRead) (hInstants pk hf _ hRead)
    · obtain ⟨entries, hRead, hSorted, hNamed⟩ := hMaps f hf
      obtain ⟨hField, hRole⟩ := List.mem_filter.1 hf
      have hPlain : f.isTemporal = false := by
        unfold isTemporal
        rw [eq_of_beq hRole]
      refine ⟨entries, hRead, hSorted, hNamed, ?_⟩
      change (declaredModel types).Shows d.type f.field _ (o.read f.field)
      rw [hRead]
      exact shows_stored hTyped hOf hRead
        (fun type hValue => hClear f hField hPlain type _ hValue hRead) (hInstants f hField _ hRead)
  exact populate_restores hRegistered hDeclared hApart (declaredModel_separates types) hSnapshot hRestores

/-! A film with a title that is absent, instants in a field of its own and in a list, and attributes.  A
release with a whole second in its fraction comes back as one in the next second. -/

namespace Almanac

def film : DeclaredType :=
  ⟨"Film", "Film", none,
    [⟨⟨"uuid", .scalar, "pk"⟩, .value (.option .string)⟩,
      ⟨⟨"title", .scalar, ""⟩, .value (.option .string)⟩,
      ⟨⟨"released", .temporal, ""⟩, .value (.option .datetime)⟩,
      ⟨⟨"showings", .scalar, ""⟩, .value (.list .datetime)⟩,
      ⟨⟨"attrs", .propertyMap, "properties"⟩, .value (.map .any)⟩], false⟩

def descriptor : TypeDescriptor :=
  ⟨"Film", "Film", [⟨"uuid", "uuid", .key false, false, false⟩,
    ⟨"title", "title", .scalar false, false, false⟩,
    ⟨"released", "released", .scalar true, false, false⟩,
    ⟨"showings", "showings", .scalar false, false, false⟩,
    ⟨"attrs", "attrs", .propertyMap, false, false⟩], none⟩

def object (released : Instant) : DeclaredObject where
  type := film
  values := [("attrs", .map [("rating", .string "R")]), ("released", .instant released),
    ("showings", .list [.instant .epoch]), ("title", .null), ("uuid", .string "m")]
  links := []
  ends := ⟨none, none⟩
  hidden := false

def snapshotted (released : String) : Dict Value :=
  [("attrs.rating", .string "R"), ("released", .string released),
    ("showings", .list [.string "1970-01-01T00:00:00.000000000+00:00"]), ("title", .null)]

theorem typed (released : Instant) : (object released).Typed := by
  intro field type v hType hFound
  have hMem := Dict.mem_of_find? hFound
  simp only [object, List.mem_cons, List.not_mem_nil, or_false, Prod.mk.injEq] at hMem
  rcases hMem with ⟨rfl, rfl⟩ | ⟨rfl, rfl⟩ | ⟨rfl, rfl⟩ | ⟨rfl, rfl⟩ | ⟨rfl, rfl⟩ <;> cases hType
  · exact ⟨[("rating", .string "R")], rfl⟩
  · exact ⟨some released, rfl⟩
  · exact ⟨[.epoch], rfl⟩
  · exact ⟨none, rfl⟩
  · exact ⟨some "m", rfl⟩

theorem mem_fields {f : FieldDescriptor} : f ∈ descriptor.fields ↔
    f = ⟨"uuid", "uuid", .key false, false, false⟩ ∨ f = ⟨"title", "title", .scalar false, false, false⟩ ∨
      f = ⟨"released", "released", .scalar true, false, false⟩ ∨
      f = ⟨"showings", "showings", .scalar false, false, false⟩ ∨
      f = ⟨"attrs", "attrs", .propertyMap, false, false⟩ := by
  simp only [descriptor, List.mem_cons, List.not_mem_nil, or_false]

theorem storable (released : Instant) : (object released).Storable [film] Archive.strategy descriptor
    (snapshotted (Stamp.write released)) 1 where
  apartTypes := by decide
  declared := List.mem_cons_self
  registered := by
    change TypeDescriptor.ofDecl Archive.strategy film.decl = .ok descriptor
    rfl
  apartNames := by
    change (film.fields.map (·.decl.name)).Nodup
    decide
  apart := ⟨by decide, by decide⟩
  typed := typed released
  known := by
    intro f hf hStored
    rcases mem_fields.1 hf with rfl | rfl | rfl | rfl | rfl <;> exact ⟨_, rfl⟩
  shown := by rfl
  maps := by
    intro f hf
    obtain ⟨hField, hMap⟩ := List.mem_filter.1 hf
    rcases mem_fields.1 hField with rfl | rfl | rfl | rfl | rfl
    · cases hMap
    · cases hMap
    · cases hMap
    · cases hMap
    · exact ⟨[("rating", .string "R")], rfl, List.pairwise_singleton _ _, by decide⟩
  temporals := by
    intro f hf hTemporal
    rcases mem_fields.1 hf with rfl | rfl | rfl | rfl | rfl
    · cases hTemporal
    · cases hTemporal
    · exact .inr ⟨released, rfl⟩
    · cases hTemporal
    · cases hTemporal
  clear := by
    intro f hf hPlain type v hType hRead
    rcases mem_fields.1 hf with rfl | rfl | rfl | rfl | rfl <;> cases hType <;> cases hRead
    · trivial
    · trivial
    · cases hPlain
    · exact fun items _ x _ => trivial
    · rintro entries ⟨⟩ e he
      rw [List.mem_singleton.1 he]
      rfl
  numbered := by
    intro hNative
    cases hNative

theorem regular {released : Instant} (h : released.Regular) : (object released).Regular descriptor := by
  intro f hf v hRead instant hMem
  rcases mem_fields.1 hf with rfl | rfl | rfl | rfl | rfl <;> cases hRead
  · cases hMem
  · cases hMem
  · rw [List.mem_singleton.1 hMem]
    exact h
  · rw [List.mem_singleton.1 hMem]
    decide
  · cases hMem

end Almanac

theorem film_reads_back :
    Stamp.write .epoch = "1970-01-01T00:00:00.000000000+00:00" ∧
      (Almanac.object .epoch).Storable [Almanac.film] Archive.strategy Almanac.descriptor
        (Almanac.snapshotted (Stamp.write .epoch)) 1 ∧
      (Almanac.object .epoch).Regular Almanac.descriptor ∧
      (Almanac.object .epoch).ReadsBack [Almanac.film] Archive.strategy Almanac.descriptor
        (Almanac.snapshotted (Stamp.write .epoch)) 1 := by
  have hStorable := Almanac.storable .epoch
  have hRegular : (Almanac.object .epoch).Regular Almanac.descriptor := Almanac.regular (by decide)
  exact ⟨by decide, hStorable, hRegular, stored_object_reads_back _ _ _ _ _ _ hStorable hRegular⟩

/-- The release of a film that is stored as it should be comes back as another time. -/
theorem overlong_release_moves :
    (Almanac.object .overlong).Storable [Almanac.film] Archive.strategy Almanac.descriptor
        (Almanac.snapshotted "1970-01-01T00:16:05.333333333+00:00") 1 ∧
      ¬ (Almanac.object .overlong).ReadsBack [Almanac.film] Archive.strategy Almanac.descriptor
        (Almanac.snapshotted "1970-01-01T00:16:05.333333333+00:00") 1 := by
  refine ⟨Almanac.storable .overlong, ?_⟩
  rintro ⟨o', hFilled, hSame⟩
  cases hFilled
  have hMoved := hSame ⟨"released", "released", .scalar true, false, false⟩
    (Almanac.mem_fields.2 (.inr (.inr (.inl rfl)))) rfl
  cases hMoved

end GraphMapping
