import GraphMapping.Proofs.Results
import GraphMapping.Proofs.Schema.Changes
import GraphMapping.Proofs.Schema.Order

/-!
# The schema inside a database

A catalog holds the constraints and the indexes of a database.  Statements change it, and it is listed row by
row: every constraint together with the index that backs it, and lookup indexes among the others.  Dropping
whatever is listed leaves the lookup indexes only; creating items then adds each of them once, and the listing
shows just these.
-/

namespace GraphMapping

/-- A constraint or an index in a database. -/
structure StoredItem where
  name : String
  kind : String
  /-- `NODE`, or another word for what is constrained or indexed. -/
  entity : String
  labels : List String
  properties : List String
  /-- The name of the index that backs a constraint, if there is one. -/
  backing : Option String
deriving DecidableEq, Repr

/-- The word by which a database calls the items of a kind. -/
def SchemaKind.word : SchemaKind → String
  | .unique => "UNIQUENESS"
  | .index => "RANGE"

/-- Every part of the item is used by its constraint or index. -/
structure SchemaItem.Proper (item : SchemaItem) : Prop where
  some_property : item.properties ≠ []
  one_property : item.kind = .unique → ∃ property, item.properties = [property]

namespace StoredItem

/-- The item in the database is the described one, whatever its name. -/
def Is (i : StoredItem) (item : SchemaItem) : Prop :=
  i.kind = item.kind.word ∧ i.entity = "NODE" ∧ i.labels = [item.label] ∧ i.properties = item.properties

instance (i : StoredItem) (item : SchemaItem) : Decidable (i.Is item) :=
  inferInstanceAs (Decidable (_ ∧ _ ∧ _ ∧ _))

/-- Whether the item is a token lookup index. -/
def isLookup (i : StoredItem) : Bool :=
  i.kind == "LOOKUP"

/-- Names in a row.  Where there are none the row has null. -/
def shown : List String → Value
  | [] => .null
  | names => .list (names.map .string)

/-- The row that lists an item. -/
def row (i : StoredItem) : Record :=
  [("entityType", .string i.entity), ("labelsOrTypes", shown i.labels), ("name", .string i.name),
    ("properties", shown i.properties), ("type", .string i.kind)]

/-- The row that lists an index, with the name of the constraint that owns it. -/
def indexRow (i : StoredItem) (owner : Option String) : Record :=
  Dict.insert i.row "owningConstraint" (match owner with
    | some name => .string name
    | none => .null)

/-- The row that lists the index behind a constraint. -/
def backingRow (i : StoredItem) : Option Record :=
  i.backing.map fun name => indexRow { i with name := name, kind := SchemaKind.word .index } i.name

/-- The item in a database that is described so. -/
def new (item : SchemaItem) (name : String) (backing : Option String) : StoredItem :=
  ⟨name, item.kind.word, "NODE", [item.label], item.properties, backing⟩

/-- What the row of an item says. -/
def listed (isConstraint : Bool) (i : StoredItem) : LiveItem :=
  ⟨i.name, i.kind, LiveItem.comparable isConstraint i.kind (i.entity == "NODE") i.labels i.properties,
    isConstraint⟩

end StoredItem

/-- The constraints and indexes of a database. -/
structure Catalog where
  constraints : List StoredItem
  /-- All indexes but those behind constraints. -/
  indexes : List StoredItem
deriving DecidableEq, Repr

/-- What a database is free to choose.  Names of new items are fresh as a rule, but nothing depends on it. -/
structure Habits where
  /-- The name of a new item. -/
  name : Catalog → SchemaItem → String
  /-- The name of the index behind a new constraint. -/
  backing : Catalog → SchemaItem → String
  /-- The order of the rows in a listing. -/
  order : List Record → List Record
  name_controlFree : ∀ c item, ControlFree (name c item)
  order_perm : ∀ rows, (order rows).Perm rows

namespace Catalog

/-- The indexes other than lookup indexes. -/
def standing (c : Catalog) : List StoredItem :=
  c.indexes.filter (!·.isLookup)

/-- The lookup indexes. -/
def lookups (c : Catalog) : List StoredItem :=
  c.indexes.filter (·.isLookup)

/-- The constraints, or the indexes other than lookup indexes. -/
def of (c : Catalog) : SchemaKind → List StoredItem
  | .unique => c.constraints
  | .index => c.standing

/-- Drop what has the name.  Lookup indexes stay. -/
def drop (c : Catalog) (isConstraint : Bool) (name : String) : Catalog :=
  if isConstraint then { c with constraints := c.constraints.filter (·.name != name) }
  else { c with indexes := c.indexes.filter fun i => i.isLookup || i.name != name }

/-- Add an item. -/
def add (h : Habits) (c : Catalog) (item : SchemaItem) : Catalog :=
  match item.kind with
  | .unique => { c with constraints :=
      c.constraints ++ [.new item (h.name c item) (some (h.backing c item))] }
  | .index => { c with indexes := c.indexes ++ [.new item (h.name c item) none] }

/-- Change a catalog: an item is created unless there is an equal one. -/
def apply (h : Habits) (c : Catalog) : Change → Catalog
  | .drop isConstraint name => c.drop isConstraint name
  | .create item => if ∃ i ∈ c.of item.kind, i.Is item then c else c.add h item

/-- Make changes one after the other. -/
def applyAll (h : Habits) (c : Catalog) (changes : List Change) : Catalog :=
  changes.foldl (apply h) c

/-- The rows that list the constraints. -/
def constraintRows (c : Catalog) : List Record :=
  c.constraints.map (·.row)

/-- The rows that list the indexes, those behind constraints before the others. -/
def indexRows (c : Catalog) : List Record :=
  c.constraints.filterMap (·.backingRow) ++ c.indexes.map (·.indexRow none)

/-- The schema is what a listing shows, in some order. -/
structure Lists (c : Catalog) (schema : LiveSchema) : Prop where
  constraints : schema.constraints.Perm (c.constraints.map (·.listed true))
  indexes : schema.indexes.Perm (c.standing.map (·.listed false))

/-- Names can be quoted. -/
def Readable (c : Catalog) : Prop :=
  ∀ kind, ∀ i ∈ c.of kind, ControlFree i.name

/-- The catalog has one item for each of these, in their order, and no others. -/
def Holds (c : Catalog) (items : List SchemaItem) : Prop :=
  ∀ kind, List.Forall₂ StoredItem.Is (c.of kind) (items.filter (·.kind = kind))

end Catalog

/-- The change that drops a listed item. -/
def LiveItem.dropped (i : LiveItem) : Change :=
  .drop i.isConstraint i.name

section

variable {c : Catalog} {h : Habits} {i : StoredItem} {item other : SchemaItem} {items done : List SchemaItem}
  {schema : LiveSchema} {rows rows' : List Record}

/-! ## Listings -/

namespace StoredItem

theorem string?_shown (names : List String) :
    (match some (shown names) with
      | some (.list items) => items.filterMap Value.string?
      | _ => []) = names := by
  cases names with
  | nil => rfl
  | cons name more =>
      have hBack : ∀ names : List String, (names.map Value.string).filterMap Value.string? = names := by
        intro names
        rw [List.filterMap_map]
        exact List.filterMap_some
      exact hBack (name :: more)

theorem find?_indexRow {column : String} (hColumn : column ≠ "owningConstraint") (owner : Option String) :
    Dict.find? (i.indexRow owner) column = Dict.find? i.row column :=
  Dict.find?_insert_of_ne _ _ hColumn

/-- A row is read by its columns alone. -/
theorem ofRow_eq {row : Record} {isConstraint : Bool}
    (hColumns : ∀ column, column ≠ "owningConstraint" → Dict.find? row column = Dict.find? i.row column) :
    LiveItem.ofRow isConstraint row = .ok (i.listed isConstraint) := by
  have hName : row.string? "name" = some i.name := by
    unfold Record.string?
    rw [hColumns _ (by decide)]
    rfl
  have hKind : row.string? "type" = some i.kind := by
    unfold Record.string?
    rw [hColumns _ (by decide)]
    rfl
  have hEntity : row.string? "entityType" = some i.entity := by
    unfold Record.string?
    rw [hColumns _ (by decide)]
    rfl
  have hLabels : row.strings "labelsOrTypes" = i.labels := by
    unfold Record.strings
    rw [hColumns _ (by decide)]
    exact string?_shown i.labels
  have hProperties : row.strings "properties" = i.properties := by
    unfold Record.strings
    rw [hColumns _ (by decide)]
    exact string?_shown i.properties
  unfold LiveItem.ofRow
  simp only [hName, hKind, hEntity, hLabels, hProperties]
  rfl

theorem standsAlone_indexRow (owner : Option String) :
    LiveSchema.standsAlone (i.indexRow owner) = (!i.isLookup && owner.isNone) := by
  have hKind : Record.string? (i.indexRow owner) "type" = some i.kind := by
    unfold Record.string?
    rw [find?_indexRow (by decide)]
    rfl
  have hOwner : (Record.string? (i.indexRow owner) "owningConstraint").isNone = owner.isNone := by
    unfold Record.string? indexRow
    rw [Dict.find?_insert_self]
    cases owner <;> rfl
  unfold LiveSchema.standsAlone isLookup
  rw [hKind, hOwner]
  rfl

theorem Is.unique (hItem : i.Is item) (hOther : i.Is other) : item = other := by
  obtain ⟨kind, label, properties⟩ := item
  obtain ⟨kind', label', properties'⟩ := other
  obtain ⟨hKind, -, hLabel, hProperties⟩ := hItem
  obtain ⟨hKind', -, hLabel', hProperties'⟩ := hOther
  have hSame : kind = kind' := by
    have hWords : kind.word = kind'.word := hKind.symm.trans hKind'
    cases kind <;> cases kind' <;> first | rfl | exact absurd hWords (by decide)
  cases hSame
  cases hLabel.symm.trans hLabel'
  cases hProperties.symm.trans hProperties'
  rfl

/-- The row of a described item says which item it is. -/
theorem Is.listed (hItem : i.Is item) (hProper : item.Proper) :
    (i.listed (item.kind == .unique)).item = some item := by
  obtain ⟨kind, label, properties⟩ := item
  obtain ⟨hKind, hEntity, hLabels, hProperties⟩ := hItem
  unfold StoredItem.listed LiveItem.comparable
  simp only [hKind, hEntity, hLabels, hProperties]
  cases kind with
  | unique =>
      obtain ⟨property, hOne⟩ := hProper.one_property rfl
      obtain rfl : properties = [property] := hOne
      rfl
  | index =>
      obtain ⟨property, more, hMore⟩ := List.exists_cons_of_ne_nil hProper.some_property
      obtain rfl : properties = property :: more := hMore
      rfl

end StoredItem

namespace Catalog

/-- The indexes behind constraints and lookup indexes are passed over. -/
theorem filter_indexRows :
    c.indexRows.filter LiveSchema.standsAlone = c.standing.map (·.indexRow none) := by
  have hBacking : (c.constraints.filterMap (·.backingRow)).filter LiveSchema.standsAlone = [] := by
    refine List.filter_eq_nil_iff.2 fun row hRow => ?_
    obtain ⟨i, -, hRow⟩ := List.mem_filterMap.1 hRow
    obtain ⟨name, -, rfl⟩ := Option.map_eq_some_iff.1 hRow
    rw [StoredItem.standsAlone_indexRow]
    simp
  have hAlone : LiveSchema.standsAlone ∘ (fun i : StoredItem => i.indexRow none) = (!·.isLookup) := by
    funext i
    rw [Function.comp_apply, StoredItem.standsAlone_indexRow]
    simp
  unfold indexRows standing
  rw [List.filter_append, hBacking, List.nil_append, List.filter_map, hAlone]

/-- The rows of a catalog are read, in whatever order they come. -/
theorem ofRows_lists (hRows : rows.Perm c.constraintRows) (hRows' : rows'.Perm c.indexRows) :
    ∃ schema, LiveSchema.ofRows rows rows' = .ok schema ∧ c.Lists schema := by
  have hConstraints : c.constraintRows.mapM (LiveItem.ofRow true) =
      .ok (c.constraints.map (·.listed true)) :=
    mapM_eq_ok.2 (List.forall₂_map_left_iff.2 (List.forall₂_map_right_iff.2
      (List.forall₂_same.2 fun i _ => StoredItem.ofRow_eq fun _ _ => rfl)))
  have hIndexes : (c.indexRows.filter LiveSchema.standsAlone).mapM (LiveItem.ofRow false) =
      .ok (c.standing.map (·.listed false)) := by
    rw [filter_indexRows]
    exact mapM_eq_ok.2 (List.forall₂_map_left_iff.2 (List.forall₂_map_right_iff.2
      (List.forall₂_same.2 fun i _ => StoredItem.ofRow_eq fun _ hColumn =>
        StoredItem.find?_indexRow hColumn none)))
  obtain ⟨constraints, hRead, hSame⟩ := mapM_perm hRows hConstraints
  obtain ⟨indexes, hRead', hSame'⟩ := mapM_perm (hRows'.filter LiveSchema.standsAlone) hIndexes
  exact ⟨⟨constraints, indexes⟩, bind_eq_ok.2 ⟨_, hRead, bind_eq_ok.2 ⟨_, hRead', rfl⟩⟩, hSame, hSame'⟩

theorem Lists.mem (hLists : c.Lists schema) {live : LiveItem} : live ∈ schema.items ↔
    ∃ kind, ∃ i ∈ c.of kind, i.listed (kind == .unique) = live := by
  unfold LiveSchema.items
  rw [List.mem_append, hLists.constraints.mem_iff, hLists.indexes.mem_iff, List.mem_map, List.mem_map]
  constructor
  · rintro (hThere | hThere)
    · exact ⟨.unique, hThere⟩
    · exact ⟨.index, hThere⟩
  · rintro ⟨_ | _, hThere⟩
    · exact .inl hThere
    · exact .inr hThere

/-- Listed names are those of the catalog. -/
theorem Lists.controlFree (hLists : c.Lists schema) (hReadable : c.Readable) :
    ∀ live ∈ schema.items, ControlFree live.name := by
  intro live hLive
  obtain ⟨kind, i, hi, rfl⟩ := hLists.mem.1 hLive
  exact hReadable kind i hi

/-- If a catalog has just some items, just these are listed. -/
theorem Holds.item_listed (hHolds : c.Holds items) (hProper : ∀ item ∈ items, item.Proper)
    (hLists : c.Lists schema) :
    (∀ live ∈ schema.items, ∃ item ∈ items, live.item = some item) ∧
      ∀ item ∈ items, ∃ live ∈ schema.items, live.item = some item := by
  constructor
  · intro live hLive
    obtain ⟨kind, i, hi, rfl⟩ := hLists.mem.1 hLive
    obtain ⟨item, hOfKind, hIs⟩ := (exists_of_forall₂ (hHolds kind)).1 i hi
    obtain ⟨hItem, hKind⟩ := List.mem_filter.1 hOfKind
    obtain rfl : item.kind = kind := of_decide_eq_true hKind
    exact ⟨item, hItem, hIs.listed (hProper item hItem)⟩
  · intro item hItem
    obtain ⟨i, hi, hIs⟩ := (exists_of_forall₂ (hHolds item.kind)).2 item
      (List.mem_filter.2 ⟨hItem, decide_eq_true rfl⟩)
    exact ⟨_, hLists.mem.2 ⟨item.kind, i, hi, rfl⟩, hIs.listed (hProper item hItem)⟩

/-- What is managed is what the catalog has. -/
theorem Holds.managed (hHolds : c.Holds items) (hProper : ∀ item ∈ items, item.Proper)
    (hAscending : SchemaItem.Ascending items) (hLists : c.Lists schema) : schema.managed = items := by
  obtain ⟨hBack, hForth⟩ := hHolds.item_listed hProper hLists
  refine (SchemaItem.sorted_ascending _).ext hAscending fun item => ?_
  rw [SchemaItem.mem_sorted, List.mem_filterMap]
  constructor
  · rintro ⟨live, hLive, hItem⟩
    obtain ⟨item', hItem', hSame⟩ := hBack live hLive
    cases hItem.symm.trans hSame
    exact hItem'
  · exact hForth item

/-! ## Changes -/

/-- The lookup indexes alone. -/
def bare (c : Catalog) : Catalog :=
  ⟨[], c.lookups⟩

@[simp] theorem of_bare (kind : SchemaKind) : c.bare.of kind = [] := by
  cases kind with
  | unique => rfl
  | index =>
      refine List.filter_eq_nil_iff.2 fun i hi => ?_
      simp [(List.mem_filter.1 hi).2]

@[simp] theorem lookups_bare : c.bare.lookups = c.lookups := by
  unfold bare lookups
  rw [List.filter_filter]
  simp

@[simp] theorem lookups_drop (isConstraint : Bool) (name : String) :
    (c.drop isConstraint name).lookups = c.lookups := by
  unfold drop lookups
  cases isConstraint with
  | true => rfl
  | false =>
      simp only [Bool.false_eq_true, if_false, List.filter_filter]
      refine List.filter_congr fun i _ => ?_
      cases i.isLookup <;> simp

/-- What is left was there before and has another name, if it is of the kind that was dropped. -/
theorem mem_of_drop {isConstraint : Bool} {name : String} {kind : SchemaKind}
    (hi : i ∈ (c.drop isConstraint name).of kind) :
    i ∈ c.of kind ∧ (isConstraint = (kind == .unique) → name ≠ i.name) := by
  unfold drop at hi
  cases isConstraint <;> cases kind
  · exact ⟨hi, nofun⟩
  · obtain ⟨hi, hStands⟩ := List.mem_filter.1 hi
    obtain ⟨hi, hName⟩ := List.mem_filter.1 hi
    refine ⟨List.mem_filter.2 ⟨hi, hStands⟩, fun _ hSame => ?_⟩
    simp only [Bool.not_eq_true'] at hStands
    simp [hStands, hSame] at hName
  · obtain ⟨hi, hName⟩ := List.mem_filter.1 hi
    exact ⟨hi, fun _ hSame => by simp [hSame] at hName⟩
  · exact ⟨hi, nofun⟩

/-- What dropping leaves was there before, and has none of the dropped names; lookup indexes stay. -/
theorem applyAll_dropped (lives : List LiveItem) :
    (c.applyAll h (lives.map LiveItem.dropped)).lookups = c.lookups ∧
      ∀ kind, ∀ i ∈ (c.applyAll h (lives.map LiveItem.dropped)).of kind, i ∈ c.of kind ∧
        ∀ live ∈ lives, live.isConstraint = (kind == .unique) → live.name ≠ i.name := by
  induction lives generalizing c with
  | nil => exact ⟨rfl, fun _ i hi => ⟨hi, fun live hLive => absurd hLive List.not_mem_nil⟩⟩
  | cons live rest ih =>
      obtain ⟨hLookups, hLeft⟩ := @ih (c.drop live.isConstraint live.name)
      refine ⟨hLookups.trans (lookups_drop _ _), fun kind i hi => ?_⟩
      obtain ⟨hi, hNames⟩ := hLeft kind i hi
      obtain ⟨hi, hName⟩ := mem_of_drop hi
      exact ⟨hi, List.forall_mem_cons.2 ⟨hName, hNames⟩⟩

/-- Once all that is listed is dropped, lookup indexes are left. -/
theorem Lists.applyAll_dropped (hLists : c.Lists schema) :
    c.applyAll h (schema.items.map LiveItem.dropped) = c.bare := by
  obtain ⟨hLookups, hLeft⟩ := @Catalog.applyAll_dropped c h schema.items
  generalize c.applyAll h (schema.items.map LiveItem.dropped) = left at hLookups hLeft ⊢
  have hNone : ∀ kind, left.of kind = [] := by
    intro kind
    refine List.eq_nil_iff_forall_not_mem.2 fun i hi => ?_
    obtain ⟨hi, hNames⟩ := hLeft kind i hi
    exact hNames _ (hLists.mem.2 ⟨kind, i, hi, rfl⟩) rfl rfl
  have hAll : left.lookups = left.indexes := by
    refine List.filter_eq_self.2 fun i hi => ?_
    have hStands := List.filter_eq_nil_iff.1 (hNone .index) i hi
    simpa using hStands
  unfold bare
  rw [← hLookups, hAll, ← show left.constraints = [] from hNone .unique]

theorem of_add (kind : SchemaKind) : ∃ backing, (c.add h item).of kind =
    if item.kind = kind then c.of kind ++ [.new item (h.name c item) backing] else c.of kind := by
  obtain ⟨itemKind, label, properties⟩ := item
  unfold add
  cases itemKind <;> cases kind
  · exact ⟨_, rfl⟩
  · exact ⟨none, rfl⟩
  · exact ⟨none, rfl⟩
  · refine ⟨none, ?_⟩
    simp only [of, standing, if_true, List.filter_append]
    rfl

@[simp] theorem lookups_add : (c.add h item).lookups = c.lookups := by
  obtain ⟨kind, label, properties⟩ := item
  unfold add
  cases kind with
  | unique => rfl
  | index =>
      simp only [lookups, List.filter_append]
      exact List.append_nil _

/-- An item that is not there yet is added once. -/
theorem Holds.create (hHolds : c.Holds done) (hNew : item ∉ done) :
    (c.apply h (.create item)).Holds (done ++ [item]) ∧
      (c.apply h (.create item)).lookups = c.lookups := by
  have hAbsent : ¬ ∃ i ∈ c.of item.kind, i.Is item := by
    rintro ⟨i, hi, hIs⟩
    obtain ⟨old, hOld, hIsOld⟩ := (exists_of_forall₂ (hHolds item.kind)).1 i hi
    cases hIs.unique hIsOld
    exact hNew (List.mem_filter.1 hOld).1
  have hApply : c.apply h (.create item) = c.add h item := if_neg hAbsent
  rw [hApply]
  refine ⟨fun kind => ?_, lookups_add⟩
  obtain ⟨backing, hOf⟩ := @of_add c h item kind
  rw [hOf, List.filter_append, List.filter_singleton]
  by_cases hKind : item.kind = kind
  · simp only [hKind, if_true, decide_true, Bool.cond_true]
    exact List.rel_append (hHolds kind) (.cons ⟨rfl, rfl, rfl, rfl⟩ .nil)
  · simp only [hKind, if_false, decide_false, Bool.cond_false, List.append_nil]
    exact hHolds kind

theorem Holds.createAll (hHolds : c.Holds done) (hNodup : (done ++ items).Nodup) :
    (c.applyAll h (items.map .create)).Holds (done ++ items) ∧
      (c.applyAll h (items.map .create)).lookups = c.lookups := by
  induction items generalizing c done with
  | nil =>
      rw [List.append_nil]
      exact ⟨hHolds, rfl⟩
  | cons item rest ih =>
      have hNew : item ∉ done := fun hMem =>
        (List.nodup_append.1 hNodup).2.2 item hMem item List.mem_cons_self rfl
      obtain ⟨hHere, hLookups⟩ := hHolds.create (h := h) hNew
      rw [List.append_cons] at hNodup ⊢
      obtain ⟨hAll, hLookups'⟩ := ih hHere hNodup
      exact ⟨hAll, hLookups'.trans hLookups⟩

/-- Items created where there are only lookup indexes are what the catalog has then. -/
theorem bare_createAll (hNodup : items.Nodup) :
    (c.bare.applyAll h (items.map .create)).Holds items ∧
      (c.bare.applyAll h (items.map .create)).lookups = c.lookups := by
  have hNone : c.bare.Holds [] := fun kind => by
    simp
  obtain ⟨hHolds, hLookups⟩ := hNone.createAll (h := h) hNodup
  exact ⟨hHolds, hLookups.trans lookups_bare⟩

theorem Readable.add (hReadable : c.Readable) : (c.add h item).Readable := by
  intro kind i hi
  obtain ⟨backing, hOf⟩ := @of_add c h item kind
  rw [hOf] at hi
  split at hi
  · rcases List.mem_append.1 hi with hi | hi
    · exact hReadable kind i hi
    · rw [List.mem_singleton.1 hi]
      exact h.name_controlFree c item
  · exact hReadable kind i hi

/-- Names stay such that they can be quoted. -/
theorem Readable.createAll (hReadable : c.Readable) : (c.applyAll h (items.map .create)).Readable := by
  induction items generalizing c with
  | nil => exact hReadable
  | cons item rest ih =>
      have hHere : (c.apply h (.create item)).Readable := by
        unfold apply
        dsimp only
        split
        · exact hReadable
        · exact hReadable.add
      exact ih hHere

theorem bare_readable : c.bare.Readable := fun kind i hi => by
  simp at hi

end Catalog

end

end GraphMapping
