import GraphMapping.Proofs.Database.Returns
import GraphMapping.Proofs.Schema.Order
import GraphMapping.Schema.Reconcile

/-!
# Differences between declared and listed items

What the rows of a listing say of an item does not depend on the other rows.  So a listing manages a set of
items, and checking a schema compares this set with the declared one: it passes if they are equal, and else
names what is in one of them only.  Rows that describe no item, further copies of a row, and the order of the
rows make no difference.
-/

namespace GraphMapping

open GraphMapping.Action

/-! ## What a listing says -/

namespace Record

/-- The row is about nodes of one label, and about properties of these.  A row that does not say what it is
about is about nodes. -/
structure OnNodes (row : Record) (label : String) (properties : List String) : Prop where
  entity : row.string? "entityType" = none ∨ row.string? "entityType" = some "NODE"
  label : row.strings "labelsOrTypes" = [label]
  properties : row.strings "properties" = properties

/-- The row lists a uniqueness constraint on one property. -/
def ListsUnique (row : Record) (label property : String) : Prop :=
  row.OnNodes label [property] ∧
    ∃ kind, row.string? "type" = some kind ∧ "UNIQUENESS".toList <:+: kind.toList

/-- The row lists a plain index on some properties that no constraint owns; so it is no lookup index. -/
def ListsIndex (row : Record) (label : String) (properties : List String) : Prop :=
  row.OnNodes label properties ∧ properties ≠ [] ∧
    (row.string? "type" = some "RANGE" ∨ row.string? "type" = some "BTREE") ∧
    row.string? "owningConstraint" = none

end Record

/-- The rows of both listings. -/
structure Listing where
  constraints : List Record
  indexes : List Record

namespace Listing

/-- Every row has a name. -/
def Named (l : Listing) : Prop :=
  ∀ row ∈ l.constraints ++ l.indexes, (row.string? "name").isSome

/-- The items that rows of a listing describe. -/
inductive Manages (l : Listing) : SchemaItem → Prop
  | unique {row : Record} {label property : String} (hRow : row ∈ l.constraints)
      (hLists : row.ListsUnique label property) : Manages l ⟨.unique, label, [property]⟩
  | index {row : Record} {label : String} {properties : List String} (hRow : row ∈ l.indexes)
      (hLists : row.ListsIndex label properties) : Manages l ⟨.index, label, properties⟩

/-- Two listings have the same rows among those that describe an item. -/
structure Alike (l l' : Listing) : Prop where
  unique : ∀ row label property, Record.ListsUnique row label property →
    (row ∈ l.constraints ↔ row ∈ l'.constraints)
  index : ∀ row label properties, Record.ListsIndex row label properties →
    (row ∈ l.indexes ↔ row ∈ l'.indexes)

end Listing

/-- Ask for both listings in one transaction. -/
def Schema.listing {δ : Type} (server : Server δ) : Action δ (List Record × List Record) :=
  server.transaction do
    let constraints ← server.run LiveSchema.showConstraints
    let indexes ← server.run LiveSchema.showIndexes
    return (constraints, indexes)

theorem Text.occursIn_iff {needle cs : List Char} : Text.occursIn needle cs = true ↔ needle <:+: cs := by
  induction cs with
  | nil => simp [Text.occursIn]
  | cons c rest ih => rw [Text.occursIn, Bool.or_eq_true, ih, List.isPrefixOf_iff_prefix, List.infix_cons_iff]

section

variable {row : Record} {live : LiveItem} {item : SchemaItem} {label kind : String}
  {labels properties : List String} {onNodes : Bool}

namespace LiveItem

theorem comparable_constraint : comparable true kind onNodes labels properties = some item ↔
    ∃ label property, (onNodes = true ∧ labels = [label] ∧ properties = [property]) ∧
      "UNIQUENESS".toList <:+: kind.toList ∧ item = ⟨.unique, label, [property]⟩ := by
  rw [← Text.occursIn_iff]
  unfold comparable
  split
  · rename_i label property more
    cases more with
    | nil => simpa using fun _ => eq_comm
    | cons next more => simp
  · rename_i hOther
    constructor
    · intro h
      cases h
    · rintro ⟨label, property, ⟨rfl, rfl, rfl⟩, -⟩
      exact absurd rfl (hOther label property [] rfl rfl)

theorem comparable_index : comparable false kind onNodes labels properties = some item ↔
    ∃ label, (onNodes = true ∧ labels = [label]) ∧ properties ≠ [] ∧ (kind = "RANGE" ∨ kind = "BTREE") ∧
      item = ⟨.index, label, properties⟩ := by
  unfold comparable
  split
  · simpa using fun _ => eq_comm
  · rename_i hOther
    constructor
    · intro h
      cases h
    · rintro ⟨label, ⟨rfl, rfl⟩, hSome, -⟩
      obtain ⟨property, more, rfl⟩ := List.exists_cons_of_ne_nil hSome
      exact absurd rfl (hOther label property more rfl rfl)

/-- A row that says nothing of entities is about nodes. -/
theorem onNodes_iff : ((row.string? "entityType").map (· == "NODE")).getD true = true ↔
    row.string? "entityType" = none ∨ row.string? "entityType" = some "NODE" := by
  cases row.string? "entityType" <;> simp

theorem item_of_row {isConstraint : Bool} (h : ofRow isConstraint row = .ok live) :
    live.item = comparable isConstraint ((row.string? "type").getD "")
      (((row.string? "entityType").map (· == "NODE")).getD true) (row.strings "labelsOrTypes")
      (row.strings "properties") := by
  unfold ofRow at h
  split at h
  · cases h
  · cases h
    rfl

theorem item_of_constraint (h : ofRow true row = .ok live) : live.item = some item ↔
    ∃ label property, row.ListsUnique label property ∧ item = ⟨.unique, label, [property]⟩ := by
  have hKind : "UNIQUENESS".toList <:+: ((row.string? "type").getD "").toList ↔
      ∃ kind, row.string? "type" = some kind ∧ "UNIQUENESS".toList <:+: kind.toList := by
    cases row.string? "type" <;> simp
  rw [item_of_row h, comparable_constraint]
  simp only [onNodes_iff, hKind]
  constructor
  · rintro ⟨label, property, ⟨hEntity, hLabel, hProperties⟩, hWord, rfl⟩
    exact ⟨label, property, ⟨⟨hEntity, hLabel, hProperties⟩, hWord⟩, rfl⟩
  · rintro ⟨label, property, ⟨⟨hEntity, hLabel, hProperties⟩, hWord⟩, rfl⟩
    exact ⟨label, property, ⟨hEntity, hLabel, hProperties⟩, hWord, rfl⟩

theorem item_of_index (h : ofRow false row = .ok live)
    (hOwner : row.string? "owningConstraint" = none) : live.item = some item ↔
    ∃ label properties, row.ListsIndex label properties ∧ item = ⟨.index, label, properties⟩ := by
  have hKind : ((row.string? "type").getD "" = "RANGE" ∨ (row.string? "type").getD "" = "BTREE") ↔
      (row.string? "type" = some "RANGE" ∨ row.string? "type" = some "BTREE") := by
    cases row.string? "type" <;> simp
  rw [item_of_row h, comparable_index]
  simp only [onNodes_iff, hKind]
  constructor
  · rintro ⟨label, ⟨hEntity, hLabel⟩, hSome, hWord, rfl⟩
    exact ⟨label, _, ⟨⟨hEntity, hLabel, rfl⟩, hSome, hWord, hOwner⟩, rfl⟩
  · rintro ⟨label, properties, ⟨⟨hEntity, hLabel, rfl⟩, hSome, hWord, -⟩, rfl⟩
    exact ⟨label, ⟨hEntity, hLabel⟩, hSome, hWord, rfl⟩

theorem ofRow_total {isConstraint : Bool} (h : (row.string? "name").isSome) :
    ∃ live, ofRow isConstraint row = .ok live := by
  obtain ⟨name, hName⟩ := Option.isSome_iff_exists.1 h
  unfold ofRow
  rw [hName]
  exact ⟨_, rfl⟩

end LiveItem

namespace LiveSchema

theorem standsAlone_iff : standsAlone row = true ↔
    row.string? "type" ≠ some "LOOKUP" ∧ row.string? "owningConstraint" = none := by
  simp [standsAlone]

theorem standsAlone_of_lists (h : row.ListsIndex label properties) : standsAlone row = true := by
  obtain ⟨-, -, hWord, hOwner⟩ := h
  refine standsAlone_iff.2 ⟨fun hLookup => ?_, hOwner⟩
  rw [hLookup] at hWord
  revert hWord
  decide

end LiveSchema

end

/-! ## What is managed -/

namespace Listing

variable {l l' : Listing} {schema : LiveSchema} {item : SchemaItem}

/-- A listing in which every row has a name can be read. -/
theorem Named.ofRows (h : l.Named) : ∃ schema, LiveSchema.ofRows l.constraints l.indexes = .ok schema := by
  have hConstraints : ∀ row ∈ l.constraints, ∃ live, LiveItem.ofRow true row = .ok live :=
    fun row hRow => LiveItem.ofRow_total (h row (List.mem_append_left _ hRow))
  have hIndexes : ∀ row ∈ l.indexes.filter LiveSchema.standsAlone,
      ∃ live, LiveItem.ofRow false row = .ok live :=
    fun row hRow => LiveItem.ofRow_total (h row (List.mem_append_right _ (List.mem_filter.1 hRow).1))
  obtain ⟨constraints, hConstraints⟩ := mapM_total hConstraints
  obtain ⟨indexes, hIndexes⟩ := mapM_total hIndexes
  exact ⟨⟨constraints, indexes⟩, bind_eq_ok.2 ⟨_, hConstraints, bind_eq_ok.2 ⟨_, hIndexes, rfl⟩⟩⟩

/-- The managed items of a schema are those that its rows describe. -/
theorem mem_managed (h : LiveSchema.ofRows l.constraints l.indexes = .ok schema) :
    item ∈ schema.managed ↔ l.Manages item := by
  obtain ⟨constraints, hConstraints, h⟩ := bind_eq_ok.1 h
  obtain ⟨indexes, hIndexes, h⟩ := bind_eq_ok.1 h
  cases h
  obtain ⟨hOfConstraint, hToConstraint⟩ := exists_of_forall₂ (mapM_eq_ok.1 hConstraints)
  obtain ⟨hOfIndex, hToIndex⟩ := exists_of_forall₂ (mapM_eq_ok.1 hIndexes)
  rw [LiveSchema.managed, SchemaItem.mem_sorted, List.mem_filterMap]
  constructor
  · rintro ⟨live, hLive, hItem⟩
    rcases List.mem_append.1 hLive with hLive | hLive
    · obtain ⟨row, hRow, hRead⟩ := hToConstraint live hLive
      obtain ⟨label, property, hLists, rfl⟩ := (LiveItem.item_of_constraint hRead).1 hItem
      exact .unique hRow hLists
    · obtain ⟨row, hRow, hRead⟩ := hToIndex live hLive
      obtain ⟨hRow, hAlone⟩ := List.mem_filter.1 hRow
      have hOwner := (LiveSchema.standsAlone_iff.1 hAlone).2
      obtain ⟨label, properties, hLists, rfl⟩ := (LiveItem.item_of_index hRead hOwner).1 hItem
      exact .index hRow hLists
  · rintro (⟨hRow, hLists⟩ | ⟨hRow, hLists⟩)
    · obtain ⟨live, hLive, hRead⟩ := hOfConstraint _ hRow
      exact ⟨live, List.mem_append_left _ hLive,
        (LiveItem.item_of_constraint hRead).2 ⟨_, _, hLists, rfl⟩⟩
    · obtain ⟨live, hLive, hRead⟩ := hOfIndex _
        (List.mem_filter.2 ⟨hRow, LiveSchema.standsAlone_of_lists hLists⟩)
      exact ⟨live, List.mem_append_right _ hLive,
        (LiveItem.item_of_index hRead hLists.2.2.2).2 ⟨_, _, hLists, rfl⟩⟩

theorem Alike.manages (h : l.Alike l') : l.Manages item ↔ l'.Manages item := by
  constructor
  · rintro (⟨hRow, hLists⟩ | ⟨hRow, hLists⟩)
    · exact .unique ((h.unique _ _ _ hLists).1 hRow) hLists
    · exact .index ((h.index _ _ _ hLists).1 hRow) hLists
  · rintro (⟨hRow, hLists⟩ | ⟨hRow, hLists⟩)
    · exact .unique ((h.unique _ _ _ hLists).2 hRow) hLists
    · exact .index ((h.index _ _ _ hLists).2 hRow) hLists

end Listing

/-! ## The check -/

namespace Schema

variable {δ : Type} {server : Server δ} {registry : Registry} {l : Listing} {d d' : δ}
  {expected managed : List SchemaItem}

theorem compare_eq_ok : compare expected managed = .ok () ↔
    expected.filter (!managed.contains ·) = [] ∧ managed.filter (!expected.contains ·) = [] := by
  unfold compare
  simp only [← List.isEmpty_iff, ← Bool.and_eq_true]
  split <;> simp_all

theorem compare_eq_ok_iff : compare expected managed = .ok () ↔
    ∀ item, item ∈ expected ↔ item ∈ managed := by
  rw [compare_eq_ok, List.filter_eq_nil_iff, List.filter_eq_nil_iff]
  constructor
  · rintro ⟨hMissing, hUnexpected⟩ item
    exact ⟨fun h => by simpa using hMissing item h, fun h => by simpa using hUnexpected item h⟩
  · intro hSame
    exact ⟨fun item h => by simpa using (hSame item).1 h, fun item h => by simpa using (hSame item).2 h⟩

/-- Where the sets differ, the report names what is in one of them only. -/
theorem compare_of_ne (h : compare expected managed ≠ .ok ()) : compare expected managed =
    .error (.schemaMismatch ((expected.filter (!managed.contains ·)).map SchemaItem.statement)
      ((managed.filter (!expected.contains ·)).map SchemaItem.statement)) := by
  unfold compare at h ⊢
  dsimp only at h ⊢
  split at h
  · exact absurd rfl h
  · rw [if_neg ‹_›]

/-- The check reads both listings and compares. -/
theorem verify_apply {schema : LiveSchema} (hListing : (listing server).Returns d (l.constraints, l.indexes) d')
    (hRead : LiveSchema.ofRows l.constraints l.indexes = .ok schema) :
    verify registry server d = (.ofExcept (compare (SchemaItem.expected registry) schema.managed), d') := by
  have hLive : live server d = (.ok schema, d') := by
    change (listing server >>= fun rows => ofExcept (LiveSchema.ofRows rows.1 rows.2)) d = _
    rw [bind_ok hListing, hRead]
    rfl
  unfold verify
  rw [bind_ok hLive]
  rfl

end Schema

/-- Whatever a database lists, the check passes if and only if the listing manages the declared items and no
others.  Else it fails and names the declared items that are not managed and the managed items that are not
declared, each once and in the order of items; there is at least one.  A listing that differs only in rows
that describe no item, in further copies of a row or in the order of the rows has the same outcome. -/
theorem verify_reports_difference {δ : Type} {server : Server δ} {registry : Registry} {l : Listing}
    {d d' : δ} (hListing : (Schema.listing server).Returns d (l.constraints, l.indexes) d')
    (hNamed : l.Named) :
    ((Schema.verify registry server).Returns d () d' ↔
      ∀ item, item ∈ SchemaItem.expected registry ↔ l.Manages item) ∧
    (¬ (∀ item, item ∈ SchemaItem.expected registry ↔ l.Manages item) →
      ∃ missing unexpected : List SchemaItem,
        Schema.verify registry server d = (.error (.schemaMismatch (missing.map SchemaItem.statement)
          (unexpected.map SchemaItem.statement)), d') ∧
        SchemaItem.Ascending missing ∧ SchemaItem.Ascending unexpected ∧
        (∀ item, item ∈ missing ↔ item ∈ SchemaItem.expected registry ∧ ¬ l.Manages item) ∧
        (∀ item, item ∈ unexpected ↔ l.Manages item ∧ item ∉ SchemaItem.expected registry) ∧
        ¬ (missing = [] ∧ unexpected = [])) ∧
    ∀ (server' : Server δ) (l' : Listing) (u u' : δ),
      (Schema.listing server').Returns u (l'.constraints, l'.indexes) u' → l'.Named → l.Alike l' →
        (Schema.verify registry server' u).1 = (Schema.verify registry server d).1 := by
  obtain ⟨schema, hRead⟩ := hNamed.ofRows
  have hManaged : ∀ item, item ∈ schema.managed ↔ l.Manages item := fun _ => Listing.mem_managed hRead
  have hRun : Schema.verify registry server d =
      (.ofExcept (Schema.compare (SchemaItem.expected registry) schema.managed), d') :=
    Schema.verify_apply hListing hRead
  have hCompare : Schema.compare (SchemaItem.expected registry) schema.managed = .ok () ↔
      ∀ item, item ∈ SchemaItem.expected registry ↔ l.Manages item := by
    simp only [Schema.compare_eq_ok_iff, hManaged]
  refine ⟨?_, fun hDiffer => ?_, fun server' l' u u' hListing' hNamed' hAlike => ?_⟩
  · rw [← hCompare, Returns, hRun]
    cases Schema.compare (SchemaItem.expected registry) schema.managed with
    | ok => exact ⟨fun _ => rfl, fun _ => rfl⟩
    | error e => exact ⟨nofun, nofun⟩
  · have hFails := mt hCompare.1 hDiffer
    refine ⟨_, _, by rw [hRun, Schema.compare_of_ne hFails]; rfl, ?_, ?_, ?_, ?_, ?_⟩
    · exact (SchemaItem.sorted_ascending _).filter _
    · exact (SchemaItem.sorted_ascending _).filter _
    · intro item
      simp [List.mem_filter, hManaged]
    · intro item
      simp [List.mem_filter, hManaged]
    · exact fun hNone => hFails (Schema.compare_eq_ok.2 hNone)
  · obtain ⟨schema', hRead'⟩ := hNamed'.ofRows
    have hSame : schema'.managed = schema.managed := by
      refine (SchemaItem.sorted_ascending _).ext (SchemaItem.sorted_ascending _) fun item => ?_
      exact (Listing.mem_managed hRead').trans (hAlike.manages.symm.trans (hManaged item).symm)
    rw [Schema.verify_apply hListing' hRead', hRun, hSame]

namespace Aquarium

/-- Fish have a name of their own and are looked up by their tank. -/
def registry : Registry where
  strategy := .native
  types := [⟨"Fish", "Fish", [⟨"id", "id", .key false, false, false⟩,
    ⟨"name", "name", .scalar false, true, false⟩, ⟨"tank", "tank", .scalar false, false, true⟩], none⟩]
  relationships := []

/-- A row of a listing. -/
def row (name kind : String) (label : String) (property : String) : Record :=
  [("entityType", .string "NODE"), ("labelsOrTypes", .list [.string label]), ("name", .string name),
    ("properties", .list [.string property]), ("type", .string kind)]

/-- The name is not unique, a tag is by mistake and listed twice, and one index belongs to its constraint. -/
def listing : Listing where
  constraints := [row "c2" "UNIQUENESS" "Fish" "tag", row "c1" "NODE_KEY" "Fish" "name",
    row "c2" "UNIQUENESS" "Fish" "tag"]
  indexes := [row "i1" "RANGE" "Fish" "tank",
    Dict.insert (row "c2" "RANGE" "Fish" "tag") "owningConstraint" (.string "c2")]

/-- A database that lists these rows and does nothing else. -/
def server : Server Unit where
  begin := pure ()
  run s := pure (if s.text = LiveSchema.showConstraints.text then listing.constraints else listing.indexes)
  fetch _ := pure .empty
  commit := pure ()
  rollback := pure ()

example : Schema.verify registry server () = (.error (.schemaMismatch
    ["CREATE CONSTRAINT FOR (n:\x60Fish\x60) REQUIRE n.\x60name\x60 IS UNIQUE"]
    ["CREATE CONSTRAINT FOR (n:\x60Fish\x60) REQUIRE n.\x60tag\x60 IS UNIQUE"]), ()) := by
  rfl

end Aquarium

theorem aquarium_differs :
    (Schema.listing Aquarium.server).Returns () (Aquarium.listing.constraints, Aquarium.listing.indexes) () ∧
    Aquarium.listing.Named ∧ Aquarium.listing.Manages ⟨.unique, "Fish", ["tag"]⟩ ∧
    ¬ (Schema.verify Aquarium.registry Aquarium.server).Returns () () () := by
  have hListing : (Schema.listing Aquarium.server).Returns ()
      (Aquarium.listing.constraints, Aquarium.listing.indexes) () := rfl
  have hNamed : Aquarium.listing.Named := by
    show ∀ row ∈ Aquarium.listing.constraints ++ Aquarium.listing.indexes, (row.string? "name").isSome
    decide
  have hTag : Aquarium.listing.Manages ⟨.unique, "Fish", ["tag"]⟩ :=
    .unique List.mem_cons_self ⟨⟨.inr rfl, rfl, rfl⟩, "UNIQUENESS", rfl, List.infix_rfl⟩
  refine ⟨hListing, hNamed, hTag, fun hPasses => ?_⟩
  have hDeclared := ((verify_reports_difference hListing hNamed).1.1 hPasses _).2 hTag
  revert hDeclared
  decide

end GraphMapping
