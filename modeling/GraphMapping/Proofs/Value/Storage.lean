import GraphMapping.Proofs.Time.Stamp
import GraphMapping.Value.FieldType

/-!
# Field types take back what is stored of their values

The storage form of a value differs from the value where instants are written as text.  A field type knows
where its instants are and reads them from text, which gives the regular ones back; only in what it leaves
open, values of any kind, an instant comes back as text.
-/

namespace GraphMapping

namespace Value

mutual

/-- Whether an instant stands somewhere in a value. -/
def holdsInstant : Value → Bool
  | .instant _ => true
  | .list items => itemsHoldInstant items
  | .map entries => entriesHoldInstant entries
  | _ => false

/-- Whether an instant stands in one of several items. -/
def itemsHoldInstant : List Value → Bool
  | [] => false
  | v :: rest => holdsInstant v || itemsHoldInstant rest

/-- Whether an instant stands in one of several entries. -/
def entriesHoldInstant : List (String × Value) → Bool
  | [] => false
  | (_, v) :: rest => holdsInstant v || entriesHoldInstant rest

end

mutual

/-- The instants that stand somewhere in a value. -/
def instants : Value → List Instant
  | .instant t => [t]
  | .list items => itemInstants items
  | .map entries => entryInstants entries
  | _ => []

/-- The instants that stand in items. -/
def itemInstants : List Value → List Instant
  | [] => []
  | v :: rest => instants v ++ itemInstants rest

/-- The instants that stand in entries. -/
def entryInstants : List (String × Value) → List Instant
  | [] => []
  | (_, v) :: rest => instants v ++ entryInstants rest

end

/-- Every instant in a value is read back from its time stamp. -/
def ReadsBack (v : Value) : Prop :=
  ∀ t ∈ v.instants, Stamp.read (Stamp.write t) = .ok t

theorem itemInstants_eq_flatMap (items : List Value) : itemInstants items = items.flatMap instants := by
  induction items with
  | nil => rfl
  | cons v rest ih => rw [itemInstants, ih, List.flatMap_cons]

theorem entryInstants_eq_flatMap (entries : List (String × Value)) :
    entryInstants entries = entries.flatMap fun e => e.2.instants := by
  induction entries with
  | nil => rfl
  | cons e rest ih =>
      obtain ⟨k, v⟩ := e
      rw [entryInstants, ih, List.flatMap_cons]

theorem ReadsBack.item {items : List Value} {v : Value} (h : (Value.list items).ReadsBack)
    (hv : v ∈ items) : v.ReadsBack := by
  intro t ht
  refine h t ?_
  rw [instants, itemInstants_eq_flatMap]
  exact List.mem_flatMap_of_mem hv ht

theorem ReadsBack.entry {entries : List (String × Value)} {e : String × Value}
    (h : (Value.map entries).ReadsBack) (he : e ∈ entries) : e.2.ReadsBack := by
  intro t ht
  refine h t ?_
  rw [instants, entryInstants_eq_flatMap]
  exact List.mem_flatMap.2 ⟨e, he, ht⟩

theorem readsBack_instant {t : Instant} :
    (Value.instant t).ReadsBack ↔ Stamp.read (Stamp.write t) = .ok t := by
  unfold ReadsBack
  rw [instants, List.forall_mem_singleton]

/-- The regular instants are those that are read back. -/
theorem readsBack_iff {v : Value} : v.ReadsBack ↔ ∀ t ∈ v.instants, t.Regular :=
  forall₂_congr fun _ _ => Stamp.read_write_iff

mutual

/-- A value without instants is its own storage form. -/
theorem storage_of_plain : ∀ v : Value, v.holdsInstant = false → v.storage = v
  | .null, _ | .bool _, _ | .int _, _ | .float _, _ | .string _, _ => by simp only [storage]
  | .instant t, h => by simp [holdsInstant] at h
  | .list items, h => by
      rw [holdsInstant] at h
      rw [storage, storageItems_of_plain items h]
  | .map entries, h => by
      rw [holdsInstant] at h
      rw [storage, storageEntries_of_plain entries h]

theorem storageItems_of_plain : ∀ items, itemsHoldInstant items = false → storageItems items = items
  | [], _ => by rw [storageItems]
  | v :: rest, h => by
      rw [itemsHoldInstant] at h
      obtain ⟨hHere, hRest⟩ := Bool.or_eq_false_iff.1 h
      rw [storageItems, storage_of_plain v hHere, storageItems_of_plain rest hRest]

theorem storageEntries_of_plain : ∀ entries, entriesHoldInstant entries = false →
    storageEntries entries = entries
  | [], _ => by rw [storageEntries]
  | (k, v) :: rest, h => by
      rw [entriesHoldInstant] at h
      obtain ⟨hHere, hRest⟩ := Bool.or_eq_false_iff.1 h
      rw [storageEntries, storage_of_plain v hHere, storageEntries_of_plain rest hRest]

end

@[simp] theorem isNull_storage (v : Value) : v.storage.isNull = v.isNull := by
  cases v <;> rfl

theorem isNull_iff (v : Value) : v.isNull = true ↔ v = .null := by
  cases v <;> simp [isNull]

end Value

namespace FieldType

/-- No instant stands where a field type leaves open what a value is. -/
def Clear : FieldType → Value → Prop
  | .any, v => v.holdsInstant = false
  | .option item, v => item.Clear v
  | .list item, v => ∀ items, v = .list items → ∀ x ∈ items, item.Clear x
  | .map item, v => ∀ entries, v = .map entries → ∀ e ∈ entries, item.Clear e.2
  | _, _ => True

variable {type item : FieldType} {v w : Value}

/-! ## Reading -/

theorem convert_eq_ok : type.convert v = .ok w ↔ ∃ x, type.read v = .ok x ∧ type.write x = w :=
  map_eq_ok

/-- An option takes null, and else what its item type takes. -/
theorem convert_option (item : FieldType) (v : Value) :
    (FieldType.option item).convert v = if v.isNull then .ok .null else item.convert v := by
  have hSome : ∀ x : Except Error item.Carrier,
      (x.map some).map (FieldType.option item).write = x.map item.write := by
    intro x
    cases x <;> rfl
  cases v <;> first | rfl | exact hSome _

theorem readItems_iff {α : Type} {f : Value → Except Error α} {items : List Value} {xs : List α} :
    readItems f items = .ok xs ↔ List.Forall₂ (fun v x => f v = .ok x) items xs := by
  have hSame : readItems f items = items.mapM f := by
    induction items with
    | nil => rfl
    | cons v rest ih => rw [readItems, List.mapM_cons, ih]
  rw [hSame]
  exact mapM_eq_ok

theorem readEntries_iff {α : Type} {f : Value → Except Error α} {entries : List (String × Value)}
    {xs : List (String × α)} : readEntries f entries = .ok xs ↔
      List.Forall₂ (fun e x => e.1 = x.1 ∧ f e.2 = .ok x.2) entries xs := by
  induction entries generalizing xs with
  | nil => exact ⟨fun h => (by cases h; exact .nil), fun h => (by cases h; rfl)⟩
  | cons e rest ih =>
      obtain ⟨k, v⟩ := e
      constructor
      · intro h
        obtain ⟨x, hRead, h⟩ := bind_eq_ok.1 h
        obtain ⟨xs, hReads, h⟩ := bind_eq_ok.1 h
        cases h
        exact .cons ⟨rfl, hRead⟩ (ih.1 hReads)
      · intro h
        obtain _ | ⟨⟨rfl, hRead⟩, hRest⟩ := h
        exact bind_eq_ok.2 ⟨_, hRead, bind_eq_ok.2 ⟨_, ih.2 hRest, rfl⟩⟩

theorem readItems_eq_ok {items items' : List Value}
    (h : List.Forall₂ (fun v w => item.convert v = .ok w) items items') :
    ∃ xs, readItems item.read items = .ok xs ∧ xs.map item.write = items' := by
  obtain ⟨xs, hReads, hWrites⟩ := forall₂_through h fun v w hHere => convert_eq_ok.1 hHere
  refine ⟨xs, readItems_iff.2 hReads, ?_⟩
  rw [← List.forall₂_eq_eq_eq]
  exact List.forall₂_map_left_iff.2 hWrites.flip

theorem readEntries_eq_ok {entries entries' : List (String × Value)}
    (h : List.Forall₂ (fun e e' => e.1 = e'.1 ∧ item.convert e.2 = .ok e'.2) entries entries') :
    ∃ xs, readEntries item.read entries = .ok xs ∧
      (xs.map fun e => (e.1, item.write e.2)) = entries' := by
  have hEach : ∀ e e' : String × Value, e.1 = e'.1 ∧ item.convert e.2 = .ok e'.2 →
      ∃ x : String × item.Carrier, (e.1 = x.1 ∧ item.read e.2 = .ok x.2) ∧ (x.1, item.write x.2) = e' := by
    rintro ⟨k, v⟩ ⟨k', w⟩ ⟨rfl, hConvert⟩
    obtain ⟨x, hRead, rfl⟩ := convert_eq_ok.1 hConvert
    exact ⟨(k, x), ⟨rfl, hRead⟩, rfl⟩
  obtain ⟨xs, hReads, hWrites⟩ := forall₂_through h hEach
  refine ⟨xs, readEntries_iff.2 hReads, ?_⟩
  rw [← List.forall₂_eq_eq_eq]
  exact List.forall₂_map_left_iff.2 hWrites.flip

theorem readInt32_toInt64 (n : Int32) : readInt32 (.int n.toInt64) = .ok n := by
  have hLow := n.le_toInt
  have hHigh := n.toInt_lt
  have hWide : n.toInt64.toInt = n.toInt := n.toInt_toInt64
  unfold readInt32
  dsimp only
  rw [hWide, if_pos (by omega), Int32.ofInt_toInt]

theorem readInstant_write {t : Instant} (h : (Value.instant t).ReadsBack) :
    readInstant (.string (Stamp.write t)) = .ok t := by
  unfold readInstant
  dsimp only
  rw [Value.readsBack_instant.1 h]

/-! ## What is stored -/

/-- A field type takes the storage form of what it holds for that, if every instant is read back. -/
theorem convert_storage (type : FieldType) (x : type.Carrier) (h : type.Clear (type.write x))
    (hInstants : (type.write x).ReadsBack) :
    type.convert (type.write x).storage = .ok (type.write x) := by
  induction type with
  | any => exact congrArg Except.ok (Value.storage_of_plain x h)
  | string | int | float | bool => rfl
  | int32 => exact convert_eq_ok.2 ⟨x, readInt32_toInt64 x, rfl⟩
  | datetime => exact convert_eq_ok.2 ⟨x, readInstant_write hInstants, rfl⟩
  | option item ih =>
      cases x with
      | none => rfl
      | some y =>
          change (FieldType.option item).convert (item.write y).storage = .ok (item.write y)
          rw [convert_option, Value.isNull_storage]
          cases hNull : (item.write y).isNull with
          | true => exact congrArg Except.ok ((Value.isNull_iff _).1 hNull).symm
          | false => exact ih y h hInstants
  | list item ih =>
      have hItems : List.Forall₂ (fun v w => item.convert v = .ok w)
          (Value.storageItems (x.map item.write)) (x.map item.write) := by
        rw [Value.storageItems_eq_map, List.map_map, List.forall₂_map_left_iff,
          List.forall₂_map_right_iff, List.forall₂_same]
        intro y hy
        have hItem := List.mem_map_of_mem (f := item.write) hy
        exact ih y (h _ rfl _ hItem) (hInstants.item hItem)
      obtain ⟨xs, hRead, hWrite⟩ := readItems_eq_ok hItems
      exact convert_eq_ok.2 ⟨xs, hRead, congrArg Value.list hWrite⟩
  | map item ih =>
      have hEntries : List.Forall₂ (fun e e' => e.1 = e'.1 ∧ item.convert e.2 = .ok e'.2)
          (Value.storageEntries (x.map fun e => (e.1, item.write e.2)))
          (x.map fun e => (e.1, item.write e.2)) := by
        rw [Value.storageEntries_eq_map, List.map_map, List.forall₂_map_left_iff,
          List.forall₂_map_right_iff, List.forall₂_same]
        intro e he
        have hEntry := List.mem_map_of_mem (f := fun e => (e.1, item.write e.2)) he
        exact ⟨rfl, ih e.2 (h _ rfl _ hEntry) (hInstants.entry hEntry)⟩
      obtain ⟨xs, hRead, hWrite⟩ := readEntries_eq_ok hEntries
      exact convert_eq_ok.2 ⟨xs, hRead, congrArg Value.map hWrite⟩

/-- A field type that can hold an instant takes it. -/
theorem convert_instant {t : Instant} (x : type.Carrier) (h : type.write x = .instant t) :
    type.convert (.instant t) = .ok (.instant t) := by
  induction type with
  | any | datetime => rfl
  | option item ih =>
      cases x with
      | none => cases h
      | some y =>
          rw [convert_option]
          exact ih y h
  | string | int | int32 | float | bool | list | map => cases h

/-- A field type that can hold null takes it. -/
theorem convert_null (x : type.Carrier) (h : type.write x = .null) : type.convert .null = .ok .null := by
  cases type with
  | any | option => rfl
  | string | int | int32 | float | bool | datetime | list | map => cases h

/-- A field type that can hold null holds it at first. -/
theorem write_initial_of_null (x : type.Carrier) (h : type.write x = .null) :
    type.write type.initial = .null := by
  cases type with
  | any | option => rfl
  | string | int | int32 | float | bool | datetime | list | map => cases h

end FieldType

end GraphMapping
