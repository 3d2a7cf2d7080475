import GraphMapping.Proofs.Dict.Lookup
import GraphMapping.Proofs.Value.Storage

/-!
# Typed values survive as property values

A field type reads back what it wrote, and as well the storage form of it: what null stands for is settled by
the type, integers are widened and fit again, and instants are read from their text, where their time stamps
are read back.  A map whose entries come in no order comes back with the same entries.  Main statement: so it
is for every type in which nothing is left open and no option stands directly in an option.
-/

namespace GraphMapping

namespace Dict

variable {α β : Type}

theorem map_insert (f : α → β) (d : Dict α) (name : String) (value : α) :
    (insert d name value).map (fun e => (e.1, f e.2)) =
      insert (d.map fun e => (e.1, f e.2)) name (f value) := by
  induction d with
  | nil => rfl
  | cons e rest ih =>
      obtain ⟨k, v⟩ := e
      simp only [insert, List.map_cons]
      split
      · rfl
      · split
        · rfl
        · rw [List.map_cons, ih]

/-- Values can be converted before entries are put in order or behind that. -/
theorem map_ofList (f : α → β) (entries : List (String × α)) :
    (ofList entries).map (fun e => (e.1, f e.2)) = ofList (entries.map fun e => (e.1, f e.2)) := by
  induction entries using List.reverseRecOn with
  | nil => rfl
  | append_singleton entries last ih =>
      unfold ofList at ih ⊢
      rw [List.map_append, List.foldl_append, List.foldl_append, ← ih]
      exact map_insert f _ _ _

end Dict

namespace Value

mutual

/-- No instant stands in a storage form. -/
theorem holdsInstant_storage : ∀ v : Value, v.storage.holdsInstant = false
  | .null | .bool _ | .int _ | .float _ | .string _ | .instant _ => by simp only [storage, holdsInstant]
  | .list items => by
      rw [storage, holdsInstant]
      exact itemsHoldInstant_storage items
  | .map entries => by
      rw [storage, holdsInstant]
      exact entriesHoldInstant_storage entries

theorem itemsHoldInstant_storage : ∀ items, itemsHoldInstant (storageItems items) = false
  | [] => by rw [storageItems, itemsHoldInstant]
  | v :: rest => by
      rw [storageItems, itemsHoldInstant, holdsInstant_storage v, itemsHoldInstant_storage rest]
      rfl

theorem entriesHoldInstant_storage : ∀ entries, entriesHoldInstant (storageEntries entries) = false
  | [] => by rw [storageEntries, entriesHoldInstant]
  | (k, v) :: rest => by
      rw [storageEntries, entriesHoldInstant, holdsInstant_storage v, entriesHoldInstant_storage rest]
      rfl

end

theorem storage_storage (v : Value) : v.storage.storage = v.storage :=
  storage_of_plain _ (holdsInstant_storage v)

end Value

namespace FieldType

variable {type item : FieldType} {v : Value}

/-- Whether a type is an option. -/
def isOption : FieldType → Bool
  | .option _ => true
  | _ => false

/-- Whether a type says of every value what it is: nothing is left open, and null has one meaning, as no
option stands directly in an option. -/
def definite : FieldType → Bool
  | .any => false
  | .option item => !item.isOption && item.definite
  | .list item | .map item => item.definite
  | .string | .int | .int32 | .float | .bool | .datetime => true

/-! ## Values and their storage forms -/

theorem read_option (h : v.isNull = false) : (FieldType.option item).read v = (item.read v).map some := by
  cases v <;> first | rfl | cases h

/-- Only an option writes null. -/
theorem isNull_write (hOption : type.isOption = false) (hDefinite : type.definite = true)
    (x : type.Carrier) : (type.write x).isNull = false := by
  cases type with
  | any => cases hDefinite
  | option => cases hOption
  | string | int | int32 | float | bool | datetime | list | map => rfl

theorem read_write (h : type.definite = true) (x : type.Carrier) : type.read (type.write x) = .ok x := by
  induction type with
  | any => cases h
  | string | int | float | bool | datetime => rfl
  | int32 => exact readInt32_toInt64 x
  | option item ih =>
      rw [definite, Bool.and_eq_true, Bool.not_eq_true'] at h
      cases x with
      | none => rfl
      | some y =>
          change (FieldType.option item).read (item.write y) = .ok (some y)
          rw [read_option (isNull_write h.1 h.2 y), ih h.2]
          rfl
  | list item ih =>
      refine readItems_iff.2 ?_
      rw [List.forall₂_map_left_iff, List.forall₂_same]
      exact fun y _ => ih h y
  | map item ih =>
      refine readEntries_iff.2 ?_
      rw [List.forall₂_map_left_iff, List.forall₂_same]
      exact fun e _ => ⟨rfl, ih h e.2⟩

/-- What a type reads from a value it reads from the storage form, if every instant is read back. -/
theorem read_storage (h : type.definite = true) (hInstants : v.ReadsBack) {x : type.Carrier}
    (hRead : type.read v = .ok x) : type.read v.storage = .ok x := by
  induction type generalizing v with
  | any => cases h
  | string => cases v with
    | string => exact hRead
    | _ => cases hRead
  | int | int32 => cases v with
    | int => exact hRead
    | _ => cases hRead
  | float => cases v with
    | float | int => exact hRead
    | _ => cases hRead
  | bool => cases v with
    | bool => exact hRead
    | _ => cases hRead
  | datetime => cases v with
    | string => exact hRead
    | instant t =>
        cases hRead
        exact readInstant_write hInstants
    | _ => cases hRead
  | option item ih =>
      rw [definite, Bool.and_eq_true] at h
      cases hNull : v.isNull with
      | true =>
          rw [(Value.isNull_iff v).1 hNull] at hRead ⊢
          exact hRead
      | false =>
          rw [read_option hNull] at hRead
          rw [read_option (by rw [Value.isNull_storage]; exact hNull)]
          obtain ⟨y, hItem, rfl⟩ := map_eq_ok.1 hRead
          exact map_eq_ok.2 ⟨y, ih h.2 hInstants hItem, rfl⟩
  | list item ih => cases v with
    | null => exact hRead
    | list items =>
        refine readItems_iff.2 ?_
        rw [Value.storageItems_eq_map, List.forall₂_map_left_iff]
        have hEach := (List.forall₂_and_left _ _).2 ⟨fun v hv => hInstants.item hv, readItems_iff.1 hRead⟩
        exact hEach.imp fun v x ⟨hBack, hItem⟩ => ih h hBack hItem
    | _ => cases hRead
  | map item ih => cases v with
    | null => exact hRead
    | map entries =>
        refine readEntries_iff.2 ?_
        rw [Value.storageEntries_eq_map, List.forall₂_map_left_iff]
        have hEach := (List.forall₂_and_left _ _).2 ⟨fun e he => hInstants.entry he, readEntries_iff.1 hRead⟩
        exact hEach.imp fun e x ⟨hBack, hName, hEntry⟩ => ⟨hName, ih h hBack hEntry⟩
    | _ => cases hRead

/-! ## Maps whose entries come in any order -/

/-- The property value of what a field holds where maps give their entries in any order: the entries are put
into the order of their names. -/
def collect : (t : FieldType) → t.Carrier → Value
  | .option _, none => .null
  | .option item, some x => item.collect x
  | .list item, xs => .list (xs.map item.collect)
  | .map item, xs => .map (Dict.ofList (xs.map fun e => (e.1, item.collect e.2)))
  | t, x => t.write x

/-- What a field holds, with the entries of every map in the order of their names. -/
def arranged : (t : FieldType) → t.Carrier → t.Carrier
  | .option item, x => x.map item.arranged
  | .list item, xs => xs.map item.arranged
  | .map item, xs => Dict.ofList (xs.map fun e => (e.1, item.arranged e.2))
  | _, x => x

/-- No map has two entries of one name. -/
def Distinct : (t : FieldType) → t.Carrier → Prop
  | .option item, x => ∀ y, x = some y → item.Distinct y
  | .list item, xs => ∀ x ∈ xs, item.Distinct x
  | .map item, xs => (xs.map Prod.fst).Nodup ∧ ∀ e ∈ xs, item.Distinct e.2
  | _, _ => True

/-- Values are the same but for the order in which maps give their entries. -/
def Same : (t : FieldType) → t.Carrier → t.Carrier → Prop
  | .option item, x, y => Option.Rel item.Same x y
  | .list item, xs, ys => List.Forall₂ item.Same xs ys
  | .map item, xs, ys =>
      ∃ zs : List (String × item.Carrier), zs.Perm xs ∧
        List.Forall₂ (fun a b => a.1 = b.1 ∧ item.Same a.2 b.2) zs ys
  | _, x, y => x = y

theorem collect_eq_write (type : FieldType) (x : type.Carrier) :
    type.collect x = type.write (type.arranged x) := by
  induction type with
  | any | string | int | int32 | float | bool | datetime => rfl
  | option item ih =>
      cases x with
      | none => rfl
      | some y => exact ih y
  | list item ih =>
      change Value.list (x.map item.collect) = Value.list ((x.map item.arranged).map item.write)
      rw [List.map_map]
      exact congrArg Value.list (List.map_congr_left fun y _ => ih y)
  | map item ih =>
      change Value.map (Dict.ofList (x.map fun e => (e.1, item.collect e.2))) =
        Value.map ((Dict.ofList (x.map fun e => (e.1, item.arranged e.2))).map fun e =>
          (e.1, item.write e.2))
      rw [Dict.map_ofList, List.map_map]
      refine congrArg (Value.map ∘ Dict.ofList) (List.map_congr_left fun e _ => ?_)
      exact congrArg (Prod.mk e.1) (ih e.2)

theorem same_arranged {type : FieldType} {x : type.Carrier} (h : type.Distinct x) :
    type.Same x (type.arranged x) := by
  induction type with
  | any | string | int | int32 | float | bool | datetime => rfl
  | option item ih =>
      cases x with
      | none => exact .none
      | some y => exact .some (ih (h y rfl))
  | list item ih => exact List.forall₂_map_right_iff.2 (List.forall₂_same.2 fun y hy => ih (h y hy))
  | map item ih =>
      obtain ⟨hNames, hEach⟩ := h
      have hPerm := Dict.ofList_perm hNames
      refine ⟨Dict.ofList x, hPerm, ?_⟩
      change List.Forall₂ _ _ (Dict.ofList (x.map fun e => (e.1, item.arranged e.2)))
      rw [← Dict.map_ofList, List.forall₂_map_right_iff, List.forall₂_same]
      exact fun e he => ⟨rfl, ih (hEach e (hPerm.mem_iff.1 he))⟩

end FieldType

/-- Whatever a definite type holds comes back from its property value, and from the storage form of this if
the time stamps in it are read back, also where maps give their entries in any order; and a storage form holds
no instants and is its own storage form. -/
theorem typed_values_survive :
    (∀ type : FieldType, type.definite = true → ∀ x : type.Carrier,
      type.read (type.write x) = .ok x ∧
        ((type.write x).ReadsBack → type.read (type.write x).storage = .ok x)) ∧
    (∀ type : FieldType, type.definite = true → ∀ x : type.Carrier, type.Distinct x →
      ∃ y, type.Same x y ∧ type.read (type.collect x) = .ok y ∧
        ((type.collect x).ReadsBack → type.read (type.collect x).storage = .ok y)) ∧
    ∀ v : Value, v.storage.storage = v.storage ∧ v.storage.holdsInstant = false := by
  have hBoth : ∀ type : FieldType, type.definite = true → ∀ x : type.Carrier,
      type.read (type.write x) = .ok x ∧
        ((type.write x).ReadsBack → type.read (type.write x).storage = .ok x) := by
    intro type h x
    have hRead := FieldType.read_write h x
    exact ⟨hRead, fun hInstants => FieldType.read_storage h hInstants hRead⟩
  refine ⟨hBoth, fun type h x hDistinct => ?_, fun v => ?_⟩
  · refine ⟨type.arranged x, FieldType.same_arranged hDistinct, ?_⟩
    rw [FieldType.collect_eq_write]
    exact hBoth type h (type.arranged x)
  · exact ⟨v.storage_storage, v.holdsInstant_storage⟩

example : (FieldType.option (.option .int)).read (FieldType.write (.option (.option .int)) (some none)) =
    .ok none := by rfl

namespace Itinerary

/-- For every traveller, who may have none, the stages of a journey with the times of their sights. -/
def type : FieldType :=
  .map (.option (.list (.map .datetime)))

/-- The sights of two travellers, in no order. -/
def sights : type.Carrier :=
  [("bob", some [[("tower", ⟨86400, 5, by decide, by decide⟩), ("bridge", .epoch)], []]),
    ("ann", none)]

theorem distinct : type.Distinct sights := by
  simp [type, sights, FieldType.Distinct]

end Itinerary

theorem itinerary_survives :
    Itinerary.type.definite = true ∧ Itinerary.type.Distinct Itinerary.sights ∧
      (Itinerary.type.write Itinerary.sights).ReadsBack ∧
      Itinerary.type.read (Itinerary.type.write Itinerary.sights).storage = .ok Itinerary.sights ∧
      (Itinerary.type.collect Itinerary.sights).ReadsBack ∧
      ∃ y, Itinerary.type.Same Itinerary.sights y ∧
        Itinerary.type.read (Itinerary.type.collect Itinerary.sights) = .ok y ∧
        Itinerary.type.read (Itinerary.type.collect Itinerary.sights).storage = .ok y := by
  have hDefinite : Itinerary.type.definite = true := rfl
  have hWrite : (Itinerary.type.write Itinerary.sights).ReadsBack :=
    Value.readsBack_iff.2 (by decide)
  have hCollect : (Itinerary.type.collect Itinerary.sights).ReadsBack :=
    Value.readsBack_iff.2 (by decide)
  obtain ⟨hOrdered, hUnordered, -⟩ := typed_values_survive
  obtain ⟨y, hSame, hRead, hStored⟩ := hUnordered _ hDefinite Itinerary.sights Itinerary.distinct
  exact ⟨hDefinite, Itinerary.distinct, hWrite, (hOrdered _ hDefinite Itinerary.sights).2 hWrite, hCollect,
    y, hSame, hRead, hStored hCollect⟩

end GraphMapping
