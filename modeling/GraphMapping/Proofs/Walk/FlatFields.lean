import GraphMapping.Plan.Walk
import GraphMapping.Proofs.Mapping.FlatFields

/-!
# Walking by flat records

A walk can also go by the flat records of relationship fields: it then looks for the relationship's type of
each field that it follows, and takes a field without a direction for an outgoing one.  The records of
descriptors have both, so the walk is the same.
-/

namespace GraphMapping

namespace Walker

variable {σ : Type}

/-- Follow one reference of a relationship field, as far as the record of the field tells where. -/
def followFlat (w : Walker σ) (visit : Ref → Option String → Walk Unit) (owner : Ref)
    (ownerKey : String) (came : Option String) (f : FlatField) (target : Ref) : Walk Unit := do
  let label ← present (f.field ++ " has no relationship label") f.label
  let d ← w.descriptor target
  if d.isObject then w.followObject visit owner ownerKey label target d came
  else
    let targetKey := (← w.identify target d).key
    let (start, finish) := match f.direction with
      | some .incoming => (targetKey, ownerKey)
      | _ => (ownerKey, targetKey)
    recordEdge ⟨start, finish, label, f.direction == some .both, false, none, []⟩
    if came = some targetKey ∨ targetKey = ownerKey then return
    visit target (some ownerKey)

/-- Everything that the relationship fields of an object refer to, field by field. -/
def referencesFlat (w : Walker σ) (r : Ref) (d : FlatType) : List (FlatField × Ref) :=
  (d.fields.filter (·.kind.isRelationship)).flatMap fun f =>
    (w.model.related (w.heap.stateOf r) f.field).map fun target => (f, target)

/-- Walk from a node for a number of hops; `came` is the key of the node the walk came from. -/
def visitFlat (w : Walker σ) : Nat → Ref → Option String → Walk Unit
  | 0, r, _ => do
      let _ ← w.enter r
  | hops + 1, r, came => do
      let (d, key) ← w.enter r
      (w.referencesFlat r d.flat).forM fun (f, target) =>
        w.followFlat (visitFlat w hops) r key came f target

variable {w : Walker σ} {visit : Ref → Option String → Walk Unit} {owner r target : Ref}
  {ownerKey : String} {came : Option String} {f : FieldDescriptor} {role : RelationshipRole}

/-- The record of a relationship field is followed like the field. -/
theorem followFlat_eq (hRole : f.relationship? = some role) :
    w.followFlat visit owner ownerKey came f.flat target =
      w.follow visit owner ownerKey came role target := by
  have hLabel : f.flat.label = some role.label := by
    unfold FieldDescriptor.flat
    rw [hRole]
    rfl
  have hDirection : f.flat.direction = some role.direction := by
    unfold FieldDescriptor.flat
    rw [hRole]
    rfl
  unfold followFlat follow followNode
  rw [hLabel, hDirection]
  cases role.direction <;> rfl

/-- A record and a role are those of one field, and lead to one object. -/
def SameReference (a : FlatField × Ref) (b : RelationshipRole × Ref) : Prop :=
  (∃ f : FieldDescriptor, a.1 = f.flat ∧ f.relationship? = some b.1) ∧ a.2 = b.2

/-- The records of relationship fields refer to what the fields refer to. -/
theorem same_references (w : Walker σ) (r : Ref) (d : TypeDescriptor) :
    List.Forall₂ SameReference (w.referencesFlat r d.flat) (w.references r d) := by
  unfold referencesFlat references TypeDescriptor.relationships TypeDescriptor.flat
  dsimp only
  induction d.fields with
  | nil => exact .nil
  | cons f fields ih =>
      have hKind := f.isRelationship_flat
      cases hRole : f.relationship? with
      | none =>
          rw [hRole] at hKind
          rw [List.map_cons, List.filter_cons_of_neg (by rw [hKind]; decide),
            List.filterMap_cons_none (by rw [hRole]; rfl)]
          exact ih
      | some role =>
          rw [hRole] at hKind
          rw [List.map_cons, List.filter_cons_of_pos (by rw [hKind]; rfl),
            List.filterMap_cons_some (by rw [hRole]; rfl), List.flatMap_cons, List.flatMap_cons]
          refine List.rel_append ?_ ih
          rw [List.forall₂_map_left_iff, List.forall₂_map_right_iff]
          exact List.forall₂_same.2 fun target _ => ⟨⟨f, rfl, hRole⟩, rfl⟩

theorem forM_followFlat {items : List (FlatField × Ref)} {items' : List (RelationshipRole × Ref)}
    (h : List.Forall₂ SameReference items items') :
    (items.forM fun (f, target) => w.followFlat visit owner ownerKey came f target) =
      items'.forM fun (role, target) => w.follow visit owner ownerKey came role target := by
  induction h with
  | nil => rfl
  | cons hHere _ ih =>
      obtain ⟨⟨f, hFlat, hRole⟩, hTarget⟩ := hHere
      simp only [List.forM, ih]
      rw [hFlat, hTarget, followFlat_eq hRole]

/-- The walk by records is the walk by descriptors. -/
theorem visitFlat_eq (w : Walker σ) (hops : Nat) : w.visitFlat hops = w.visit hops := by
  induction hops with
  | zero => rfl
  | succ hops ih =>
      funext r came
      unfold visitFlat visit
      simp only [ih, forM_followFlat (w.same_references r _)]

end Walker

/-- Plan to save what is within `depth` hops of an object, by the records of relationship fields. -/
def Plan.makeFlat {σ : Type} (model : EntityModel σ) (registry : Registry) (heap : Heap σ) (root : Ref)
    (depth taken : Nat) : Except Error Plan × Nat :=
  match checkDepth depth, checkRoot registry (heap.typeOf root) with
  | .error e, _ => (.error e, taken)
  | _, .error e => (.error e, taken)
  | .ok _, .ok _ =>
      let walker : Walker σ := ⟨model, registry, heap⟩
      let (result, s) := (walker.visitFlat depth root none).run (WalkState.start taken)
      (result.map fun _ => s.plan, s.taken)

theorem Plan.makeFlat_eq {σ : Type} (model : EntityModel σ) (registry : Registry) (heap : Heap σ)
    (root : Ref) (depth taken : Nat) :
    Plan.makeFlat model registry heap root depth taken = Plan.make model registry heap root depth taken := by
  have hVisit : @Walker.visitFlat σ = Walker.visit := funext fun w => funext w.visitFlat_eq
  unfold Plan.makeFlat
  rw [hVisit]
  rfl

end GraphMapping
