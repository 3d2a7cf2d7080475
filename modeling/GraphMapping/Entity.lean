import GraphMapping.Error
import GraphMapping.Mapping.Registry
import GraphMapping.Value

/-!
# Objects

Mapped objects live in a heap and refer to each other by reference, so that object graphs may be
cyclic.  What the mapping can do with the state of an object is an `EntityModel`: read and write its
fields by name, and follow and extend its relationships.  A relationship-object has two ends as well.
-/

namespace GraphMapping

/-- A reference to an object in a heap. -/
abbrev Ref := Nat

/-- The two ends of a relationship-object, as far as they are set. -/
structure Ends where
  start : Option Ref
  finish : Option Ref
deriving DecidableEq, Repr

/-- What the mapping can do with objects whose states are of type `σ`. -/
structure EntityModel (σ : Type) where
  /-- The state of a new object of a type. -/
  fresh : TypeName → σ
  /-- The value of a field that holds one. -/
  read : σ → String → Option Value
  /-- Give a field a value. -/
  write : σ → String → Value → Except Error σ
  /-- The objects that a relationship field refers to. -/
  related : σ → String → List Ref
  /-- Let a relationship field refer to an object of the given type: one more, or instead. -/
  relate : σ → String → TypeName → Ref → Except Error σ
  /-- The ends of a relationship-object; `none` for all other objects. -/
  ends : σ → Option Ends
  /-- Whether ends can be set. -/
  canJoin : σ → Bool
  /-- Set one end to an object of the given type. -/
  join : σ → Side → TypeName → Ref → Except Error σ

/-- The error for a field that an object does not have. -/
def noSuchField (type : TypeName) (field : String) : Error :=
  .data (type ++ " has no mapped field '" ++ field ++ "'")

/-- The error for an object of another type than expected. -/
def wrongType (expected type : TypeName) : Error :=
  .data ("expected " ++ expected ++ ", got " ++ type)

/-- An object: its type, which never changes, and its state. -/
structure Instance (σ : Type) where
  type : TypeName
  state : σ

/-- A heap: `size` objects are in use, numbered from 0. -/
structure Heap (σ : Type) where
  size : Nat
  cell : Ref → Instance σ

namespace Heap

variable {σ : Type}

/-- The heap in which no object is in use. -/
def empty (model : EntityModel σ) : Heap σ :=
  ⟨0, fun _ => ⟨"", model.fresh ""⟩⟩

/-- The type of an object. -/
def typeOf (h : Heap σ) (r : Ref) : TypeName :=
  (h.cell r).type

/-- The state of an object. -/
def stateOf (h : Heap σ) (r : Ref) : σ :=
  (h.cell r).state

/-- Give an object another state. -/
def put (h : Heap σ) (r : Ref) (state : σ) : Heap σ :=
  let type := h.typeOf r
  { h with cell := fun q => if q = r then ⟨type, state⟩ else h.cell q }

/-- Put a new object into use. -/
def alloc (h : Heap σ) (type : TypeName) (state : σ) : Ref × Heap σ :=
  (h.size, ⟨h.size + 1, fun q => if q = h.size then ⟨type, state⟩ else h.cell q⟩)

/-- The object as one of type `type`. -/
def cast (h : Heap σ) (type : TypeName) (r : Ref) : Except Error Ref :=
  if h.typeOf r = type then .ok r else .error (wrongType type (h.typeOf r))

/-- The value of a field, null if the object does not know it. -/
def value (h : Heap σ) (model : EntityModel σ) (r : Ref) (field : String) : Value :=
  (model.read (h.stateOf r) field).getD .null

/-- Give a field of an object a value. -/
def assign (h : Heap σ) (model : EntityModel σ) (r : Ref) (field : String) (value : Value) :
    Except Error (Heap σ) :=
  (model.write (h.stateOf r) field value).map (h.put r)

/-- Let a relationship field of an object refer to a target. -/
def relate (h : Heap σ) (model : EntityModel σ) (r : Ref) (field : String) (target : Ref) :
    Except Error (Heap σ) :=
  (model.relate (h.stateOf r) field (h.typeOf target) target).map (h.put r)

/-- Set one end of a relationship-object. -/
def join (h : Heap σ) (model : EntityModel σ) (r : Ref) (side : Side) (target : Ref) :
    Except Error (Heap σ) :=
  (model.join (h.stateOf r) side (h.typeOf target) target).map (h.put r)

theorem typeOf_put (h : Heap σ) (r q : Ref) (state : σ) : (h.put r state).typeOf q = h.typeOf q := by
  by_cases hq : q = r <;> simp [put, typeOf, hq]

theorem stateOf_put_self (h : Heap σ) (r : Ref) (state : σ) : (h.put r state).stateOf r = state := by
  simp [put, stateOf]

theorem stateOf_put_of_ne (h : Heap σ) {r q : Ref} (state : σ) (hq : q ≠ r) :
    (h.put r state).stateOf q = h.stateOf q := by
  simp [put, stateOf, hq]

end Heap

end GraphMapping
