import GraphMapping.Entity.Declared
import GraphMapping.Proofs.Results

/-!
# Objects that change one thing at a time

The mapping is told nothing about objects but what they answer.  What it relies on is that a change of
one thing leaves the others alone: `EntityModel.Separates` says so, and objects of declared types comply.
A heap in which some fields were written then differs from the one before in these fields only.
-/

namespace GraphMapping

/-- Writing a field changes no other field, no relationship and no end; relating and joining objects
changes no field that holds a value. -/
structure EntityModel.Separates {σ : Type} (model : EntityModel σ) : Prop where
  read : ∀ state field value state', model.write state field value = .ok state' →
    ∀ other, other ≠ field → model.read state' other = model.read state other
  related : ∀ state field value state', model.write state field value = .ok state' →
    ∀ other, model.related state' other = model.related state other
  ends : ∀ state field value state', model.write state field value = .ok state' →
    model.ends state' = model.ends state
  relate : ∀ state field type target state', model.relate state field type target = .ok state' →
    ∀ other, model.read state' other = model.read state other
  join : ∀ state side type target state', model.join state side type target = .ok state' →
    ∀ other, model.read state' other = model.read state other

/-- The objects of a later heap are those of an earlier one, but for some fields that hold values. -/
structure Heap.Alters {σ : Type} (model : EntityModel σ) (changed : Ref → String → Prop)
    (heap heap' : Heap σ) : Prop where
  typeOf : ∀ r, heap'.typeOf r = heap.typeOf r
  related : ∀ r field, model.related (heap'.stateOf r) field = model.related (heap.stateOf r) field
  ends : ∀ r, model.ends (heap'.stateOf r) = model.ends (heap.stateOf r)
  read : ∀ r field, ¬ changed r field →
    model.read (heap'.stateOf r) field = model.read (heap.stateOf r) field

/-- Objects of declared types keep everything else when a field is written. -/
theorem declaredModel_separates (types : List DeclaredType) : (declaredModel types).Separates := by
  have hWrite : ∀ (state : DeclaredObject) (field : String) (value : Value) (state' : DeclaredObject),
      state.write field value = .ok state' →
        ∃ v, state' = { state with values := state.values.insert field v } := by
    intro state field value state' h
    unfold DeclaredObject.write at h
    split at h
    · obtain ⟨v, -, rfl⟩ := map_eq_ok.1 h
      exact ⟨v, rfl⟩
    · cases h
  refine ⟨?_, ?_, ?_, ?_, ?_⟩
  · intro state field value state' h other hOther
    obtain ⟨v, rfl⟩ := hWrite state field value state' h
    change ((state.type.valueType? other).bind fun _ => (state.values.insert field v).find? other) =
      (state.type.valueType? other).bind fun _ => state.values.find? other
    rw [Dict.find?_insert_of_ne _ _ hOther]
  · intro state field value state' h other
    obtain ⟨v, rfl⟩ := hWrite state field value state' h
    rfl
  · intro state field value state' h
    obtain ⟨v, rfl⟩ := hWrite state field value state' h
    rfl
  · intro state field type target state' h other
    change DeclaredObject.relate state field type target = .ok state' at h
    unfold DeclaredObject.relate at h
    split at h
    · cases h
    · split at h
      · split at h
        · cases h
        · split at h <;> cases h <;> rfl
      · cases h
  · intro state side type target state' h other
    change DeclaredObject.join state side type target = .ok state' at h
    unfold DeclaredObject.join at h
    split at h
    · cases h
    · cases side <;> dsimp only at h <;> split at h <;> cases h <;> rfl

section

variable {σ : Type} {model : EntityModel σ} {heap heap' heap'' : Heap σ}

theorem Heap.Alters.refl (changed : Ref → String → Prop) (heap : Heap σ) :
    Heap.Alters model changed heap heap :=
  ⟨fun _ => rfl, fun _ _ => rfl, fun _ => rfl, fun _ _ _ => rfl⟩

theorem Heap.Alters.trans {changed : Ref → String → Prop} (h : Heap.Alters model changed heap heap')
    (h' : Heap.Alters model changed heap' heap'') : Heap.Alters model changed heap heap'' :=
  ⟨fun r => (h'.typeOf r).trans (h.typeOf r), fun r field => (h'.related r field).trans (h.related r field),
    fun r => (h'.ends r).trans (h.ends r),
    fun r field hNot => (h'.read r field hNot).trans (h.read r field hNot)⟩

theorem Heap.Alters.mono {changed changed' : Ref → String → Prop}
    (h : Heap.Alters model changed heap heap') (hMore : ∀ r field, changed r field → changed' r field) :
    Heap.Alters model changed' heap heap' :=
  { h with read := fun r field hNot => h.read r field fun hChanged => hNot (hMore r field hChanged) }

theorem alters_of_assign (hSeparates : model.Separates) {r : Ref} {field : String} {value : Value}
    (h : heap.assign model r field value = .ok heap') :
    Heap.Alters model (fun q name => q = r ∧ name = field) heap heap' := by
  unfold Heap.assign at h
  obtain ⟨state, hWrite, rfl⟩ := map_eq_ok.1 h
  refine ⟨fun q => heap.typeOf_put r q state, fun q name => ?_, fun q => ?_, fun q name hNot => ?_⟩ <;> by_cases hq : q = r
  · subst hq
    rw [Heap.stateOf_put_self, hSeparates.related _ _ _ _ hWrite]
  · rw [Heap.stateOf_put_of_ne heap state hq]
  · subst hq
    rw [Heap.stateOf_put_self, hSeparates.ends _ _ _ _ hWrite]
  · rw [Heap.stateOf_put_of_ne heap state hq]
  · subst hq
    rw [Heap.stateOf_put_self, hSeparates.read _ _ _ _ hWrite name fun hName => hNot ⟨rfl, hName⟩]
  · rw [Heap.stateOf_put_of_ne heap state hq]

theorem Heap.Alters.value {changed : Ref → String → Prop} (h : Heap.Alters model changed heap heap')
    {r : Ref} {field : String} (hNot : ¬ changed r field) :
    heap'.value model r field = heap.value model r field := by
  unfold Heap.value
  rw [h.read r field hNot]

end

end GraphMapping
