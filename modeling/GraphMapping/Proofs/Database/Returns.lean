import GraphMapping.Database.Action
import GraphMapping.Proofs.Results

/-!
# Actions that return

`Returns` says that an action gives a result and where it leaves the state behind the server.  The lemmas
take an action apart at its steps; a failed step has no lemma, because what follows it does not run.
-/

namespace GraphMapping

namespace Action

variable {ω α β : Type} {w w' : ω}

/-- An action begun in `w` gives `a` and leaves `w'`. -/
def Returns (x : Action ω α) (w : ω) (a : α) (w' : ω) : Prop :=
  x w = (.ok a, w')

@[simp] theorem returns_pure {a b : α} : Returns (pure a : Action ω α) w b w' ↔ b = a ∧ w' = w := by
  constructor
  · intro h
    cases h
    exact ⟨rfl, rfl⟩
  · rintro ⟨rfl, rfl⟩
    rfl

@[simp] theorem not_returns_fail {e : Error} {a : α} : ¬ Returns (fail e) w a w' := by
  intro h
  cases h

@[simp] theorem returns_ofExcept {x : Except Error α} {a : α} :
    Returns (ofExcept x) w a w' ↔ x = .ok a ∧ w' = w := by
  cases x with
  | error e =>
      constructor
      · intro h
        cases h
      · rintro ⟨h, -⟩
        cases h
  | ok b =>
      constructor
      · intro h
        cases h
        exact ⟨rfl, rfl⟩
      · rintro ⟨h, rfl⟩
        cases h
        rfl

theorem bind_apply (x : Action ω α) (f : α → Action ω β) (w : ω) :
    (x >>= f) w = match x w with
      | (.ok a, w) => f a w
      | (.error e, w) => (.error e, w)
      | (.hang, w) => (.hang, w) := rfl

theorem bind_ok {x : Action ω α} {f : α → Action ω β} {a : α} (h : x w = (.ok a, w')) :
    (x >>= f) w = f a w' := by
  rw [bind_apply, h]

theorem bind_error {x : Action ω α} {f : α → Action ω β} {e : Error} (h : x w = (.error e, w')) :
    (x >>= f) w = (.error e, w') := by
  rw [bind_apply, h]

theorem bind_hang {x : Action ω α} {f : α → Action ω β} (h : x w = (.hang, w')) :
    (x >>= f) w = (.hang, w') := by
  rw [bind_apply, h]

/-- Two actions in a row return exactly if each does, the second from where the first ends. -/
theorem returns_bind {x : Action ω α} {f : α → Action ω β} {b : β} :
    Returns (x >>= f) w b w' ↔ ∃ a u, Returns x w a u ∧ Returns (f a) u b w' := by
  unfold Returns
  rw [bind_apply]
  rcases x w with ⟨a | e | _, u⟩
  · constructor
    · intro h
      exact ⟨a, u, rfl, h⟩
    · rintro ⟨a', u', h, h'⟩
      cases h
      exact h'
  · constructor
    · intro h
      cases h
    · rintro ⟨a', u', h, -⟩
      cases h
  · constructor
    · intro h
      cases h
    · rintro ⟨a', u', h, -⟩
      cases h

theorem returns_mapError {f : Error → Error} {x : Action ω α} {a : α} :
    Returns (mapError f x) w a w' ↔ Returns x w a w' := by
  unfold Returns mapError
  rcases x w with ⟨b | e | _, u⟩
  · rfl
  · constructor <;> intro h <;> cases h
  · constructor <;> intro h <;> cases h

/-- Whatever an action ends with, the state it leaves stands in a relation to the one it began with. -/
def Keeps (R : ω → ω → Prop) (x : Action ω α) : Prop :=
  ∀ w, R w (x w).2

section

variable {R : ω → ω → Prop} (hRefl : ∀ w, R w w) (hTrans : ∀ u v w, R u v → R v w → R u w)

include hRefl in
theorem keeps_pure (a : α) : Keeps R (pure a : Action ω α) :=
  fun w => hRefl w

include hRefl in
theorem keeps_fail (e : Error) : Keeps R (fail e : Action ω α) :=
  fun w => hRefl w

include hTrans in
theorem keeps_bind {x : Action ω α} {f : α → Action ω β} (hx : Keeps R x)
    (hf : ∀ a, Keeps R (f a)) : Keeps R (x >>= f) := by
  intro w
  have hFirst : R w (x w).2 := hx w
  rw [bind_apply]
  rcases hRun : x w with ⟨a | e | _, w'⟩ <;> rw [hRun] at hFirst
  · exact hTrans _ _ _ hFirst (hf a w')
  · exact hFirst
  · exact hFirst

include hRefl in
theorem keeps_ofExcept_bind {x : Except Error α} {f : α → Action ω β}
    (hf : ∀ a, x = .ok a → Keeps R (f a)) : Keeps R (ofExcept x >>= f) := by
  cases x with
  | error e => exact fun w => hRefl w
  | ok a => exact hf a rfl

end

theorem keeps_mapError {R : ω → ω → Prop} {f : Error → Error} {x : Action ω α} (h : Keeps R x) :
    Keeps R (mapError f x) := by
  intro w
  have hOne : R w (x w).2 := h w
  unfold mapError
  rcases hRun : x w with ⟨a | e | _, w'⟩ <;> rw [hRun] at hOne <;> exact hOne

theorem Keeps.of_eq {R : ω → ω → Prop} {x : Action ω α} {reply : Reply α} (h : Keeps R x)
    (hRun : x w = (reply, w')) : R w w' := by
  have hOne : R w (x w).2 := h w
  rw [hRun] at hOne
  exact hOne

end Action

end GraphMapping
