import GraphMapping.Database.Scripted
import GraphMapping.Proofs.Database.Returns
import GraphMapping.Proofs.Database.Transactions
import GraphMapping.Schema.Reconcile

/-!
# One server among several

Whatever is done through a server that is one among several is done to its own part of the whole state, as if
it were alone; the other parts stay as they are.
-/

namespace GraphMapping

open GraphMapping.Action

/-- An action on a part of a state; `read` and `write` give access to the part. -/
def Action.inside {ω δ α : Type} (read : ω → δ) (write : δ → ω → ω) (x : Action δ α) : Action ω α :=
  fun w => ((x (read w)).1, write (x (read w)).2 w)

/-- A part is what was written to it last, and writing it changes nothing else. -/
structure IsPart {ω δ : Type} (read : ω → δ) (write : δ → ω → ω) : Prop where
  read_write : ∀ d w, read (write d w) = d
  write_read : ∀ w, write (read w) w = w
  write_write : ∀ d d' w, write d (write d' w) = write d w

variable {ω δ α β : Type} {read : ω → δ} {write : δ → ω → ω} {s : Server δ}

theorem inside_eq {x : Action δ α} {w : ω} {reply : Reply α} {d : δ} (h : x (read w) = (reply, d)) :
    Action.inside read write x w = (reply, write d w) := by
  unfold Action.inside
  rw [h]

section

variable (h : IsPart read write)

include h

theorem inside_const (reply : Reply α) :
    Action.inside read write (fun d => (reply, d)) = fun w => (reply, w) := by
  funext w
  unfold Action.inside
  rw [h.write_read]

theorem inside_pure (a : α) : Action.inside read write (pure a : Action δ α) = pure a :=
  inside_const h (.ok a)

theorem inside_ofExcept (x : Except Error α) :
    Action.inside read write (ofExcept x : Action δ α) = ofExcept x :=
  inside_const h (.ofExcept x)

theorem inside_bind (x : Action δ α) (f : α → Action δ β) :
    Action.inside read write (x >>= f) =
      (Action.inside read write x >>= fun a => Action.inside read write (f a)) := by
  funext w
  rcases hRun : x (read w) with ⟨a | e | _, d⟩
  · rw [bind_ok (inside_eq hRun)]
    unfold Action.inside
    rw [bind_ok hRun, h.read_write, h.write_write]
  · rw [bind_error (inside_eq hRun), inside_eq (bind_error hRun)]
  · rw [bind_hang (inside_eq hRun), inside_eq (bind_hang hRun)]

theorem inside_forM (f : β → Action δ Unit) (items : List β) :
    Action.inside read write (items.forM f) =
      items.forM fun b => Action.inside read write (f b) := by
  induction items with
  | nil => exact inside_const h (.ok ())
  | cons b rest ih =>
      refine (inside_bind h (f b) fun _ => rest.forM f).trans ?_
      rw [ih]
      rfl

theorem inside_attempt (work : Action δ α) :
    Action.inside read write (s.attempt work) =
      (s.within read write).attempt (Action.inside read write work) := by
  funext w
  have hRollback : ∀ w, (s.within read write).rollback w =
      ((s.rollback (read w)).1, write (s.rollback (read w)).2 w) := fun _ => rfl
  rcases hRun : work (read w) with ⟨a | e | _, d⟩
  · rw [inside_eq (attempt_ok hRun), attempt_ok (inside_eq hRun)]
  · rw [attempt_error (inside_eq hRun)]
    unfold Action.inside
    rw [attempt_error hRun]
    -- What the rollback does to the part is what it would do alone.
    unfold Server.abandon
    rw [hRollback, h.read_write, h.write_write]
    rcases s.rollback d with ⟨u | e' | _, d'⟩ <;> rfl
  · rw [inside_eq (attempt_hang hRun), attempt_hang (inside_eq hRun)]

/-- A transaction inside is one of the server inside. -/
theorem inside_transaction (work : Action δ α) :
    Action.inside read write (s.transaction work) =
      (s.within read write).transaction (Action.inside read write work) := by
  rw [transaction_eq, transaction_eq]
  simp only [inside_bind h, inside_attempt h, inside_pure h]
  rfl

theorem inside_live : Action.inside read write (Schema.live s) =
    Schema.live (s.within read write) := by
  unfold Schema.live
  simp only [inside_bind h, inside_transaction h, inside_pure h, inside_ofExcept h]
  rfl

theorem inside_runAll (statements : List Statement) :
    Action.inside read write (Schema.runAll s statements) =
      Schema.runAll (s.within read write) statements := by
  unfold Schema.runAll
  cases statements.isEmpty with
  | true => exact inside_pure h 0
  | false =>
      simp only [Bool.false_eq_true, if_false, inside_bind h, inside_transaction h, inside_forM h,
        inside_pure h]
      rfl

theorem inside_verify (registry : Registry) :
    Action.inside read write (Schema.verify registry s) =
      Schema.verify registry (s.within read write) := by
  unfold Schema.verify
  simp only [inside_bind h, inside_live h, inside_ofExcept h]

/-- A policy for the server inside is the policy inside. -/
theorem inside_applyTo (policy : SchemaPolicy) (registry : Registry) :
    Action.inside read write (policy.applyTo registry s) =
      policy.applyTo registry (s.within read write) := by
  cases policy with
  | ignore => exact inside_pure h ()
  | validate => exact inside_verify h registry
  | assert =>
      unfold SchemaPolicy.applyTo Schema.dropAll Schema.create
      simp only [inside_bind h, inside_live h, inside_runAll h, inside_verify h]

end

end GraphMapping
