import GraphMapping.Error
import Mathlib.Data.List.Forall2
import Mathlib.Data.List.Perm.Basic

/-!
# Computations that succeed

Computations that may fail are taken apart at their steps: if the whole succeeds, so did each part, and
a pass over a list has done its work for every item.  What belongs to the items of such a list one by one
is found again from either side.
-/

namespace GraphMapping

variable {α β γ : Type}

theorem bind_eq_ok {ε : Type} {x : Except ε α} {f : α → Except ε β} {b : β} :
    (x >>= f) = .ok b ↔ ∃ a, x = .ok a ∧ f a = .ok b := by
  cases x with
  | error e =>
      constructor
      · intro h
        cases h
      · rintro ⟨a, h, -⟩
        cases h
  | ok a =>
      constructor
      · intro h
        exact ⟨a, rfl, h⟩
      · rintro ⟨a', h, h'⟩
        cases h
        exact h'

theorem bind_eq_error {ε : Type} {x : Except ε α} {f : α → Except ε β} {e : ε} :
    (x >>= f) = .error e ↔ x = .error e ∨ ∃ a, x = .ok a ∧ f a = .error e := by
  cases x with
  | error e' =>
      constructor
      · intro h
        cases h
        exact .inl rfl
      · rintro (h | ⟨a, h, -⟩)
        · cases h
          rfl
        · cases h
  | ok a =>
      constructor
      · intro h
        exact .inr ⟨a, rfl, h⟩
      · rintro (h | ⟨a', h, h'⟩)
        · cases h
        · cases h
          exact h'

theorem ok_unique {x : Except Error α} {a b : α} (h : x = .ok a) (h' : x = .ok b) : a = b := by
  rw [h] at h'
  exact Except.ok.inj h'

theorem toOption_eq_some {ε : Type} {x : Except ε α} {a : α} : x.toOption = some a ↔ x = .ok a := by
  cases x <;> simp [Except.toOption]

/-- Computations that come to the same results agree up to their errors. -/
theorem toOption_eq {ε : Type} {x y : Except ε α} (h : ∀ a, x = .ok a ↔ y = .ok a) :
    x.toOption = y.toOption :=
  Option.ext fun a => toOption_eq_some.trans ((h a).trans toOption_eq_some.symm)

theorem map_eq_ok {x : Except Error α} {f : α → β} {b : β} :
    x.map f = .ok b ↔ ∃ a, x = .ok a ∧ f a = b := by
  cases x with
  | error e =>
      constructor
      · intro h
        cases h
      · rintro ⟨a, h, -⟩
        cases h
  | ok a =>
      constructor
      · intro h
        cases h
        exact ⟨a, rfl, rfl⟩
      · rintro ⟨a', h, rfl⟩
        cases h
        rfl

theorem mem_of_lookup [BEq α] [LawfulBEq α] {table : List (α × β)} {a : α} {b : β}
    (h : table.lookup a = some b) : (a, b) ∈ table := by
  obtain ⟨before, after, rfl, -⟩ := List.lookup_eq_some_iff.1 h
  exact List.mem_append_right _ List.mem_cons_self

/-- `mapM` succeeds if every item has a result; these are the results. -/
theorem mapM_eq_ok {f : α → Except Error β} {xs : List α} {ys : List β} :
    xs.mapM f = .ok ys ↔ List.Forall₂ (fun x y => f x = .ok y) xs ys := by
  induction xs generalizing ys with
  | nil => exact ⟨fun h => (by cases h; exact .nil), fun h => (by cases h; rfl)⟩
  | cons x rest ih =>
      rw [List.mapM_cons]
      constructor
      · intro h
        obtain ⟨y, hy, h⟩ := bind_eq_ok.1 h
        obtain ⟨results, hRest, h⟩ := bind_eq_ok.1 h
        cases h
        exact .cons hy (ih.1 hRest)
      · intro h
        obtain _ | ⟨hy, hRest⟩ := h
        exact bind_eq_ok.2 ⟨_, hy, bind_eq_ok.2 ⟨_, ih.2 hRest, rfl⟩⟩

/-- The results of a reordered list are reordered. -/
theorem mapM_perm {f : α → Except Error β} {xs xs' : List α} {ys : List β} (hPerm : xs'.Perm xs)
    (h : xs.mapM f = .ok ys) : ∃ ys', xs'.mapM f = .ok ys' ∧ ys'.Perm ys := by
  obtain ⟨ys', hEach, hSame⟩ := List.perm_comp_forall₂ hPerm (mapM_eq_ok.1 h)
  exact ⟨ys', mapM_eq_ok.2 hEach, hSame⟩

/-- `mapM` succeeds if every item does. -/
theorem mapM_total {f : α → Except Error β} {xs : List α}
    (h : ∀ x ∈ xs, ∃ y, f x = .ok y) : ∃ ys, xs.mapM f = .ok ys := by
  induction xs with
  | nil => exact ⟨[], rfl⟩
  | cons x rest ih =>
      obtain ⟨y, hy⟩ := h x List.mem_cons_self
      obtain ⟨ys, hys⟩ := ih fun x' hx' => h x' (List.mem_cons_of_mem _ hx')
      refine ⟨y :: ys, ?_⟩
      rw [List.mapM_cons, hy]
      exact bind_eq_ok.2 ⟨y, rfl, bind_eq_ok.2 ⟨ys, hys, rfl⟩⟩

/-- A pass over a list does its work for every item, if later steps undo nothing. -/
theorem foldlM_collects {R : β → β → Prop} {P : β → Prop} {D : α → β → Prop}
    {f : β → α → Except Error β} {items : List α} {x y : β} (hRefl : ∀ x, R x x)
    (hTrans : ∀ x y z, R x y → R y z → R x z) (hMono : ∀ a x y, R x y → D a x → D a y)
    (hStep : ∀ a ∈ items, ∀ x y, P x → f x a = .ok y → P y ∧ R x y ∧ D a y)
    (h : items.foldlM f x = .ok y) (hKeep : P x) :
    P y ∧ R x y ∧ ∀ a ∈ items, D a y := by
  induction items generalizing x with
  | nil =>
      cases h
      exact ⟨hKeep, hRefl _, fun _ ha => absurd ha List.not_mem_nil⟩
  | cons a rest ih =>
      rw [List.foldlM_cons] at h
      obtain ⟨z, hz, h⟩ := bind_eq_ok.1 h
      obtain ⟨hKeepZ, hFirst, hDone⟩ := hStep a List.mem_cons_self x z hKeep hz
      obtain ⟨hKeepY, hLater, hAll⟩ :=
        ih (fun b hb => hStep b (List.mem_cons_of_mem _ hb)) h hKeepZ
      -- What the first step did outlasts the steps for the rest.
      refine ⟨hKeepY, hTrans _ _ _ hFirst hLater, fun b hb => ?_⟩
      rcases List.mem_cons.1 hb with rfl | hb
      · exact hMono b z y hLater hDone
      · exact hAll b hb

/-- A pass over a list does not fail if no step does. -/
theorem foldlM_total {P : β → Prop} {f : β → α → Except Error β} {items : List α} {x : β}
    (hStep : ∀ a ∈ items, ∀ x, P x → ∃ y, f x a = .ok y ∧ P y) (hx : P x) :
    ∃ y, items.foldlM f x = .ok y ∧ P y := by
  induction items generalizing x with
  | nil => exact ⟨x, rfl, hx⟩
  | cons a rest ih =>
      obtain ⟨y, hy, hPy⟩ := hStep a List.mem_cons_self x hx
      obtain ⟨z, hz, hPz⟩ := ih (fun b hb => hStep b (List.mem_cons_of_mem _ hb)) hPy
      exact ⟨z, bind_eq_ok.2 ⟨y, hy, hz⟩, hPz⟩

/-- A pass whose steps add to a list adds what they add, one after the other. -/
theorem foldlM_appends {f : β → α → Except Error β} {L : β → List γ} {added : α → List γ}
    {items : List α} {x y : β}
    (hStep : ∀ a ∈ items, ∀ x y, f x a = .ok y → L y = L x ++ added a)
    (h : items.foldlM f x = .ok y) : L y = L x ++ items.flatMap added := by
  induction items generalizing x with
  | nil =>
      cases h
      exact (List.append_nil _).symm
  | cons a rest ih =>
      rw [List.foldlM_cons] at h
      obtain ⟨z, hz, h⟩ := bind_eq_ok.1 h
      rw [ih (fun b hb => hStep b (List.mem_cons_of_mem _ hb)) h, hStep a List.mem_cons_self x z hz,
        List.append_assoc, List.flatMap_cons]

/-- Checks of all items pass just if each does. -/
theorem forM_eq_ok {f : α → Except Error Unit} {items : List α} :
    items.forM f = .ok () ↔ ∀ a ∈ items, f a = .ok () := by
  induction items with
  | nil => exact ⟨fun _ _ ha => absurd ha List.not_mem_nil, fun _ => rfl⟩
  | cons a rest ih =>
      rw [List.forall_mem_cons, ← ih]
      exact bind_eq_ok.trans ⟨fun ⟨(), hHere, hRest⟩ => ⟨hHere, hRest⟩,
        fun ⟨hHere, hRest⟩ => ⟨(), hHere, hRest⟩⟩

/-! ## How computations fail -/

/-- A computation fails with nothing but errors of a sort. -/
def FailsOnly (P : Error → Prop) (x : Except Error α) : Prop :=
  ∀ e, x = .error e → P e

namespace FailsOnly

variable {P : Error → Prop}

theorem ok (a : α) : FailsOnly P (.ok a : Except Error α) :=
  fun _ h => nomatch h

theorem error {e : Error} (h : P e) : FailsOnly P (.error e : Except Error α) :=
  fun _ hSame => Except.error.inj hSame ▸ h

theorem bind {x : Except Error α} {f : α → Except Error β} (hx : FailsOnly P x)
    (hf : ∀ a, x = .ok a → FailsOnly P (f a)) : FailsOnly P (x >>= f) := by
  intro e h
  cases hRun : x with
  | error e' =>
      rw [hRun] at h
      cases h
      exact hx _ hRun
  | ok a =>
      rw [hRun] at h
      exact hf a hRun e h

theorem forM {f : α → Except Error Unit} {items : List α} (h : ∀ a ∈ items, FailsOnly P (f a)) :
    FailsOnly P (items.forM f) := by
  induction items with
  | nil => exact ok ()
  | cons a rest ih =>
      exact bind (h a List.mem_cons_self) fun _ _ => ih fun b hb => h b (List.mem_cons_of_mem _ hb)

theorem foldlM {f : β → α → Except Error β} {items : List α} {x : β}
    (h : ∀ a ∈ items, ∀ x, FailsOnly P (f x a)) : FailsOnly P (items.foldlM f x) := by
  induction items generalizing x with
  | nil => exact ok x
  | cons a rest ih =>
      rw [List.foldlM_cons]
      exact bind (h a List.mem_cons_self x) fun _ _ => ih fun b hb => h b (List.mem_cons_of_mem _ hb)

end FailsOnly

/-! ## Lists whose entries belong together -/

theorem exists_of_forall₂ {R : α → β → Prop} {xs : List α} {ys : List β}
    (h : List.Forall₂ R xs ys) : (∀ x ∈ xs, ∃ y ∈ ys, R x y) ∧ ∀ y ∈ ys, ∃ x ∈ xs, R x y := by
  induction h with
  | nil => exact ⟨fun x hx => (by cases hx), fun y hy => (by cases hy)⟩
  | @cons x y xs ys hHead _ ih =>
      constructor
      · intro a ha
        rcases List.mem_cons.1 ha with rfl | ha
        · exact ⟨y, List.mem_cons_self, hHead⟩
        · obtain ⟨b, hb, hR⟩ := ih.1 a ha
          exact ⟨b, List.mem_cons_of_mem _ hb, hR⟩
      · intro b hb
        rcases List.mem_cons.1 hb with rfl | hb
        · exact ⟨x, List.mem_cons_self, hHead⟩
        · obtain ⟨a, ha, hR⟩ := ih.2 b hb
          exact ⟨a, List.mem_cons_of_mem _ ha, hR⟩

/-- Where every pair leads to an item of a third kind, these items make a list. -/
theorem forall₂_through {R : α → β → Prop} {S : α → γ → Prop} {T : β → γ → Prop}
    {xs : List α} {ys : List β} (h : List.Forall₂ R xs ys)
    (hEach : ∀ x y, R x y → ∃ z, S x z ∧ T y z) :
    ∃ zs, List.Forall₂ S xs zs ∧ List.Forall₂ T ys zs := by
  induction h with
  | nil => exact ⟨[], .nil, .nil⟩
  | cons hHead _ ih =>
      obtain ⟨z, hS, hT⟩ := hEach _ _ hHead
      obtain ⟨zs, hSs, hTs⟩ := ih
      exact ⟨z :: zs, .cons hS hSs, .cons hT hTs⟩

end GraphMapping
