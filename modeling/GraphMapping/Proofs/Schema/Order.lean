import GraphMapping.Schema.Item
import Mathlib.Data.List.Sort
import Mathlib.Data.Prod.Lex
import Mathlib.Data.String.Basic
import Mathlib.Order.Compare

/-!
# The order of schema items

Items are compared as their kinds, labels and properties are, lexicographically.  So the order is linear,
and the ascending list of the items that occur in a list is determined by which ones they are.
-/

namespace GraphMapping

namespace SchemaItem

/-- What an item is compared by. -/
def place (item : SchemaItem) : ℕ ×ₗ String ×ₗ List String :=
  toLex (rank item.kind, toLex (item.label, item.properties))

/-- Each item comes before those behind it. -/
def Ascending (items : List SchemaItem) : Prop :=
  items.Pairwise fun a b => a.place < b.place

variable {a b item : SchemaItem} {items others : List SchemaItem}

theorem place_injective (h : a.place = b.place) : a = b := by
  obtain ⟨kind, label, properties⟩ := a
  obtain ⟨kind', label', properties'⟩ := b
  have hParts : rank kind = rank kind' ∧ label = label' ∧ properties = properties' := by
    simpa [place] using h
  obtain ⟨hKind, rfl, rfl⟩ := hParts
  cases kind <;> cases kind' <;> first | rfl | cases hKind

theorem compares_cons {o : Ordering} {name : String} {as bs : List String} (h : o.Compares as bs) :
    o.Compares (name :: as) (name :: bs) := by
  cases o with
  | lt => exact List.cons_lt_cons_iff.2 (.inr ⟨rfl, h⟩)
  | eq => exact congrArg _ h
  | gt => exact List.cons_lt_cons_iff.2 (.inr ⟨rfl, h⟩)

theorem compareNames_compares (as bs : List String) : (compareNames as bs).Compares as bs := by
  induction as generalizing bs with
  | nil =>
      cases bs with
      | nil => exact rfl
      | cons b bs => exact List.nil_lt_cons b bs
  | cons a as ih =>
      cases bs with
      | nil => exact List.nil_lt_cons a as
      | cons b bs =>
          unfold compareNames
          rcases lt_trichotomy a b with h | rfl | h
          · rw [if_pos h]
            exact List.cons_lt_cons_iff.2 (.inl h)
          · rw [if_neg (lt_irrefl a), if_pos rfl]
            exact compares_cons (ih bs)
          · rw [if_neg h.asymm, if_neg h.ne']
            exact List.cons_lt_cons_iff.2 (.inl h)

theorem compares_toLex {α β : Type} [LinearOrder α] [LinearOrder β] {o : Ordering} {a : α} {x y : β}
    (h : o.Compares x y) : o.Compares (toLex (a, x)) (toLex (a, y)) := by
  cases o with
  | lt => exact Prod.Lex.toLex_lt_toLex.2 (.inr ⟨rfl, h⟩)
  | eq => exact congrArg (fun x => toLex (a, x)) h
  | gt => exact Prod.Lex.toLex_lt_toLex.2 (.inr ⟨rfl, h⟩)

/-- The comparison of items is that of their places. -/
theorem order_compares (a b : SchemaItem) : (order a b).Compares a.place b.place := by
  obtain ⟨kind, label, properties⟩ := a
  obtain ⟨kind', label', properties'⟩ := b
  unfold order place
  dsimp only
  rcases lt_trichotomy (rank kind) (rank kind') with h | h | h
  · rw [if_pos h]
    exact Prod.Lex.toLex_lt_toLex.2 (.inl h)
  · rw [if_neg h.not_lt, if_neg h.not_gt, h]
    apply compares_toLex
    rcases lt_trichotomy label label' with hLabel | rfl | hLabel
    · rw [if_pos hLabel]
      exact Prod.Lex.toLex_lt_toLex.2 (.inl hLabel)
    · rw [if_neg (lt_irrefl label), if_pos rfl]
      exact compares_toLex (compareNames_compares properties properties')
    · rw [if_neg hLabel.asymm, if_neg hLabel.ne']
      exact Prod.Lex.toLex_lt_toLex.2 (.inl hLabel)
  · rw [if_neg h.asymm, if_pos h]
    exact Prod.Lex.toLex_lt_toLex.2 (.inl h)

/-- Putting an item in leaves the others where they are. -/
theorem mem_insert : a ∈ insert item items ↔ a = item ∨ a ∈ items := by
  induction items with
  | nil => simp [insert]
  | cons first rest ih =>
      have hCompares := order_compares item first
      unfold insert
      cases hOrder : order item first with
      | lt => exact List.mem_cons
      | eq =>
          rw [hOrder] at hCompares
          cases place_injective hCompares
          simp
      | gt =>
          dsimp only
          rw [List.mem_cons, ih, List.mem_cons]
          exact or_left_comm

theorem insert_ascending (h : Ascending items) : Ascending (insert item items) := by
  induction items with
  | nil => exact List.pairwise_singleton _ _
  | cons first rest ih =>
      obtain ⟨hFirst, hRest⟩ := List.pairwise_cons.1 h
      have hCompares := order_compares item first
      unfold insert
      cases hOrder : order item first with
      | lt =>
          rw [hOrder] at hCompares
          refine List.pairwise_cons.2 ⟨fun a ha => ?_, h⟩
          rcases List.mem_cons.1 ha with rfl | ha
          · exact hCompares
          · exact lt_trans hCompares (hFirst a ha)
      | eq => exact h
      | gt =>
          rw [hOrder] at hCompares
          refine List.pairwise_cons.2 ⟨fun a ha => ?_, ih hRest⟩
          rcases mem_insert.1 ha with rfl | ha
          · exact hCompares
          · exact hFirst a ha

/-- Sorting is by repeated insertion: the result has the items of both lists, in ascending order. -/
theorem foldl_insert (h : Ascending others) :
    Ascending (items.foldl (fun acc item => insert item acc) others) ∧
      ∀ a, a ∈ items.foldl (fun acc item => insert item acc) others ↔ a ∈ items ∨ a ∈ others := by
  induction items generalizing others with
  | nil => exact ⟨h, fun a => by simp⟩
  | cons item rest ih =>
      obtain ⟨hAscending, hMem⟩ := ih (insert_ascending h)
      refine ⟨hAscending, fun a => ?_⟩
      rw [List.foldl_cons, hMem a, mem_insert, List.mem_cons]
      tauto

theorem sorted_ascending (items : List SchemaItem) : Ascending (sorted items) :=
  (foldl_insert .nil).1

theorem mem_sorted : a ∈ sorted items ↔ a ∈ items := by
  unfold sorted
  rw [(foldl_insert .nil).2 a]
  simp

/-- Ascending lists of the same items are equal. -/
theorem Ascending.ext (h : Ascending items) (h' : Ascending others)
    (hSame : ∀ a, a ∈ items ↔ a ∈ others) : items = others := by
  have hIrrefl : Std.Irrefl fun a b : SchemaItem => a.place < b.place := ⟨fun a => lt_irrefl a.place⟩
  have hAntisymm : Std.Antisymm fun a b : SchemaItem => a.place < b.place :=
    ⟨fun a b hLess hGreater => absurd hGreater hLess.asymm⟩
  exact List.Pairwise.eq_of_mem_iff h h' hSame

/-- The sorted list depends on which items occur only. -/
theorem sorted_congr (h : ∀ a, a ∈ items ↔ a ∈ others) : sorted items = sorted others :=
  (sorted_ascending items).ext (sorted_ascending others) fun a => by rw [mem_sorted, mem_sorted, h a]

end SchemaItem

end GraphMapping
