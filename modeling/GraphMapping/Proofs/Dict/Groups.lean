import GraphMapping.Dict

/-!
# Groups in dictionaries

A plan keeps its nodes by label and its relationships by type.  Such a dictionary groups items by a name
that each item has: `Groups` is its invariant, and `push` keeps it and adds exactly one item.
-/

namespace GraphMapping

namespace Dict

variable {α β : Type}

theorem mem_of_find? {d : Dict α} {name : String} {value : α} (h : find? d name = some value) :
    (name, value) ∈ d := by
  induction d with
  | nil => cases h
  | cons e rest ih =>
      obtain ⟨k, v⟩ := e
      unfold find? at h
      split at h
      · rename_i hk
        cases h
        rw [hk]
        exact List.mem_cons_self
      · exact List.mem_cons_of_mem _ (ih h)

theorem find?_of_mem {d : Dict α} {name : String} {value : α} (hSorted : Sorted d)
    (h : (name, value) ∈ d) : find? d name = some value := by
  induction d with
  | nil => cases h
  | cons e rest ih =>
      obtain ⟨k, v⟩ := e
      obtain ⟨hFirst, hRest⟩ := List.pairwise_cons.1 hSorted
      rcases List.mem_cons.1 h with hHere | hLater
      · cases hHere
        exact if_pos rfl
      · have hne : k ≠ name := by
          rintro rfl
          exact String.lt_irrefl k (hFirst _ hLater)
        exact (if_neg hne).trans (ih hRest hLater)

theorem find?_eq_none_of_forall_lt {d : Dict α} {name : String} (h : ∀ e ∈ d, name < e.1) :
    find? d name = none := by
  cases hFind : find? d name with
  | none => rfl
  | some v => exact absurd (h _ (mem_of_find? hFind)) (String.lt_irrefl name)

/-- All items of a grouped dictionary, group by group. -/
def members (d : Dict (List α)) : List α :=
  d.flatMap (·.2)

theorem mem_members {d : Dict (List α)} {a : α} : a ∈ members d ↔ ∃ e ∈ d, a ∈ e.2 :=
  List.mem_flatMap

/-- The items of a dictionary stand in the groups of their names. -/
structure Groups (name : α → String) (d : Dict (List α)) : Prop where
  sorted : Sorted d
  named : ∀ e ∈ d, ∀ a ∈ e.2, name a = e.1
  inhabited : ∀ e ∈ d, e.2 ≠ []

theorem Groups.nil (name : α → String) : Groups name [] :=
  ⟨List.Pairwise.nil, fun _ h => absurd h List.not_mem_nil, fun _ h => absurd h List.not_mem_nil⟩

/-- The group of a name holds the items that have this name. -/
theorem Groups.mem_group_iff {name : α → String} {d : Dict (List α)} (h : Groups name d) {k : String}
    {a : α} : a ∈ (find? d k).getD [] ↔ a ∈ members d ∧ name a = k := by
  constructor
  · intro ha
    cases hGroup : find? d k with
    | none =>
        rw [hGroup] at ha
        exact absurd ha List.not_mem_nil
    | some items =>
        rw [hGroup] at ha
        have hMem : (k, items) ∈ d := mem_of_find? hGroup
        exact ⟨mem_members.2 ⟨_, hMem, ha⟩, h.named _ hMem a ha⟩
  · rintro ⟨ha, rfl⟩
    obtain ⟨⟨k, items⟩, hMem, hItem⟩ := mem_members.1 ha
    have hName : name a = k := h.named _ hMem a hItem
    rw [hName, find?_of_mem h.sorted hMem]
    exact hItem

/-- The group of the pushed item gets it as its last one, all other groups stay. -/
theorem members_insert_perm {d : Dict (List α)} (hSorted : Sorted d) (k : String) (a : α) :
    (members (insert d k ((Dict.find? d k).getD [] ++ [a]))).Perm (members d ++ [a]) := by
  induction d with
  | nil => exact List.Perm.refl _
  | cons e rest ih =>
      obtain ⟨k', items⟩ := e
      have hFirst : ∀ e ∈ rest, k' < e.1 := (List.pairwise_cons.1 hSorted).1
      have hRest : Sorted rest := (List.pairwise_cons.1 hSorted).2
      unfold insert
      split
      · -- The name stands before all others, so that it had no group.
        rename_i hlt
        have hNone : Dict.find? ((k', items) :: rest) k = none := by
          apply find?_eq_none_of_forall_lt
          intro e he
          rcases List.mem_cons.1 he with rfl | he
          · exact hlt
          · exact String.lt_trans hlt (hFirst e he)
        rw [hNone]
        exact @List.perm_append_comm _ [a] _
      · split
        · rename_i _ heq
          subst heq
          have hItems : Dict.find? ((k, items) :: rest) k = some items := if_pos rfl
          rw [hItems]
          change ((items ++ [a]) ++ members rest).Perm ((items ++ members rest) ++ [a])
          rw [List.append_assoc, List.append_assoc]
          exact List.Perm.append_left items List.perm_append_comm
        · rename_i _ hne
          have hSkip : Dict.find? ((k', items) :: rest) k = Dict.find? rest k :=
            if_neg (Ne.symm hne)
          rw [hSkip]
          change (items ++ members _).Perm ((items ++ members rest) ++ [a])
          rw [List.append_assoc]
          exact List.Perm.append_left items (ih hRest)

theorem members_push_perm {d : Dict (List α)} (hSorted : Sorted d) (k : String) (a : α) :
    (members (push d k a)).Perm (members d ++ [a]) :=
  members_insert_perm hSorted k a

theorem mem_members_push {d : Dict (List α)} (hSorted : Sorted d) {k : String} {a b : α} :
    b ∈ members (push d k a) ↔ b ∈ members d ∨ b = a := by
  rw [(members_push_perm hSorted k a).mem_iff, List.mem_append, List.mem_singleton]

theorem filter_members_push_of_pos {d : Dict (List α)} (hSorted : Sorted d) {k : String} {a : α}
    {keep : α → Bool} (h : keep a = true) :
    ((members (push d k a)).filter keep).Perm ((members d).filter keep ++ [a]) := by
  have hPerm := (members_push_perm hSorted k a).filter keep
  rw [List.filter_append, List.filter_cons_of_pos h, List.filter_nil] at hPerm
  exact hPerm

theorem filter_members_push_of_neg {d : Dict (List α)} (hSorted : Sorted d) {k : String} {a : α}
    {keep : α → Bool} (h : keep a = false) :
    ((members (push d k a)).filter keep).Perm ((members d).filter keep) := by
  have hPerm := (members_push_perm hSorted k a).filter keep
  rw [List.filter_append, List.filter_cons_of_neg (Bool.eq_false_iff.1 h), List.filter_nil,
    List.append_nil] at hPerm
  exact hPerm

/-- Items that something tells apart are told apart from a pushed one that is new to it. -/
theorem nodup_map_members_push {β : Type} {d : Dict (List α)} (hSorted : Sorted d) {k : String} {a : α}
    {f : α → β} (hOld : ((members d).map f).Nodup) (hNew : ∀ b ∈ members d, f b ≠ f a) :
    ((members (push d k a)).map f).Nodup := by
  refine ((members_push_perm hSorted k a).map f).nodup_iff.2 ?_
  rw [List.map_append, List.map_singleton]
  refine List.nodup_append.2 ⟨hOld, List.nodup_cons.2 ⟨List.not_mem_nil, List.nodup_nil⟩, ?_⟩
  intro x hx y hy
  obtain ⟨b, hb, rfl⟩ := List.mem_map.1 hx
  rw [List.mem_singleton.1 hy]
  exact hNew b hb

theorem Groups.push {name : α → String} {d : Dict (List α)} (h : Groups name d) (a : α) :
    Groups name (push d (name a) a) := by
  refine ⟨sorted_insert h.sorted _ _, ?_, ?_⟩
  · intro e he b hb
    rcases mem_insert he with rfl | he
    · cases hGroup : Dict.find? d (name a) with
      | none =>
          simp only [hGroup, Option.getD_none, List.nil_append, List.mem_singleton] at hb
          rw [hb]
      | some items =>
          simp only [hGroup, Option.getD_some, List.mem_append, List.mem_singleton] at hb
          rcases hb with hb | rfl
          · exact h.named _ (mem_of_find? hGroup) b hb
          · rfl
    · exact h.named e he b hb
  · intro e he
    rcases mem_insert he with rfl | he
    · exact List.append_ne_nil_of_right_ne_nil _ (List.cons_ne_nil a [])
    · exact h.inhabited e he

end Dict

end GraphMapping
