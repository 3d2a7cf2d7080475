import GraphMapping.Proofs.Dict.Groups
import Mathlib.Data.List.Induction

/-!
# Dictionaries as functions

A sorted dictionary is known by what it says of each name.  Removing an entry, and storing one, change
this for one name only.  Names that end in different numbers are different.
-/

namespace GraphMapping

namespace Dict

variable {α : Type}

/-- A dictionary has an entry of a name. -/
def Lists (d : Dict α) (name : String) : Prop :=
  ∃ value, find? d name = some value

theorem find?_cons_of_ne {d : Dict α} {k name : String} (value : α) (h : name ≠ k) :
    find? ((k, value) :: d) name = find? d name :=
  if_neg (Ne.symm h)

theorem find?_erase_self (d : Dict α) (name : String) : find? (erase d name) name = none := by
  cases hFound : find? (erase d name) name with
  | none => rfl
  | some value =>
      have hKept := (List.mem_filter.1 (mem_of_find? hFound)).2
      simp at hKept

theorem find?_erase_of_ne (d : Dict α) {name other : String} (h : other ≠ name) :
    find? (erase d name) other = find? d other := by
  induction d with
  | nil => rfl
  | cons e rest ih =>
      obtain ⟨k, value⟩ := e
      by_cases hErased : k = name
      · have hSkip : erase ((k, value) :: rest) name = erase rest name := by
          simp [erase, hErased]
        have hOther : other ≠ k := by
          rw [hErased]
          exact h
        rw [hSkip, ih, find?_cons_of_ne value hOther]
      · have hKeep : erase ((k, value) :: rest) name = (k, value) :: erase rest name := by
          simp [erase, hErased]
        rw [hKeep]
        by_cases hHere : other = k
        · rw [hHere]
          exact (if_pos rfl).trans (if_pos rfl).symm
        · rw [find?_cons_of_ne value hHere, find?_cons_of_ne value hHere, ih]

theorem sorted_erase {d : Dict α} (h : Sorted d) (name : String) : Sorted (erase d name) :=
  h.filter _

theorem lists_insert_iff {d : Dict α} {k name : String} {value : α} :
    Lists (insert d k value) name ↔ Lists d name ∨ name = k := by
  unfold Lists
  by_cases hHere : name = k
  · rw [hHere, find?_insert_self]
    exact ⟨fun _ => .inr rfl, fun _ => ⟨value, rfl⟩⟩
  · rw [find?_insert_of_ne d value hHere]
    exact ⟨.inl, fun h => h.resolve_right hHere⟩

/-- Two sorted dictionaries that say the same of every name are equal. -/
theorem eq_of_find?_eq {d d' : Dict α} (h : Sorted d) (h' : Sorted d')
    (hSame : ∀ name, find? d name = find? d' name) : d = d' := by
  have hNodup : ∀ {d : Dict α}, Sorted d → d.Nodup := by
    intro d h
    refine h.imp ?_
    rintro a b hLess rfl
    exact String.lt_irrefl _ hLess
  have hSub : ∀ {d d' : Dict α}, Sorted d → (∀ name, find? d name = find? d' name) → d ⊆ d' := by
    intro d d' h hSame e he
    refine mem_of_find? ?_
    rw [← hSame]
    exact find?_of_mem h he
  refine List.Perm.eq_of_pairwise ?_ h h' ?_
  · intro a b _ _ hLess hLess'
    exact absurd hLess' (String.lt_asymm hLess)
  · refine (List.perm_ext_iff_of_nodup (hNodup h) (hNodup h')).2 fun e => ⟨?_, ?_⟩
    · exact fun he => hSub h hSame he
    · exact fun he => hSub h' (fun name => (hSame name).symm) he

theorem insert_perm {d : Dict α} {name : String} (value : α) (h : ∀ e ∈ d, e.1 ≠ name) :
    (insert d name value).Perm ((name, value) :: d) := by
  induction d with
  | nil => exact .refl _
  | cons e rest ih =>
      obtain ⟨hHere, hRest⟩ := List.forall_mem_cons.1 h
      unfold insert
      split
      · exact .refl _
      · split
        · rename_i hSame
          exact absurd hSame.symm hHere
        · exact ((ih hRest).cons e).trans (.swap _ _ _)

/-- A dictionary made of entries with different names has just these entries. -/
theorem ofList_perm {entries : List (String × α)} (h : (entries.map Prod.fst).Nodup) :
    (ofList entries).Perm entries := by
  induction entries using List.reverseRecOn with
  | nil => exact .refl _
  | append_singleton entries last ih =>
      rw [List.map_append, List.map_singleton] at h
      obtain ⟨hEntries, -, hLast⟩ := List.nodup_append.1 h
      have hPerm := ih hEntries
      unfold ofList at hPerm ⊢
      rw [List.foldl_append, List.foldl_cons, List.foldl_nil]
      refine (insert_perm last.2 fun e he hSame => ?_).trans ?_
      · exact hLast e.1 (List.mem_map_of_mem (hPerm.mem_iff.1 he)) last.1 List.mem_cons_self hSame
      · exact (hPerm.cons last).trans (List.perm_append_singleton last entries).symm

/-- A dictionary made of entries that agree on a name has their value under the name. -/
theorem find?_ofList_of_forall {entries : List (String × α)} {name : String} {value : α}
    (hSome : ∃ e ∈ entries, e.1 = name) (hAll : ∀ e ∈ entries, e.1 = name → e.2 = value) :
    find? (ofList entries) name = some value := by
  unfold ofList
  induction entries using List.reverseRecOn with
  | nil =>
      obtain ⟨e, he, -⟩ := hSome
      cases he
  | append_singleton entries last ih =>
      rw [List.foldl_append, List.foldl_cons, List.foldl_nil]
      have hLast : last ∈ entries ++ [last] := List.mem_append_right _ List.mem_cons_self
      by_cases hHere : last.1 = name
      · rw [hHere, find?_insert_self, hAll last hLast hHere]
      · rw [find?_insert_of_ne _ _ (Ne.symm hHere)]
        refine ih ?_ fun e he => hAll e (List.mem_append_left _ he)
        obtain ⟨e, he, hName⟩ := hSome
        rcases List.mem_append.1 he with he | he
        · exact ⟨e, he, hName⟩
        · rw [List.mem_singleton.1 he] at hName
          exact absurd hName hHere

theorem numbered_inj {front : String} {m n : Nat} (h : front ++ toString m = front ++ toString n) :
    m = n := by
  have hNumbers : toString m = toString n := (String.append_right_inj _).1 h
  have hDigits := congrArg (fun text => Nat.ofDigitChars 10 text.toList 0) hNumbers
  simpa [Nat.toString_eq_ofList_toDigits] using hDigits

end Dict

end GraphMapping
