/-!
# Dictionaries

Properties, parameters and rows are maps from names to values.  A dictionary is the list of its
entries in ascending order of the names; names compare by code points.  Main statements: a look-up
after `insert` sees the inserted value under its own name and every other name unchanged, and
`insert` keeps the order.
-/

namespace GraphMapping

/-- A map from names to values, as the list of its entries in the order of the names. -/
abbrev Dict (α : Type) := List (String × α)

namespace Dict

variable {α β : Type}

/-- The names stand in strictly ascending order. -/
def Sorted (d : Dict α) : Prop :=
  d.Pairwise fun a b => a.1 < b.1

/-- The value stored under `name`. -/
def find? (d : Dict α) (name : String) : Option α :=
  match d with
  | [] => none
  | (k, v) :: rest => if k = name then some v else find? rest name

/-- Store `value` under `name`, in place of an older value. -/
def insert (d : Dict α) (name : String) (value : α) : Dict α :=
  match d with
  | [] => [(name, value)]
  | (k, v) :: rest =>
      if name < k then (name, value) :: (k, v) :: rest
      else if name = k then (name, value) :: rest
      else (k, v) :: insert rest name value

/-- Remove the entry under `name`. -/
def erase (d : Dict α) (name : String) : Dict α :=
  d.filter fun e => e.1 ≠ name

/-- The dictionary of some entries; a later entry replaces an earlier one of its name. -/
def ofList (entries : List (String × α)) : Dict α :=
  entries.foldl (fun d e => insert d e.1 e.2) []

/-- Add all entries of `more`, which win over those of `d`. -/
def merge (d more : Dict α) : Dict α :=
  more.foldl (fun acc e => insert acc e.1 e.2) d

/-- Replace the value under `name` by its image under `f`; `f` sees `none` where there is none. -/
def alter (d : Dict α) (name : String) (f : Option α → α) : Dict α :=
  insert d name (f (find? d name))

/-- Append `value` to the list under `name`. -/
def push (d : Dict (List α)) (name : String) (value : α) : Dict (List α) :=
  alter d name fun values => values.getD [] ++ [value]

/-- The names of a dictionary. -/
def names (d : Dict α) : List String :=
  d.map Prod.fst

/-- A look-up sees the value stored last. -/
theorem find?_insert_self (d : Dict α) (name : String) (value : α) :
    find? (insert d name value) name = some value := by
  induction d with
  | nil => simp [insert, find?]
  | cons e rest ih =>
      obtain ⟨k, v⟩ := e
      unfold insert
      split
      · simp [find?]
      · split
        · simp [find?]
        · rename_i h
          simp [find?, Ne.symm h, ih]

/-- Storing a value leaves all other names alone. -/
theorem find?_insert_of_ne (d : Dict α) {name other : String} (value : α) (h : other ≠ name) :
    find? (insert d name value) other = find? d other := by
  induction d with
  | nil => simp [insert, find?, h.symm]
  | cons e rest ih =>
      obtain ⟨k, v⟩ := e
      unfold insert
      split
      · simp [find?, h.symm]
      · split
        · rename_i hk
          subst hk
          simp [find?, h.symm]
        · simp [find?, ih]

theorem mem_insert {d : Dict α} {name : String} {value : α} {e : String × α}
    (h : e ∈ insert d name value) : e = (name, value) ∨ e ∈ d := by
  induction d with
  | nil => simpa [insert] using h
  | cons a rest ih =>
      obtain ⟨k, v⟩ := a
      unfold insert at h
      split at h
      · simpa using h
      · split at h
        · simp only [List.mem_cons] at h ⊢
          exact h.imp_right Or.inr
        · simp only [List.mem_cons] at h ⊢
          rcases h with h | h
          · exact Or.inr (Or.inl h)
          · exact (ih h).imp_right Or.inr

/-- Storing a value keeps the order of the names. -/
theorem sorted_insert {d : Dict α} (h : Sorted d) (name : String) (value : α) :
    Sorted (insert d name value) := by
  induction d with
  | nil => simp [insert, Sorted]
  | cons a rest ih =>
      obtain ⟨k, v⟩ := a
      have hk : ∀ e ∈ rest, k < e.1 := (List.pairwise_cons.1 h).1
      have hrest : Sorted rest := (List.pairwise_cons.1 h).2
      unfold insert
      split
      · rename_i hlt
        refine List.pairwise_cons.2 ⟨?_, h⟩
        intro e he
        rcases List.mem_cons.1 he with rfl | he
        · exact hlt
        · exact String.lt_trans hlt (hk e he)
      · rename_i hnot
        split
        · rename_i heq
          subst heq
          exact List.pairwise_cons.2 ⟨hk, hrest⟩
        · rename_i hne
          refine List.pairwise_cons.2 ⟨?_, ih hrest⟩
          intro e he
          rcases mem_insert he with rfl | he
          · have hle : k ≤ name := String.not_lt.1 hnot
            exact Std.lt_of_le_of_ne hle (Ne.symm hne)
          · exact hk e he
end Dict

end GraphMapping
