import GraphMapping.Identifier

/-!
# Quotations

A quotation stands between two backticks, and every backtick inside belongs to a pair.  So no part of a name
ends its quotation.  A reader that has come to the end looks at one more character: a backtick there would
be the second one of a pair, and the quotation would go on; anything else ends it just there.
-/

namespace GraphMapping.Identifier

/-- Every backtick belongs to a pair. -/
inductive Paired : List Char → Prop
  | nil : Paired []
  | pair {cs : List Char} (h : Paired cs) : Paired (tick :: tick :: cs)
  | other {c : Char} {cs : List Char} (hc : c ≠ tick) (h : Paired cs) : Paired (c :: cs)

/-- Write every pair of backticks as one. -/
def undouble : List Char → List Char
  | [] => []
  | [c] => [c]
  | c :: d :: rest => if c = tick ∧ d = tick then tick :: undouble rest else c :: undouble (d :: rest)

/-- A name as far as it is quoted: without its control characters. -/
def visible (name : String) : List Char :=
  name.toList.filter (!Text.isControl ·)

/-- What a reader takes from a quotation of some characters and the text behind it.  A backtick that follows
at once goes on with the quotation. -/
def taken (cs : List Char) : List Char → Option (List Char × List Char)
  | [] => some (cs, [])
  | d :: rest =>
      if d = tick then (readInside rest).map fun (more, after) => (cs ++ tick :: more, after)
      else some (cs, d :: rest)

theorem paired_double (cs : List Char) : Paired (double cs) := by
  induction cs with
  | nil => exact .nil
  | cons c rest ih =>
      unfold double
      split
      · exact .pair ih
      · exact .other ‹_› ih

theorem undouble_cons {c : Char} (hc : c ≠ tick) (rest : List Char) :
    undouble (c :: rest) = c :: undouble rest := by
  cases rest with
  | nil => rfl
  | cons d rest => exact if_neg fun h => hc h.1

theorem undouble_double (cs : List Char) : undouble (double cs) = cs := by
  induction cs with
  | nil => rfl
  | cons c rest ih =>
      unfold double
      split
      · rename_i hc
        rw [hc, undouble, if_pos ⟨rfl, rfl⟩, ih]
      · rename_i hc
        rw [undouble_cons hc, ih]

theorem taken_cons (c : Char) (cs rest : List Char) :
    taken (c :: cs) rest = (taken cs rest).map fun (name, after) => (c :: name, after) := by
  cases rest with
  | nil => rfl
  | cons d rest =>
      by_cases hd : d = tick
      · simp [taken, hd, Function.comp_def]
      · simp [taken, hd]

/-- The inside of a quotation is read to its end; the reader goes on only with a backtick that follows. -/
theorem readInside_double_taken (cs rest : List Char) :
    readInside (double cs ++ tick :: rest) = taken cs rest := by
  induction cs with
  | nil =>
      cases rest with
      | nil => simp [double, readInside, taken]
      | cons d rest => by_cases hd : d = tick <;> simp [double, readInside, taken, hd]
  | cons c cs ih =>
      rw [taken_cons, ← ih]
      by_cases hc : c = tick
      · simp [double, readInside, hc]
      · simp [double, hc, readInside_cons hc]

/-- A quotation is a backtick, paired characters that undo to the name, and a backtick. -/
theorem quote_shape (name : String) : ∃ inside,
    (quote name).toList = tick :: inside ++ [tick] ∧ Paired inside ∧ undouble inside = visible name :=
  ⟨double (visible name), String.toList_ofList, paired_double _, undouble_double _⟩

theorem read_quote_taken (name : String) (rest : List Char) :
    read ((quote name).toList ++ rest) = taken (visible name) rest := by
  have hText : (quote name).toList ++ rest = tick :: (double (visible name) ++ tick :: rest) := by
    rw [quote, String.toList_ofList, quoteChars, visible]
    simp
  rw [hText, read, if_pos rfl, readInside_double_taken]

end GraphMapping.Identifier
