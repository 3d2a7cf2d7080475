import GraphMapping.Identifier
import Mathlib.Data.List.Forall2

/-!
# Placeholders

A text refers to a parameter by a dollar sign and the parameter's name.  A dollar sign in a quotation is part
of the quoted name.  A backtick opens a quotation or closes it; one that is written twice does both, with
nothing between.  So texts are read piece by piece: words without dollar signs and backticks, quoted names,
and placeholders, each of which ends where no name can go on.
-/

namespace GraphMapping

/-- Letters, digits and underscores make the name of a parameter. -/
def isNameChar (c : Char) : Bool :=
  c.isAlphanum || c == '_'

/-- The names behind dollar signs that stand in no quotation. -/
def placeholdersIn (quoted : Bool) : List Char → List String
  | [] => []
  | c :: rest =>
      if c = Identifier.tick then placeholdersIn (!quoted) rest
      else if c = '$' ∧ quoted = false then
        String.ofList (rest.takeWhile isNameChar) :: placeholdersIn quoted rest
      else placeholdersIn quoted rest

/-- The names of the parameters that a text refers to, in order. -/
def placeholders (text : String) : List String :=
  placeholdersIn false text.toList

namespace Placeholder

/-- Neither a dollar sign nor a backtick. -/
def isPlain (c : Char) : Bool :=
  c != '$' && c != Identifier.tick

/-- A name of a parameter cannot go on with this text. -/
def Stops (cs : List Char) : Prop :=
  ∀ c, cs.head? = some c → isNameChar c = false

/-- A text refers to nothing and leaves no quotation open. -/
def Neutral (s : String) : Prop :=
  ∀ rest, placeholdersIn false (s.toList ++ rest) = placeholdersIn false rest

/-- A text refers to some names, whatever follows that does not go on with the last one, and leaves no
quotation open. -/
def Shows (s : String) (names : List String) : Prop :=
  ∀ rest, Stops rest → placeholdersIn false (s.toList ++ rest) = names ++ placeholdersIn false rest

variable {s t sep : String} {names more : List String} {cs rest : List Char} {quoted : Bool}

/-! ## Pieces -/

theorem isPlain_of_isNameChar {c : Char} (h : isNameChar c = true) : isPlain c = true := by
  by_contra hNot
  simp only [isPlain, Bool.and_eq_true, bne_iff_ne, not_and_or, not_not] at hNot
  rcases hNot with rfl | rfl <;> revert h <;> decide

theorem plain_of_name (h : cs.all isNameChar = true) : cs.all isPlain = true :=
  List.all_eq_true.2 fun c hc => isPlain_of_isNameChar (List.all_eq_true.1 h c hc)

/-- A number can stand in a name. -/
theorem number_chars (n : Nat) : (toString n).toList.all isNameChar = true := by
  refine List.all_eq_true.2 fun c hc => ?_
  rw [Nat.toString_eq_ofList_toDigits, String.toList_ofList] at hc
  have hDigit := Nat.isDigit_of_mem_toDigits (by decide) (by decide) hc
  simp [isNameChar, Char.isAlphanum, hDigit]

theorem placeholdersIn_plain (h : cs.all isPlain = true) (rest : List Char) :
    placeholdersIn quoted (cs ++ rest) = placeholdersIn quoted rest := by
  induction cs with
  | nil => rfl
  | cons c cs ih =>
      rw [List.all_cons, Bool.and_eq_true] at h
      obtain ⟨hHere, hMore⟩ := h
      simp only [isPlain, Bool.and_eq_true, bne_iff_ne] at hHere
      rw [List.cons_append, placeholdersIn, if_neg hHere.2, if_neg fun hDollar => hHere.1 hDollar.1]
      exact ih hMore

/-- What is quoted stays in the quotation: every backtick in it closes and opens. -/
theorem placeholdersIn_double (cs rest : List Char) :
    placeholdersIn true (Identifier.double cs ++ rest) = placeholdersIn true rest := by
  induction cs with
  | nil => rfl
  | cons c cs ih =>
      unfold Identifier.double
      split
      · simpa [placeholdersIn] using ih
      · rename_i hc
        rw [List.cons_append, placeholdersIn, if_neg hc, if_neg fun hDollar => by cases hDollar.2]
        exact ih

theorem neutral_plain (h : s.toList.all isPlain = true) : Neutral s :=
  placeholdersIn_plain h

theorem neutral_quote (name : String) : Neutral (Identifier.quote name) := by
  intro rest
  rw [Identifier.quote, String.toList_ofList, Identifier.quoteChars, List.append_assoc, List.cons_append,
    placeholdersIn, if_pos rfl]
  change placeholdersIn true (Identifier.double _ ++ Identifier.tick :: rest) = _
  rw [placeholdersIn_double, placeholdersIn, if_pos rfl]
  rfl

theorem shows_placeholder {name : String} (h : name.toList.all isNameChar = true) :
    Shows ("$" ++ name) [name] := by
  intro rest hStops
  have hName : (name.toList ++ rest).takeWhile isNameChar = name.toList := by
    rw [List.takeWhile_append_of_pos (List.all_eq_true.1 h)]
    cases rest with
    | nil => exact List.append_nil _
    | cons c rest => rw [List.takeWhile_cons_of_neg (by simp [hStops c rfl]), List.append_nil]
  have hText : ("$" ++ name).toList ++ rest = '$' :: (name.toList ++ rest) := by
    rw [String.toList_append]
    rfl
  rw [hText, placeholdersIn, if_neg (by decide), if_pos ⟨rfl, rfl⟩, hName, String.ofList_toList,
    placeholdersIn_plain (plain_of_name h)]
  rfl

/-! ## Texts -/

theorem stops_append (hs : Stops s.toList) (hRest : Stops rest) : Stops (s.toList ++ rest) := by
  cases hText : s.toList with
  | nil => exact hRest
  | cons c cs => rwa [hText] at hs

theorem stops_cons {c : Char} (h : isNameChar c = false) (cs : List Char) : Stops (c :: cs) := by
  rintro _ ⟨⟩
  exact h

theorem stops_nil : Stops [] :=
  fun _ hNone => by cases hNone

theorem Neutral.append (hs : Neutral s) (ht : Neutral t) : Neutral (s ++ t) := by
  intro rest
  rw [String.toList_append, List.append_assoc, hs, ht]

theorem Neutral.shows (h : Neutral s) : Shows s [] :=
  fun rest _ => h rest

theorem Neutral.append_shows (hs : Neutral s) (ht : Shows t names) : Shows (s ++ t) names := by
  intro rest hStops
  rw [String.toList_append, List.append_assoc, hs, ht rest hStops]

theorem Shows.append (hs : Shows s names) (hStops : Stops t.toList) (ht : Shows t more) :
    Shows (s ++ t) (names ++ more) := by
  intro rest hRest
  rw [String.toList_append, List.append_assoc, hs _ (stops_append hStops hRest), ht rest hRest,
    List.append_assoc]

theorem shows_empty : Shows "" [] :=
  fun _ _ => rfl

/-- A text that stands on a condition refers to its names on the condition. -/
theorem shows_unless {p : Prop} [Decidable p] (h : ¬ p → Shows s names) :
    Shows (if p then "" else s) (if p then [] else names) := by
  split
  · exact shows_empty
  · exact h ‹_›

theorem stops_unless {p : Prop} [Decidable p] (h : Stops s.toList) :
    Stops (if p then "" else s).toList := by
  split
  · exact stops_nil
  · exact h

/-- Texts that are joined refer to what each of them refers to. -/
theorem shows_intercalate (hSep : Neutral sep) (hStops : ∀ rest, Stops (sep.toList ++ rest))
    {texts : List String} {names : List (List String)} (h : List.Forall₂ Shows texts names) :
    Shows (sep.intercalate texts) names.flatten := by
  induction h with
  | nil => exact fun rest _ => rfl
  | @cons s ns texts names hHere hMore ih =>
      cases hMore with
      | nil => simpa using hHere
      | @cons t ms texts names hNext hRest =>
          rw [String.intercalate_cons_cons, List.flatten_cons, String.append_assoc]
          -- The last name of the first text stops at the separator.
          refine hHere.append ?_ (hSep.append_shows ih)
          rw [String.toList_append]
          exact hStops _

theorem placeholders_of_shows (h : Shows s names) : placeholders s = names := by
  have hText := h [] stops_nil
  rwa [List.append_nil, placeholdersIn, List.append_nil] at hText

end Placeholder

end GraphMapping
