import GraphMapping.Text.Blank
import Mathlib.Data.List.Basic

/-!
# Trimmed and cut texts

Blanks at the ends of a text are lost when it is trimmed, whether they were there or have been added.  The
pieces of two texts put together are those of the first and those of the second, the two that meet as one.
A text that is cut at a sign keeps its parts, trimmed, if it is trimmed before.
-/

namespace GraphMapping.Text

/-- Nothing but blanks. -/
def Blanks (cs : List Char) : Prop :=
  ∀ c ∈ cs, isBlank c = true

instance (cs : List Char) : Decidable (Blanks cs) :=
  List.decidableBAll _ cs

/-- Remove the blanks behind the last other character. -/
def trimRight (cs : List Char) : List Char :=
  (trimLeft cs.reverse).reverse

variable {sep c : Char} {cs blanks : List Char}

theorem Blanks.append {blanks' : List Char} (h : Blanks blanks) (h' : Blanks blanks') :
    Blanks (blanks ++ blanks') :=
  List.forall_mem_append.2 ⟨h, h'⟩

theorem Blanks.not_mem (hSep : isBlank sep = false) (h : Blanks blanks) : sep ∉ blanks :=
  fun hIn => Bool.false_ne_true (hSep.symm.trans (h sep hIn))

theorem trimLeft_blanks (h : Blanks blanks) (cs : List Char) : trimLeft (blanks ++ cs) = trimLeft cs :=
  List.dropWhile_append_of_pos h

theorem trimLeft_solid (hc : isBlank c = false) (cs rest : List Char) :
    trimLeft (cs ++ c :: rest) = trimLeft cs ++ c :: rest := by
  induction cs with
  | nil => exact List.dropWhile_cons_of_neg (by simp [hc])
  | cons d more ih =>
      unfold trimLeft at ih ⊢
      rw [List.cons_append, List.dropWhile_cons, List.dropWhile_cons]
      split
      · exact ih
      · rfl

theorem trimRight_blanks (h : Blanks blanks) (cs : List Char) : trimRight (cs ++ blanks) = trimRight cs := by
  unfold trimRight
  rw [List.reverse_append, trimLeft_blanks fun c hc => h c (List.mem_reverse.1 hc)]

theorem trimRight_solid (hc : isBlank c = false) (cs rest : List Char) :
    trimRight (cs ++ c :: rest) = cs ++ c :: trimRight rest := by
  unfold trimRight
  rw [List.reverse_append, List.reverse_cons, List.append_assoc, List.singleton_append,
    trimLeft_solid hc, List.reverse_append, List.reverse_cons, List.reverse_reverse, List.append_assoc,
    List.singleton_append]

theorem exists_blanks_trimLeft (cs : List Char) : ∃ blanks, Blanks blanks ∧ cs = blanks ++ trimLeft cs :=
  ⟨cs.takeWhile isBlank, List.all_eq_true.1 List.all_takeWhile, List.takeWhile_append_dropWhile.symm⟩

theorem exists_trimRight_blanks (cs : List Char) :
    ∃ blanks, Blanks blanks ∧ cs = trimRight cs ++ blanks := by
  obtain ⟨blanks, hBlanks, h⟩ := exists_blanks_trimLeft cs.reverse
  refine ⟨blanks.reverse, fun c hc => hBlanks c (List.mem_reverse.1 hc), ?_⟩
  unfold trimRight
  rw [← List.reverse_append, ← h, List.reverse_reverse]

theorem trim_blanks_append (h : Blanks blanks) (cs : List Char) : trim (blanks ++ cs) = trim cs :=
  congrArg trimRight (trimLeft_blanks h cs)

theorem trim_append_blanks (h : Blanks blanks) (cs : List Char) : trim (cs ++ blanks) = trim cs := by
  induction cs with
  | nil =>
      have hNone := trim_blanks_append h []
      rwa [List.append_nil] at hNone
  | cons c rest ih =>
      cases hc : isBlank c with
      | true =>
          -- A leading blank goes from both.
          have hOne : Blanks [c] := fun d hd => List.mem_singleton.1 hd ▸ hc
          exact (trim_blanks_append hOne (rest ++ blanks)).trans (ih.trans (trim_blanks_append hOne rest).symm)
      | false =>
          change trimRight (trimLeft ([] ++ c :: (rest ++ blanks))) = trimRight (trimLeft ([] ++ c :: rest))
          rw [trimLeft_solid hc, trimLeft_solid hc]
          exact trimRight_blanks h (c :: rest)

theorem trim_trimLeft (cs : List Char) : trim (trimLeft cs) = trim cs := by
  obtain ⟨blanks, hBlanks, h⟩ := exists_blanks_trimLeft cs
  exact (trim_blanks_append hBlanks _).symm.trans (congrArg trim h.symm)

theorem trim_trimRight (cs : List Char) : trim (trimRight cs) = trim cs := by
  obtain ⟨blanks, hBlanks, h⟩ := exists_trimRight_blanks cs
  exact (trim_append_blanks hBlanks _).symm.trans (congrArg trim h.symm)

theorem cut_append (h : sep ∉ cs) (rest : List Char) : cut sep (cs ++ sep :: rest) = some (cs, rest) := by
  induction cs with
  | nil => exact if_pos (beq_self_eq_true sep)
  | cons c more ih =>
      obtain ⟨hc, hMore⟩ := List.ne_and_not_mem_of_not_mem_cons h
      rw [List.cons_append, cut, if_neg (by simpa using hc.symm), ih hMore]
      rfl

/-- The two sides of a cut are trimmed at their outer ends if the whole is. -/
theorem cut_trim (hSep : isBlank sep = false) (h : sep ∉ cs) (rest : List Char) :
    cut sep (trim (cs ++ sep :: rest)) = some (trimLeft cs, trimRight rest) := by
  change cut sep (trimRight (trimLeft (cs ++ sep :: rest))) = _
  rw [trimLeft_solid hSep, trimRight_solid hSep]
  exact cut_append (fun hIn => h ((List.dropWhile_suffix isBlank).subset hIn)) _

theorem split_of_not_mem (h : sep ∉ cs) : split sep cs = [cs] := by
  unfold split
  induction cs with
  | nil => rfl
  | cons c rest ih =>
      obtain ⟨hc, hRest⟩ := List.ne_and_not_mem_of_not_mem_cons h
      rw [splitWhere, if_neg (by simpa using hc.symm), ih hRest]

/-- Where two texts are put together, the last piece of one and the first piece of the other become one. -/
theorem split_append {a b left right : List Char} {before after : List (List Char)}
    (ha : split sep a = before ++ [left]) (hb : split sep b = right :: after) :
    split sep (a ++ b) = before ++ (left ++ right) :: after := by
  unfold split at ha hb ⊢
  induction a generalizing before left with
  | nil =>
      cases before with
      | nil =>
          cases ha
          exact hb
      | cons piece more => exact absurd (List.cons.inj ha).2.symm (List.append_ne_nil_of_right_ne_nil _ nofun)
  | cons c rest ih =>
      rw [List.cons_append]
      unfold splitWhere at ha ⊢
      split at ha
      · -- A separator ends an empty piece, which is not the last one.
        rw [if_pos ‹_›]
        cases before with
        | nil => exact absurd (List.cons.inj ha).2 (splitWhere_ne_nil _ _)
        | cons piece more =>
            obtain ⟨rfl, hRest⟩ := List.cons.inj ha
            rw [ih hRest]
            rfl
      · rw [if_neg ‹_›]
        split at ha
        · exact absurd ‹_› (splitWhere_ne_nil _ _)
        · rename_i piece pieces hRest
          -- The character belongs to the first piece, which is the last one if there is no other.
          cases before with
          | nil =>
              obtain ⟨rfl, rfl⟩ := List.cons.inj ha
              have hLast : splitWhere (· == sep) rest = [] ++ [piece] := hRest
              rw [ih hLast]
              rfl
          | cons first more =>
              obtain ⟨rfl, rfl⟩ := List.cons.inj ha
              have hLast : splitWhere (· == sep) rest = (piece :: more) ++ [left] := hRest
              rw [ih hLast]
              rfl

/-- Blanks that are put into a text stand in the piece that they are put into. -/
theorem split_insert {a b left right : List Char} {before after : List (List Char)}
    (hSep : isBlank sep = false) (hBlanks : Blanks blanks) (ha : split sep a = before ++ [left])
    (hb : split sep b = right :: after) :
    split sep (a ++ blanks ++ b) = before ++ (left ++ blanks ++ right) :: after := by
  have hBack : split sep (blanks ++ b) = [] ++ (blanks ++ right) :: after :=
    split_append (split_of_not_mem (hBlanks.not_mem hSep)) hb
  rw [List.append_assoc, List.append_assoc]
  exact split_append ha hBack

end GraphMapping.Text
