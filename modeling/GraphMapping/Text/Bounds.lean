/-!
# Classes of characters given by bounds

A class of characters is an ascending array of code points at which the class begins and ends in
turn.  Main statement: the number found by halving separates the bounds up to a code point from those
beyond it, so a code point belongs to the class exactly if that number is odd.
-/

namespace GraphMapping.Text

/-- How many leading bounds do not exceed `n`, found by halving the stretch from `low` to `high`. -/
def boundsUpTo (bounds : Array Nat) (n low high : Nat) : Nat → Nat
  | 0 => low
  | steps + 1 =>
      if low < high then
        let middle := (low + high) / 2
        if bounds.getD middle 0 ≤ n then boundsUpTo bounds n (middle + 1) high steps
        else boundsUpTo bounds n low middle steps
      else low

/-- A code point between a bound where the class begins and the next one, where it ends. -/
def isBetween (bounds : Array Nat) (n : Nat) : Bool :=
  boundsUpTo bounds n 0 bounds.size bounds.size % 2 == 1

/-- The number found separates the bounds up to `n` from those beyond it. -/
theorem boundsUpTo_separates {bounds : Array Nat} {n : Nat}
    (ascending : ∀ i j, i < j → j < bounds.size → bounds.getD i 0 < bounds.getD j 0)
    (low high steps : Nat) (hsize : high ≤ bounds.size) (hsteps : high ≤ low + steps)
    (hlow : ∀ i, i < low → bounds.getD i 0 ≤ n)
    (hhigh : ∀ i, high ≤ i → i < bounds.size → n < bounds.getD i 0) (i : Nat)
    (hi : i < bounds.size) :
    i < boundsUpTo bounds n low high steps ↔ bounds.getD i 0 ≤ n := by
  induction steps generalizing low high with
  | zero =>
      refine ⟨hlow i, fun h => Nat.lt_of_not_le fun hle => ?_⟩
      have hge : high ≤ i := by simp only [boundsUpTo] at hle; omega
      exact absurd (hhigh i hge hi) (Nat.not_lt.2 h)
  | succ steps ih =>
      rw [boundsUpTo]
      by_cases hlt : low < high
      · rw [if_pos hlt]
        have hmiddle : (low + high) / 2 < bounds.size := by omega
        by_cases hle : bounds.getD ((low + high) / 2) 0 ≤ n
        · simp only [if_pos hle]
          refine ih _ _ hsize (by omega) (fun j hj => ?_) hhigh
          rcases Nat.lt_or_eq_of_le (Nat.le_of_lt_succ hj) with hj | rfl
          · exact Nat.le_trans (Nat.le_of_lt (ascending _ _ hj hmiddle)) hle
          · exact hle
        · simp only [if_neg hle]
          refine ih _ _ (Nat.le_of_lt hmiddle) (by omega) hlow (fun j hj hjs => ?_)
          rcases Nat.lt_or_eq_of_le hj with hj | rfl
          · exact Nat.lt_trans (Nat.lt_of_not_le hle) (ascending _ _ hj hjs)
          · exact Nat.lt_of_not_le hle
      · rw [if_neg hlt]
        refine ⟨hlow i, fun h => Nat.lt_of_not_le fun hge => ?_⟩
        exact absurd (hhigh i (by omega) hi) (Nat.not_lt.2 h)

end GraphMapping.Text
