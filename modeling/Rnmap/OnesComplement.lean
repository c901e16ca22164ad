/-
**End-around-carry arithmetic.**

One's-complement addition in base `b` adds numbers and brings every carry out of the lowest digit
back in at the bottom.  Folding a sum this way computes a canonical representative modulo `b - 1`
in which zero has two names: `0`, which only the number zero folds to, and `b - 1`.

Main definitions:

* `OnesComplement.endAround` — fold the carries of a number until one base-`b` digit is left;
* `OnesComplement.carryAdd` — the addition of two digits with the end-around carry.

Main results:

* `OnesComplement.endAround_eq` — the closed form of the fold;
* `OnesComplement.foldl_carryAdd` — **adding digit by digit is folding the sum**;
* `OnesComplement.endAround_add_complement` — **the complement cancels**: adding the complement of
  a folded sum to the sum folds to the all-ones digit `b - 1`.
-/

import Mathlib.Tactic

set_option relaxedAutoImplicit false
set_option autoImplicit false

namespace OnesComplement

/-- One fold makes a number that needs folding smaller. -/
theorem fold_lt {b n : ℕ} (hb : 2 ≤ b) (hn : b ≤ n) : n % b + n / b < n := by
  have hdiv : 1 ≤ n / b := Nat.div_pos hn (by omega)
  have hmul : 2 * (n / b) ≤ b * (n / b) := Nat.mul_le_mul_right _ hb
  have hsplit := Nat.div_add_mod n b
  omega

/-- Fold the carries of `n` until a single base-`b` digit is left.  Bases below two have no
carries to fold. -/
def endAround (b n : ℕ) : ℕ :=
  if _h : 2 ≤ b ∧ b ≤ n then endAround b (n % b + n / b) else n
termination_by n
decreasing_by exact fold_lt _h.1 _h.2

theorem endAround_of_lt {b n : ℕ} (h : n < b) : endAround b n = n := by
  rw [endAround, dif_neg (by omega)]

theorem endAround_of_le {b n : ℕ} (hb : 2 ≤ b) (h : b ≤ n) :
    endAround b n = endAround b (n % b + n / b) := by
  rw [endAround, dif_pos ⟨hb, h⟩]

/-- Folding keeps a number positive and does not change it modulo `b - 1`. -/
theorem fold_pred_mod {b n : ℕ} (hb : 2 ≤ b) (hn : b ≤ n) :
    0 < n % b + n / b ∧ (n % b + n / b - 1) % (b - 1) = (n - 1) % (b - 1) := by
  have hdiv : 1 ≤ n / b := Nat.div_pos hn (by omega)
  refine ⟨by omega, ?_⟩
  have hsplit : n - 1 = (n % b + n / b - 1) + (b - 1) * (n / b) := by
    have hn' := Nat.div_add_mod n b
    have hmul : (b - 1) * (n / b) + n / b = b * (n / b) := by
      rw [← Nat.succ_mul]
      congr 1
      omega
    omega
  rw [hsplit, Nat.add_mul_mod_self_left]

/-- **The closed form of the fold**: zero folds to zero, and a positive number to its
representative modulo `b - 1` in the range `1, …, b - 1`. -/
theorem endAround_eq {b : ℕ} (hb : 2 ≤ b) (n : ℕ) :
    endAround b n = if n = 0 then 0 else (n - 1) % (b - 1) + 1 := by
  induction n using Nat.strong_induction_on with
  | _ n ih =>
      rcases Nat.lt_or_ge n b with h | h
      · rw [endAround_of_lt h]
        split_ifs with h0
        · exact h0
        · rw [Nat.mod_eq_of_lt (by omega)]
          omega
      · obtain ⟨hpos, hmod⟩ := fold_pred_mod hb h
        rw [endAround_of_le hb h, ih _ (fold_lt hb h), if_neg (by omega), if_neg (by omega), hmod]

theorem endAround_lt {b : ℕ} (hb : 2 ≤ b) (n : ℕ) : endAround b n < b := by
  rw [endAround_eq hb]
  split_ifs
  · omega
  · have := Nat.mod_lt (n - 1) (show 0 < b - 1 by omega)
    omega

/-- **The complement cancels**: a sum plus the complement of its fold folds to the all-ones
digit. -/
theorem endAround_add_complement {b : ℕ} (hb : 2 ≤ b) (n : ℕ) :
    endAround b (n + (b - 1 - endAround b n)) = b - 1 := by
  rw [endAround_eq hb n]
  split_ifs with h0
  · rw [h0, endAround_of_lt (by omega)]
    omega
  · -- the remainder of `n - 1` goes away, and a multiple of `b - 1` is left
    have hsplit := Nat.div_add_mod (n - 1) (b - 1)
    have hlt := Nat.mod_lt (n - 1) (show 0 < b - 1 by omega)
    have hsum : n + (b - 1 - ((n - 1) % (b - 1) + 1)) - 1
        = (b - 2) + (b - 1) * ((n - 1) / (b - 1)) := by omega
    rw [endAround_eq hb, if_neg (by omega), hsum, Nat.add_mul_mod_self_left,
      Nat.mod_eq_of_lt (by omega)]
    omega

/-! ### Adding digit by digit -/

/-- One's-complement addition of two digits: a carry out of the top comes back in at the
bottom. -/
def carryAdd (b x y : ℕ) : ℕ := if x + y < b then x + y else x + y + 1 - b

/-- Adding a digit to a folded number is folding the sum. -/
theorem carryAdd_endAround {b y : ℕ} (hb : 2 ≤ b) (hy : y < b) (n : ℕ) :
    carryAdd b (endAround b n) y = endAround b (n + y) := by
  rcases Nat.eq_zero_or_pos n with rfl | hn
  · rw [endAround_of_lt (by omega), Nat.zero_add, endAround_of_lt hy, carryAdd, Nat.zero_add,
      if_pos hy]
  · -- both sides are congruent to `n - 1 + y` modulo `b - 1`
    have hsplit := Nat.div_add_mod (n - 1) (b - 1)
    have hlt := Nat.mod_lt (n - 1) (show 0 < b - 1 by omega)
    have hsum : n + y - 1 = ((n - 1) % (b - 1) + y) + (b - 1) * ((n - 1) / (b - 1)) := by omega
    rw [endAround_eq hb n, if_neg (by omega), endAround_eq hb (n + y), if_neg (by omega), hsum,
      Nat.add_mul_mod_self_left, carryAdd]
    generalize (n - 1) % (b - 1) = r at hlt
    split_ifs with hcarry
    · rw [Nat.mod_eq_of_lt (by omega)]
      omega
    · rw [Nat.mod_eq_sub_mod (by omega), Nat.mod_eq_of_lt (by omega)]
      omega

/-- **Adding digit by digit is folding the sum.** -/
theorem foldl_carryAdd {b : ℕ} (hb : 2 ≤ b) (xs : List ℕ) (hxs : ∀ x ∈ xs, x < b) (n : ℕ) :
    xs.foldl (carryAdd b) (endAround b n) = endAround b (n + xs.sum) := by
  induction xs generalizing n with
  | nil => rfl
  | cons x xs ih =>
      rw [List.foldl_cons, carryAdd_endAround hb (hxs x List.mem_cons_self),
        ih (fun y hy => hxs y (List.mem_cons_of_mem _ hy)), List.sum_cons, Nat.add_assoc]

end OnesComplement
