/-
**Rounding to the nearest integer, ties to even.**

Main definitions:

* `Rounding.nearestEven` — the nearest integer, and the even one of two that are equally near.

Main results:

* `Rounding.nearestEven_lt_iff` — a number is rounded below an even integer exactly when it is
  more than one half below it;
* `Rounding.nearestEven_of_abs_sub_lt` — a number less than one half away from an integer is
  rounded to it.
-/

import Mathlib.Tactic
import Mathlib.Algebra.Order.Floor.Ring

set_option relaxedAutoImplicit false
set_option autoImplicit false

namespace Rounding

variable {K : Type*} [Field K] [LinearOrder K] [FloorRing K]

/-- The nearest integer, and the even one of two that are equally near. -/
def nearestEven (x : K) : ℤ :=
  if Int.fract x < 1 / 2 then ⌊x⌋
  else if 1 / 2 < Int.fract x then ⌊x⌋ + 1
  else if Even ⌊x⌋ then ⌊x⌋
  else ⌊x⌋ + 1

variable [IsStrictOrderedRing K]

/-- A number less than one half away from an integer is rounded to it. -/
theorem nearestEven_of_abs_sub_lt {x : K} {n : ℤ} (h : |x - n| < 1 / 2) : nearestEven x = n := by
  obtain ⟨hlow, hhigh⟩ := abs_lt.1 h
  rcases le_or_gt (n : K) x with hle | hgt
  · -- the number is `n` and less than one half
    have hfloor : ⌊x⌋ = n := Int.floor_eq_iff.2 ⟨hle, by linarith⟩
    have hfract : Int.fract x < 1 / 2 := by
      rw [Int.fract, hfloor]
      exact hhigh
    rw [nearestEven, if_pos hfract, hfloor]
  · -- the number is `n - 1` and more than one half
    have hfloor : ⌊x⌋ = n - 1 := by
      refine Int.floor_eq_iff.2 ⟨?_, ?_⟩
      · push_cast
        linarith
      · push_cast
        linarith
    have hfract : 1 / 2 < Int.fract x := by
      rw [Int.fract, hfloor]
      push_cast
      linarith
    rw [nearestEven, if_neg (not_lt.2 hfract.le), if_pos hfract, hfloor, sub_add_cancel]

/-- **What is rounded below an even integer**: a number more than one half below it, as a number
just one half below goes up to it. -/
theorem nearestEven_lt_iff {n : ℤ} (hn : Even n) (x : K) :
    nearestEven x < n ↔ x < n - 1 / 2 := by
  have hx : x = ⌊x⌋ + Int.fract x := (Int.floor_add_fract x).symm
  have hnonneg := Int.fract_nonneg x
  have hone := Int.fract_lt_one x
  unfold nearestEven
  generalize ⌊x⌋ = m at *
  generalize Int.fract x = f at *
  subst hx
  have hcast : ∀ a b : ℤ, a < b → (a : K) ≤ b - 1 := by
    intro a b hab
    exact_mod_cast Int.le_sub_one_of_lt hab
  -- rounding up, to `m + 1`
  have hup : ¬ f < 1 / 2 → (m + 1 < n ↔ (m : K) + f < n - 1 / 2) := by
    intro hf
    constructor
    · intro h
      have := hcast _ _ h
      push_cast at this
      linarith
    · intro h
      have hlt : ((m + 1 : ℤ) : K) < n := by
        push_cast
        linarith
      exact_mod_cast hlt
  split_ifs with hdown hnear heven
  · constructor
    · intro h
      have := hcast _ _ h
      linarith
    · intro h
      have hlt : (m : K) < n := by linarith
      exact_mod_cast hlt
  · exact hup hdown
  · -- a tie: `m` is even, so that it is at least two below `n` if it is below it
    have heq : m < n ↔ m + 1 < n := by
      obtain ⟨a, rfl⟩ := hn
      obtain ⟨b, rfl⟩ := heven
      omega
    exact heq.trans (hup hdown)
  · exact hup hdown

end Rounding
