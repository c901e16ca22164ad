/-
**Byte offsets into UTF-8 text.**

Texts are lists of characters, but the standard library slices strings by byte offsets, and panics
when an offset is past the end or inside a character.  Here a slice is partial, and a slice that is
returned is described by the characters before it and after it.

Main definitions:

* `Utf8.cut` — a text, cut in two at a byte offset;
* `Utf8.sliceEnd`, `Utf8.slice` — the slices `s[i..]` and `s[i..j]`.

Main results:

* `Utf8.cut_eq_some_iff` — **an offset is a boundary** exactly when it is the length of some first
  characters;
* `Utf8.sliceEnd_eq_some_iff`, `Utf8.slice_eq_some_iff` — the slices.
-/

import Mathlib.Tactic
import Mathlib.Data.String.Basic

set_option relaxedAutoImplicit false
set_option autoImplicit false

namespace Utf8

open String

/-- A text, cut at a byte offset; `none` when the offset is not a character boundary. -/
def cut : List Char → ℕ → Option (List Char × List Char)
  | s, 0 => some ([], s)
  | [], _ + 1 => none
  | c :: s, n + 1 =>
      if c.utf8Size ≤ n + 1 then (cut s (n + 1 - c.utf8Size)).map fun p => (c :: p.1, p.2) else none

/-- `s[i..]`; `none` when it panics. -/
def sliceEnd (s : List Char) (i : ℕ) : Option (List Char) := (cut s i).map Prod.snd

/-- `s[i..j]`; `none` when it panics. -/
def slice (s : List Char) (i j : ℕ) : Option (List Char) :=
  (cut s j).bind fun p => sliceEnd p.1 i

@[simp] theorem cut_zero (s : List Char) : cut s 0 = some ([], s) := by
  cases s <;> rfl

theorem cut_zero_eq_some_iff {s p q : List Char} :
    cut s 0 = some (p, q) ↔ s = p ++ q ∧ utf8Len p = 0 := by
  rw [cut_zero, utf8Len_eq_zero]
  constructor
  · intro h
    obtain ⟨rfl, rfl⟩ := Prod.mk.inj (Option.some.inj h)
    exact ⟨rfl, rfl⟩
  · rintro ⟨rfl, rfl⟩
    rfl

/-- Past a character that fits, the rest is cut. -/
theorem cut_cons {c : Char} {n : ℕ} (h : c.utf8Size ≤ n) (s : List Char) :
    cut (c :: s) n = (cut s (n - c.utf8Size)).map fun p => (c :: p.1, p.2) := by
  cases n with
  | zero => exact absurd c.utf8Size_pos (by omega)
  | succ n => rw [cut, if_pos h]

/-- No cut is inside a character. -/
theorem cut_cons_none {c : Char} {n : ℕ} (hpos : 0 < n) (h : n < c.utf8Size) (s : List Char) :
    cut (c :: s) n = none := by
  cases n with
  | zero => exact absurd hpos (by omega)
  | succ n => rw [cut, if_neg (by omega)]

/-- **An offset is a boundary** exactly when it is the length of some first characters. -/
theorem cut_eq_some_iff {s p q : List Char} {n : ℕ} :
    cut s n = some (p, q) ↔ s = p ++ q ∧ utf8Len p = n := by
  induction s generalizing n p with
  | nil =>
      cases n with
      | zero => exact cut_zero_eq_some_iff
      | succ n =>
          refine iff_of_false (fun h => nomatch h) ?_
          rintro ⟨hnil, hlen⟩
          obtain ⟨rfl, rfl⟩ := List.append_eq_nil_iff.1 hnil.symm
          cases hlen
  | cons c s ih =>
      rcases Nat.eq_zero_or_pos n with rfl | hpos
      · exact cut_zero_eq_some_iff
      rcases Nat.lt_or_ge n c.utf8Size with hlt | hle
      · -- the offset is inside the first character
        rw [cut_cons_none hpos hlt]
        refine iff_of_false (fun h => nomatch h) ?_
        rintro ⟨happ, hlen⟩
        cases p with
        | nil => exact absurd hlen.symm (by simpa using hpos.ne')
        | cons d p =>
            obtain ⟨rfl, -⟩ := List.cons.inj happ
            rw [utf8Len_cons] at hlen
            omega
      · rw [cut_cons hle]
        constructor
        · intro h
          obtain ⟨⟨p', q'⟩, hcut, hpq⟩ := Option.map_eq_some_iff.1 h
          obtain ⟨rfl, rfl⟩ := Prod.mk.inj hpq
          obtain ⟨rfl, hlen⟩ := ih.1 hcut
          exact ⟨rfl, by rw [utf8Len_cons, hlen]; omega⟩
        · rintro ⟨happ, hlen⟩
          cases p with
          | nil => exact absurd hlen.symm (by simpa using hpos.ne')
          | cons d p =>
              obtain ⟨rfl, rfl⟩ := List.cons.inj happ
              rw [utf8Len_cons] at hlen
              rw [ih.2 ⟨rfl, by omega⟩]
              rfl

theorem sliceEnd_eq_some_iff {s t : List Char} {i : ℕ} :
    sliceEnd s i = some t ↔ ∃ p, s = p ++ t ∧ utf8Len p = i := by
  unfold sliceEnd
  constructor
  · intro h
    obtain ⟨⟨p, q⟩, hcut, rfl⟩ := Option.map_eq_some_iff.1 h
    exact ⟨p, cut_eq_some_iff.1 hcut⟩
  · rintro ⟨p, hp⟩
    rw [cut_eq_some_iff.2 hp]
    rfl

theorem slice_eq_some_iff {s t : List Char} {i j : ℕ} :
    slice s i j = some t ↔ ∃ p q, s = p ++ t ++ q ∧ utf8Len p = i ∧ utf8Len (p ++ t) = j := by
  unfold slice
  constructor
  · intro h
    obtain ⟨⟨front, q⟩, hcut, hslice⟩ := Option.bind_eq_some_iff.1 h
    obtain ⟨rfl, hj⟩ := cut_eq_some_iff.1 hcut
    obtain ⟨p, hfront, hi⟩ := sliceEnd_eq_some_iff.1 hslice
    obtain rfl : front = p ++ t := hfront
    exact ⟨p, q, rfl, hi, hj⟩
  · rintro ⟨p, q, rfl, hi, hj⟩
    rw [cut_eq_some_iff.2 ⟨rfl, hj⟩]
    exact sliceEnd_eq_some_iff.2 ⟨p, rfl, hi⟩

/-- A slice panics when its end is not a boundary. -/
theorem slice_eq_none_of_cut {s : List Char} {i j : ℕ} (h : cut s j = none) :
    slice s i j = none := by
  rw [slice, h]
  rfl

end Utf8
