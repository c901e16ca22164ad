/-
**The Internet checksum of the packet builders.**

`checksum16` adds the 16-bit words of a byte string in a wrapping 32-bit accumulator, folds the
carries until sixteen bits are left, and complements.  This module embeds the two loops and reads
them against `Rnmap/OnesComplement.lean`: on every byte string short enough for the accumulator
the result is the complement of the end-around-carry sum.

Main definitions:

* `Rnmap.sumLoop`, `Rnmap.foldLoop` — the two loops;
* `Rnmap.checksum16` — the checksum;
* `Rnmap.AddsExactly`, `Rnmap.foldStep` — no addition of the word loop wraps; one pass of the
  carry loop;
* `Rnmap.onesAdd`, `Rnmap.onesSum` — the end-around-carry addition of words, and their sum.

Main results:

* `Rnmap.toNat_checksum16` — **the checksum is the complemented one's-complement sum**;
* `Rnmap.checksum16_inserted` — storing the checksum in a zeroed word at an even offset makes the
  checksum of the whole zero;
* `Rnmap.checksum16_internet` — **the checksum is the Internet checksum**.
-/

import Rnmap.OnesComplement
import Rnmap.Bytes

set_option relaxedAutoImplicit false
set_option autoImplicit false

namespace Rnmap

open Bytes OnesComplement

/-- The word loop of `checksum16`: two bytes at a time into a wrapping accumulator, an odd last
byte as the high half of a word. -/
def sumLoop : Bytes → UInt32 → UInt32
  | a :: b :: rest, sum => sumLoop rest (sum + (fromBeBytes16 a b).toUInt32)
  | [a], sum => sum + (a.toUInt32 <<< 8)
  | [], sum => sum

theorem toNat_fold (sum : UInt32) :
    ((sum &&& (0xffff : UInt32)) + (sum >>> 16)).toNat = sum.toNat % 65536 + sum.toNat / 65536 := by
  have hlt := sum.toNat_lt
  have hand : sum.toNat &&& 65535 = sum.toNat % 65536 := Nat.and_two_pow_sub_one_eq_mod _ 16
  have hshift : sum.toNat >>> 16 = sum.toNat / 65536 := Nat.shiftRight_eq_div_pow _ 16
  simp only [UInt32.toNat_add, UInt32.toNat_and, UInt32.toNat_shiftRight, UInt32.reduceToNat,
    Nat.reduceMod, hand, hshift]
  omega

theorem shiftRight_ne_zero_iff (sum : UInt32) : sum >>> 16 ≠ 0 ↔ 65536 ≤ sum.toNat := by
  have hshift : sum.toNat >>> 16 = sum.toNat / 65536 := Nat.shiftRight_eq_div_pow _ 16
  rw [Ne, ← UInt32.toNat_inj]
  simp only [UInt32.toNat_shiftRight, UInt32.reduceToNat, Nat.reduceMod, hshift]
  omega

/-- The carry loop of `checksum16`. -/
def foldLoop (sum : UInt32) : UInt32 :=
  if _h : sum >>> 16 ≠ 0 then foldLoop ((sum &&& (0xffff : UInt32)) + (sum >>> 16)) else sum
termination_by sum.toNat
decreasing_by
  rw [toNat_fold]
  exact fold_lt (by omega) ((shiftRight_ne_zero_iff sum).1 _h)

/-- `checksum16`. -/
def checksum16 (data : Bytes) : UInt16 := ~~~(foldLoop (sumLoop data 0)).toUInt16

/-- The word loop computes the sum of the words modulo `2 ^ 32`. -/
theorem toNat_sumLoop : ∀ (data : Bytes) (sum : UInt32),
    (sumLoop data sum).toNat = (sum.toNat + sumWords data) % 2 ^ 32
  | [], sum => by
      have := sum.toNat_lt
      rw [sumLoop, sumWords_nil]
      omega
  | [a], sum => by
      have ha := a.toNat_lt
      have hshift : a.toNat <<< 8 = a.toNat * 256 := Nat.shiftLeft_eq _ 8
      simp only [sumLoop, sumWords, UInt32.toNat_add, UInt32.toNat_shiftLeft, UInt8.toNat_toUInt32,
        UInt32.reduceToNat, Nat.reduceMod, hshift]
      omega
  | a :: b :: rest, sum => by
      rw [sumLoop, toNat_sumLoop rest, sumWords_cons_cons, UInt32.toNat_add,
        UInt16.toNat_toUInt32, toNat_fromBeBytes16]
      omega

/-- The carry loop is the end-around-carry fold. -/
theorem toNat_foldLoop (sum : UInt32) : (foldLoop sum).toNat = endAround 65536 sum.toNat := by
  induction sum using foldLoop.induct with
  | case1 sum h ih =>
      rw [foldLoop, dif_pos h, ih, toNat_fold]
      exact (endAround_of_le (by omega) ((shiftRight_ne_zero_iff sum).1 h)).symm
  | case2 sum h =>
      rw [foldLoop, dif_neg h, endAround_of_lt]
      by_contra hle
      exact h ((shiftRight_ne_zero_iff sum).2 (by omega))

/-- On a byte string short enough for the accumulator the word loop computes the sum itself. -/
theorem toNat_sumLoop_zero {data : Bytes} (h : data.length ≤ 131074) :
    (sumLoop data 0).toNat = sumWords data := by
  have hsum := sumWords_le data
  rw [toNat_sumLoop, UInt32.toNat_zero, Nat.zero_add, Nat.mod_eq_of_lt (by omega)]

/-- **The checksum is the complemented one's-complement sum**, on every byte string whose words
the 32-bit accumulator can add without wrapping. -/
theorem toNat_checksum16 {data : Bytes} (h : data.length ≤ 131074) :
    (checksum16 data).toNat = 65535 - endAround 65536 (sumWords data) := by
  have hfold := endAround_lt (b := 65536) (by omega) (sumWords data)
  have hloop : (foldLoop (sumLoop data 0)).toNat = endAround 65536 (sumWords data) := by
    rw [toNat_foldLoop, toNat_sumLoop_zero h]
  rw [checksum16, UInt16.toNat_not, UInt32.toNat_toUInt16, hloop]
  simp only [UInt16.size]
  omega

/-- **Storing the checksum makes the checksum zero**: the word it replaces was zero and stands at
an even offset. -/
theorem checksum16_inserted (pre post : Bytes) (hpre : 2 ∣ pre.length)
    (hlen : pre.length + 2 + post.length ≤ 131074) :
    checksum16 (pre ++ toBeBytes16 (checksum16 (pre ++ [0, 0] ++ post)) ++ post) = 0 := by
  -- the sum of the words with the field zeroed, and with `w` stored in it
  have hsum : ∀ w : Bytes, w.length = 2 →
      sumWords (pre ++ w ++ post) = sumWords pre + sumWords post + sumWords w := by
    intro w hw
    rw [List.append_assoc, sumWords_append _ _ hpre, sumWords_append _ _ (by omega)]
    omega
  have hzero : sumWords (pre ++ [0, 0] ++ post) = sumWords pre + sumWords post := by
    rw [hsum _ rfl]
    rfl
  apply UInt16.toNat_inj.1
  rw [toNat_checksum16 (by simp only [List.length_append, length_toBeBytes16]; omega),
    hsum _ rfl, sumWords_toBeBytes16,
    toNat_checksum16 (by simp only [List.length_append, List.length_cons, List.length_nil]; omega),
    hzero, endAround_add_complement (b := 65536) (by omega)]
  rfl

/-! ### The Internet checksum -/

/-- No addition of the word loop, started at `sum`, wraps. -/
def AddsExactly : Bytes → UInt32 → Prop
  | a :: b :: rest, sum =>
      sum.toNat + (fromBeBytes16 a b).toUInt32.toNat < 2 ^ 32 ∧
        AddsExactly rest (sum + (fromBeBytes16 a b).toUInt32)
  | [a], sum => sum.toNat + (a.toUInt32 <<< 8).toNat < 2 ^ 32
  | [], _ => True

/-- The partial sums grow, so that none wraps if the whole sum fits. -/
theorem addsExactly_of_lt : ∀ (data : Bytes) (sum : UInt32),
    sum.toNat + sumWords data < 2 ^ 32 → AddsExactly data sum
  | [], _, _ => trivial
  | [a], sum, h => by
      have ha := a.toNat_lt
      have hshift : a.toNat <<< 8 = a.toNat * 256 := Nat.shiftLeft_eq _ 8
      rw [sumWords] at h
      simp only [AddsExactly, UInt32.toNat_shiftLeft, UInt8.toNat_toUInt32, UInt32.reduceToNat,
        Nat.reduceMod, hshift]
      omega
  | a :: b :: rest, sum, h => by
      have hword : (fromBeBytes16 a b).toUInt32.toNat = a.toNat * 256 + b.toNat := by
        rw [UInt16.toNat_toUInt32, toNat_fromBeBytes16]
      rw [sumWords_cons_cons] at h
      have hfits : sum.toNat + (fromBeBytes16 a b).toUInt32.toNat < 2 ^ 32 := by omega
      refine ⟨hfits, addsExactly_of_lt rest _ ?_⟩
      rw [UInt32.toNat_add, Nat.mod_eq_of_lt hfits]
      omega

/-- One pass of the carry loop. -/
def foldStep (sum : UInt32) : UInt32 := (sum &&& (0xffff : UInt32)) + (sum >>> 16)

/-- The carry loop ends: some number of passes clears the high half, and what is left then is the
result. -/
theorem foldLoop_ends (sum : UInt32) :
    ∃ n, (∀ k < n, foldStep^[k] sum >>> 16 ≠ 0) ∧ foldStep^[n] sum >>> 16 = 0 ∧
      foldLoop sum = foldStep^[n] sum := by
  induction sum using foldLoop.induct with
  | case1 sum h ih =>
      obtain ⟨n, hbefore, hend, heq⟩ := ih
      refine ⟨n + 1, ?_, hend, ?_⟩
      · intro k hk
        cases k with
        | zero => exact h
        | succ k => exact hbefore k (by omega)
      · rw [foldLoop, dif_pos h]
        exact heq
  | case2 sum h =>
      refine ⟨0, fun k hk => absurd hk (Nat.not_lt_zero k), not_not.1 h, ?_⟩
      rw [foldLoop, dif_neg h]
      rfl

/-- One's-complement addition of words: a carry comes back in at the bottom. -/
def onesAdd (x y : UInt16) : UInt16 := if x.toNat + y.toNat < 65536 then x + y else x + y + 1

/-- The one's-complement sum of words. -/
def onesSum (ws : List UInt16) : UInt16 := ws.foldl onesAdd 0

theorem toNat_onesAdd (x y : UInt16) :
    (onesAdd x y).toNat = carryAdd 65536 x.toNat y.toNat := by
  have hx := x.toNat_lt
  have hy := y.toNat_lt
  rw [onesAdd, carryAdd]
  split_ifs with h
  · rw [UInt16.toNat_add]
    omega
  · rw [UInt16.toNat_add, UInt16.toNat_add, UInt16.toNat_one]
    omega

theorem toNat_foldl_onesAdd (ws : List UInt16) (sum : UInt16) :
    (ws.foldl onesAdd sum).toNat = (ws.map UInt16.toNat).foldl (carryAdd 65536) sum.toNat := by
  induction ws generalizing sum with
  | nil => rfl
  | cons w ws ih => rw [List.foldl_cons, ih, toNat_onesAdd, List.map_cons, List.foldl_cons]

/-- The one's-complement sum of the words folds their sum. -/
theorem toNat_onesSum (data : Bytes) :
    (onesSum (words data)).toNat = endAround 65536 (sumWords data) := by
  have hwords : ∀ n ∈ (words data).map UInt16.toNat, n < 65536 := by
    intro n hn
    obtain ⟨w, -, rfl⟩ := List.mem_map.1 hn
    exact w.toNat_lt
  have hzero : (0 : UInt16).toNat = endAround 65536 0 := by
    rw [UInt16.toNat_zero, endAround_of_lt (by omega)]
  rw [onesSum, toNat_foldl_onesAdd, hzero, foldl_carryAdd (by omega) _ hwords, Nat.zero_add,
    sumWords_eq_sum]

/-- **The checksum is the Internet checksum**, on every byte string of at most 131074 bytes: no
addition wraps, the carry loop ends, the result is the complement of the one's-complement sum of
the words, and storing it in a zeroed word at an even offset makes the checksum zero. -/
theorem checksum16_internet (data : Bytes) (h : data.length ≤ 131074) :
    (AddsExactly data 0 ∧ (sumLoop data 0).toNat = sumWords data) ∧
      (∃ n, (∀ k < n, foldStep^[k] (sumLoop data 0) >>> 16 ≠ 0) ∧
        foldStep^[n] (sumLoop data 0) >>> 16 = 0 ∧
        foldLoop (sumLoop data 0) = foldStep^[n] (sumLoop data 0)) ∧
      checksum16 data = ~~~onesSum (words data) ∧
      ∀ pre post, data = pre ++ [0, 0] ++ post → 2 ∣ pre.length →
        checksum16 (pre ++ toBeBytes16 (checksum16 data) ++ post) = 0 := by
  refine ⟨⟨?_, toNat_sumLoop_zero h⟩, foldLoop_ends _, ?_, ?_⟩
  · have hsum := sumWords_le data
    apply addsExactly_of_lt
    rw [UInt32.toNat_zero]
    omega
  · apply UInt16.toNat_inj.1
    rw [toNat_checksum16 h, UInt16.toNat_not, toNat_onesSum, UInt16.size]
  · rintro pre post rfl heven
    rw [List.length_append, List.length_append] at h
    exact checksum16_inserted pre post heven h

/-- The header of a datagram from `172.16.10.99` to `172.16.10.12`, its checksum zeroed. -/
theorem checksum16_internet_header :
    let header : Bytes := [0x45, 0, 0, 60, 0x1c, 0x46, 0x40, 0, 64, 6, 0, 0, 172, 16, 10, 99,
      172, 16, 10, 12]
    header.length ≤ 131074 ∧ checksum16 header = ~~~onesSum (words header) ∧
      checksum16 (header.take 10 ++ toBeBytes16 (checksum16 header) ++ header.drop 12) = 0 := by
  intro header
  have hlen : header.length ≤ 131074 := by decide
  obtain ⟨-, -, hsum, hinsert⟩ := checksum16_internet header hlen
  exact ⟨hlen, hsum, hinsert (header.take 10) (header.drop 12) rfl (by decide)⟩

end Rnmap
