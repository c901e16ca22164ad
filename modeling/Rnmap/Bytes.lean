/-
**Byte strings and network byte order.**

Packets are byte strings in which words stand most significant byte first.  This module collects
what the packet builders and parsers need of them: the coding of 16- and 32-bit words, overwriting
a slice in place, and the sum of the 16-bit words of a byte string on which the Internet checksum
rests.

Main definitions:

* `Bytes.toBeBytes16`, `Bytes.toBeBytes32`, `Bytes.fromBeBytes16`, `Bytes.fromBeBytes32` — words
  in network byte order;
* `Bytes.copyAt` — overwrite the bytes from an offset on;
* `Bytes.words` — the big-endian 16-bit words, an odd last byte padded by zero;
* `Bytes.sumWords` — their sum.

Main results:

* `Bytes.fromBeBytes16_toBeBytes16`, `Bytes.fromBeBytes32_toBeBytes32` — the codings round trip;
* `Bytes.sumWords_eq_sum` — the sum is the sum of the words;
* `Bytes.sumWords_append` — it splits at an even offset;
* `Bytes.sumWords_le` — the sum is at most `65535` for each word.
-/

import Mathlib.Tactic

set_option relaxedAutoImplicit false
set_option autoImplicit false

/-- A byte string. -/
abbrev Bytes := List UInt8

namespace Bytes

/-! ### Network byte order -/

/-- The two bytes of a word, most significant first. -/
def toBeBytes16 (w : UInt16) : Bytes :=
  [UInt8.ofNat (w.toNat / 256), UInt8.ofNat w.toNat]

/-- The four bytes of a word, most significant first. -/
def toBeBytes32 (w : UInt32) : Bytes :=
  [UInt8.ofNat (w.toNat / 2 ^ 24), UInt8.ofNat (w.toNat / 2 ^ 16), UInt8.ofNat (w.toNat / 2 ^ 8),
    UInt8.ofNat w.toNat]

/-- The word two bytes spell, most significant first. -/
def fromBeBytes16 (a b : UInt8) : UInt16 := UInt16.ofNat (a.toNat * 256 + b.toNat)

/-- The word four bytes spell, most significant first. -/
def fromBeBytes32 (a b c d : UInt8) : UInt32 :=
  UInt32.ofNat (a.toNat * 2 ^ 24 + b.toNat * 2 ^ 16 + c.toNat * 2 ^ 8 + d.toNat)

@[simp] theorem length_toBeBytes16 (w : UInt16) : (toBeBytes16 w).length = 2 := rfl

@[simp] theorem length_toBeBytes32 (w : UInt32) : (toBeBytes32 w).length = 4 := rfl

@[simp] theorem toNat_fromBeBytes16 (a b : UInt8) :
    (fromBeBytes16 a b).toNat = a.toNat * 256 + b.toNat := by
  have ha := a.toNat_lt
  have hb := b.toNat_lt
  rw [fromBeBytes16, UInt16.toNat_ofNat', Nat.mod_eq_of_lt (by omega)]

theorem fromBeBytes16_toBeBytes16 (w : UInt16) :
    fromBeBytes16 (UInt8.ofNat (w.toNat / 256)) (UInt8.ofNat w.toNat) = w := by
  have hw := w.toNat_lt
  apply UInt16.toNat_inj.1
  rw [toNat_fromBeBytes16, UInt8.toNat_ofNat', UInt8.toNat_ofNat']
  omega

theorem fromBeBytes32_toBeBytes32 (w : UInt32) :
    fromBeBytes32 (UInt8.ofNat (w.toNat / 2 ^ 24)) (UInt8.ofNat (w.toNat / 2 ^ 16))
      (UInt8.ofNat (w.toNat / 2 ^ 8)) (UInt8.ofNat w.toNat) = w := by
  have hw := w.toNat_lt
  apply UInt32.toNat_inj.1
  simp only [fromBeBytes32, UInt32.toNat_ofNat', UInt8.toNat_ofNat']
  omega

/-! ### Overwriting a slice -/

/-- Overwrite the bytes of `buf` from offset `i` on with `src`. -/
def copyAt (buf : Bytes) (i : ℕ) (src : Bytes) : Bytes :=
  buf.take i ++ src ++ buf.drop (i + src.length)

/-! ### The sum of the 16-bit words -/

/-- The big-endian 16-bit words of a byte string; an odd last byte is padded by zero. -/
def words : Bytes → List UInt16
  | a :: b :: rest => fromBeBytes16 a b :: words rest
  | [a] => [fromBeBytes16 a 0]
  | [] => []

/-- The sum of the big-endian 16-bit words of a byte string; an odd last byte is padded by
zero. -/
def sumWords : Bytes → ℕ
  | a :: b :: rest => (a.toNat * 256 + b.toNat) + sumWords rest
  | [a] => a.toNat * 256
  | [] => 0

@[simp] theorem sumWords_nil : sumWords [] = 0 := rfl

theorem sumWords_cons_cons (a b : UInt8) (rest : Bytes) :
    sumWords (a :: b :: rest) = (a.toNat * 256 + b.toNat) + sumWords rest := rfl

theorem sumWords_eq_sum : ∀ xs : Bytes, sumWords xs = ((words xs).map UInt16.toNat).sum
  | [] => rfl
  | [a] => by simp [sumWords, words]
  | a :: b :: xs => by
      rw [sumWords_cons_cons, words, List.map_cons, List.sum_cons, toNat_fromBeBytes16,
        sumWords_eq_sum xs]

@[simp] theorem sumWords_toBeBytes16 (w : UInt16) : sumWords (toBeBytes16 w) = w.toNat := by
  have hw := w.toNat_lt
  simp only [toBeBytes16, sumWords_cons_cons, sumWords_nil, UInt8.toNat_ofNat']
  omega

/-- The sum splits at an even offset. -/
theorem sumWords_append : ∀ (xs ys : Bytes), 2 ∣ xs.length →
    sumWords (xs ++ ys) = sumWords xs + sumWords ys
  | [], ys, _ => by simp
  | [_], _, h => by simp at h
  | a :: b :: xs, ys, h => by
      have hxs : 2 ∣ xs.length := by
        rw [List.length_cons, List.length_cons] at h
        omega
      rw [List.cons_append, List.cons_append, sumWords_cons_cons, sumWords_cons_cons,
        sumWords_append xs ys hxs]
      omega

/-- Each word adds at most `65535` to the sum. -/
theorem sumWords_le : ∀ xs : Bytes, sumWords xs ≤ 65535 * ((xs.length + 1) / 2)
  | [] => by simp
  | [a] => by
      have := a.toNat_lt
      simp only [sumWords, List.length_singleton]
      omega
  | a :: b :: xs => by
      have ha := a.toNat_lt
      have hb := b.toNat_lt
      have ih := sumWords_le xs
      have hlen : ((a :: b :: xs).length + 1) / 2 = (xs.length + 1) / 2 + 1 := by
        rw [List.length_cons, List.length_cons]
        omega
      rw [sumWords_cons_cons, hlen]
      omega

end Bytes
