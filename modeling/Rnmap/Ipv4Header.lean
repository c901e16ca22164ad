/-
**Reading an IPv4 header.**

Two hand-written parsers look at received datagrams: the SYN scanner's and the ICMP pinger's.
Both index the buffer at fixed offsets and slice it behind the declared header length.  Indexing
and slicing are checked here: a function returns `none` where the source would panic.

Main definitions:

* `Rnmap.sliceFrom`, `Rnmap.readAddr` — the checked slice and the checked read of an address;
* `Rnmap.headerLen`, `Rnmap.addrAt` — the declared header length and the address at an offset, of
  a buffer that is long enough.
-/

import Rnmap.Bytes
import Rnmap.Addr

set_option relaxedAutoImplicit false
set_option autoImplicit false

namespace Rnmap

/-! ### Checked reads -/

/-- The slice `&buf[i..]`, which panics when `i` lies beyond the end. -/
def sliceFrom (buf : Bytes) (i : ℕ) : Option Bytes :=
  if i ≤ buf.length then some (buf.drop i) else none

/-- The address whose octets stand at offset `i`. -/
def readAddr (buf : Bytes) (i : ℕ) : Option Ipv4Addr := do
  return ⟨← buf[i]?, ← buf[i + 1]?, ← buf[i + 2]?, ← buf[i + 3]?⟩

/-! ### The fields of a buffer that is long enough -/

/-- The declared length of the IPv4 header at the front of a buffer. -/
def headerLen (buf : Bytes) : ℕ := (buf.getD 0 0 &&& 0x0f).toNat * 4

/-- The IPv4 address at an offset. -/
def addrAt (buf : Bytes) (i : ℕ) : Ipv4Addr :=
  ⟨buf.getD i 0, buf.getD (i + 1) 0, buf.getD (i + 2) 0, buf.getD (i + 3) 0⟩

theorem getElem?_eq_some_getD {buf : Bytes} {i : ℕ} (h : i < buf.length) :
    buf[i]? = some (buf.getD i 0) := by
  simp [List.getD, List.getElem?_eq_getElem h]

theorem sliceFrom_eq {buf : Bytes} {i : ℕ} (h : i ≤ buf.length) :
    sliceFrom buf i = some (buf.drop i) := if_pos h

theorem readAddr_eq {buf : Bytes} {i : ℕ} (h : i + 4 ≤ buf.length) :
    readAddr buf i = some (addrAt buf i) := by
  have hget : ∀ k, k < 4 → buf[i + k]? = some (buf.getD (i + k) 0) :=
    fun k hk => getElem?_eq_some_getD (by omega)
  have h0 : buf[i]? = some (buf.getD i 0) := hget 0 (by omega)
  simp only [readAddr, addrAt, h0, hget 1 (by omega), hget 2 (by omega), hget 3 (by omega),
    Option.bind_eq_bind, Option.bind_some, Option.pure_def]

/-! ### Buffers in two parts -/

theorem getD_append_left {xs ys : Bytes} {i : ℕ} (h : i < xs.length) :
    (xs ++ ys).getD i 0 = xs.getD i 0 := by
  simp [List.getD, List.getElem?_append_left h]

theorem addrAt_append_left {xs ys : Bytes} {i : ℕ} (h : i + 4 ≤ xs.length) :
    addrAt (xs ++ ys) i = addrAt xs i := by
  rw [addrAt, addrAt, getD_append_left (by omega), getD_append_left (by omega),
    getD_append_left (by omega), getD_append_left (by omega)]

/-! ### Buffers cut short -/

theorem getD_take {buf : Bytes} {n i : ℕ} (h : i < n) : (buf.take n).getD i 0 = buf.getD i 0 := by
  simp [List.getD, h]

theorem headerLen_take (buf : Bytes) {n : ℕ} (h : 0 < n) :
    headerLen (buf.take n) = headerLen buf := by
  rw [headerLen, headerLen, getD_take h]

theorem addrAt_take (buf : Bytes) {n i : ℕ} (h : i + 4 ≤ n) :
    addrAt (buf.take n) i = addrAt buf i := by
  rw [addrAt, addrAt, getD_take (by omega), getD_take (by omega), getD_take (by omega),
    getD_take (by omega)]

/-- A header length is at most sixty bytes, whatever the buffer. -/
theorem headerLen_le (buf : Bytes) : headerLen buf ≤ 60 := by
  have hand : (buf.getD 0 0 &&& 0x0f).toNat ≤ 15 := by
    rw [UInt8.toNat_and]
    exact Nat.and_le_right
  rw [headerLen]
  omega

end Rnmap
