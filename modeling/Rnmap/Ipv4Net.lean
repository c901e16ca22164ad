/-
**Blocks of IPv4 addresses.**

Addresses are ordered by their value as a 32-bit number.  Under that order the addresses a range of
the last octet denotes, and the usable hosts of a network, are intervals, and an interval within one
`/24` network is the range of its last octets.

Main definitions:

* `Rnmap.Ipv4Addr.toNat`, `Rnmap.Ipv4Addr.ofNat` — addresses as numbers;
* `Rnmap.octetRange` — the addresses of a range of the last octet;
* `Rnmap.Ipv4Net` — a network, with `Rnmap.Ipv4Net.IsUsable` for its usable hosts.

Main results:

* `Rnmap.mem_octetRange` — **a range of the last octet is an interval of addresses**;
* `Rnmap.Ipv4Net.isUsable_iff` — **the usable hosts are those from the first to the last**;
* `Rnmap.Ipv4Net.mem_octetRange_iff` — the usable hosts of a network of at most 256 addresses are a
  range of the last octet.
-/

import Rnmap.Addr
import Rnmap.SortedSet

set_option relaxedAutoImplicit false
set_option autoImplicit false

namespace Rnmap

open Text

/-! ### Addresses as numbers -/

namespace Ipv4Addr

/-- The value of an address, by which std orders addresses. -/
def toNat (ip : Ipv4Addr) : ℕ :=
  ip.a.toNat * 2 ^ 24 + ip.b.toNat * 2 ^ 16 + ip.c.toNat * 2 ^ 8 + ip.d.toNat

/-- The address of a value. -/
def ofNat (n : ℕ) : Ipv4Addr :=
  ⟨UInt8.ofNat (n / 2 ^ 24), UInt8.ofNat (n / 2 ^ 16), UInt8.ofNat (n / 2 ^ 8), UInt8.ofNat n⟩

theorem toNat_lt (ip : Ipv4Addr) : ip.toNat < 2 ^ 32 := by
  have ha := ip.a.toNat_lt
  have hb := ip.b.toNat_lt
  have hc := ip.c.toNat_lt
  have hd := ip.d.toNat_lt
  unfold toNat
  omega

theorem toNat_ofNat {n : ℕ} (h : n < 2 ^ 32) : (ofNat n).toNat = n := by
  simp only [ofNat, toNat, UInt8.toNat_ofNat']
  omega

theorem toNat_injective : Function.Injective toNat := by
  intro ip ip' h
  have hb := ip.b.toNat_lt
  have hc := ip.c.toNat_lt
  have hd := ip.d.toNat_lt
  have hb' := ip'.b.toNat_lt
  have hc' := ip'.c.toNat_lt
  have hd' := ip'.d.toNat_lt
  unfold toNat at h
  have hoctets : ip.a.toNat = ip'.a.toNat ∧ ip.b.toNat = ip'.b.toNat ∧
      ip.c.toNat = ip'.c.toNat ∧ ip.d.toNat = ip'.d.toNat := by omega
  obtain ⟨a, b, c, d⟩ := ip
  obtain ⟨a', b', c', d'⟩ := ip'
  simpa only [UInt8.toNat_inj, mk.injEq] using hoctets

instance : PartialOrder Ipv4Addr := PartialOrder.lift toNat toNat_injective

theorem le_iff {ip ip' : Ipv4Addr} : ip ≤ ip' ↔ ip.toNat ≤ ip'.toNat := Iff.rfl

theorem lt_iff {ip ip' : Ipv4Addr} : ip < ip' ↔ ip.toNat < ip'.toNat := Iff.rfl

/-- The address with another last octet. -/
def withLast (ip : Ipv4Addr) (last : UInt8) : Ipv4Addr := { ip with d := last }

theorem toNat_withLast (ip : Ipv4Addr) (last : UInt8) :
    (ip.withLast last).toNat = ip.toNat - ip.d.toNat + last.toNat := by
  unfold withLast toNat
  dsimp only
  omega

theorem d_le_toNat (ip : Ipv4Addr) : ip.d.toNat ≤ ip.toNat := by
  unfold toNat
  omega

/-- The last octet is the remainder by 256. -/
theorem toNat_mod (ip : Ipv4Addr) : ip.toNat % 256 = ip.d.toNat := by
  have hd := ip.d.toNat_lt
  unfold toNat
  omega

/-- Addresses of one `/24` network differ in the last octet only. -/
theorem withLast_of_div {ip ip' : Ipv4Addr} (h : ip.toNat / 256 = ip'.toNat / 256) :
    ip.withLast ip'.d = ip' := by
  refine toNat_injective ?_
  have hmod := ip.toNat_mod
  have hmod' := ip'.toNat_mod
  rw [toNat_withLast]
  omega

end Ipv4Addr

/-! ### Ranges of the last octet -/

/-- The addresses `a.b.c.x` to `a.b.c.y`, in order. -/
def octetRange (lo : Ipv4Addr) (hi : UInt8) : SortedSet Ipv4Addr where
  toList := (List.range' lo.d.toNat (hi.toNat + 1 - lo.d.toNat)).map fun last =>
    lo.withLast (UInt8.ofNat last)
  ascending := by
    have hhi := hi.toNat_lt
    rw [List.pairwise_map]
    refine List.Pairwise.imp_of_mem ?_ List.pairwise_lt_range'
    intro x y hx hy hlt
    rw [List.mem_range'_1] at hx hy
    rw [Ipv4Addr.lt_iff, Ipv4Addr.toNat_withLast, Ipv4Addr.toNat_withLast, UInt8.toNat_ofNat',
      UInt8.toNat_ofNat']
    omega

theorem length_octetRange {lo : Ipv4Addr} {hi : UInt8} (h : lo.d ≤ hi) :
    (octetRange lo hi).toList.length = hi.toNat - lo.d.toNat + 1 := by
  have hle := UInt8.le_iff_toNat_le.1 h
  rw [octetRange, List.length_map, List.length_range']
  omega

/-- **A range of the last octet is an interval of addresses.** -/
theorem mem_octetRange {lo ip : Ipv4Addr} {hi : UInt8} :
    ip ∈ octetRange lo hi ↔ lo ≤ ip ∧ ip ≤ lo.withLast hi := by
  have hhi := hi.toNat_lt
  have hd := lo.d_le_toNat
  have hlo := lo.d.toNat_lt
  have hmod := lo.toNat_mod
  rw [← SortedSet.mem_toList, octetRange, List.mem_map, Ipv4Addr.le_iff, Ipv4Addr.le_iff,
    Ipv4Addr.toNat_withLast]
  constructor
  · rintro ⟨last, hmem, rfl⟩
    rw [List.mem_range'_1] at hmem
    rw [Ipv4Addr.toNat_withLast, UInt8.toNat_ofNat']
    omega
  · rintro ⟨hle, hge⟩
    have hmod' := ip.toNat_mod
    refine ⟨ip.d.toNat, List.mem_range'_1.2 (by omega), ?_⟩
    rw [UInt8.ofNat_toNat]
    exact Ipv4Addr.withLast_of_div (by omega)

/-! ### Networks -/

/-- `Ipv4Net`: an address with the length of the prefix its network shares. -/
structure Ipv4Net where
  addr : Ipv4Addr
  prefixLen : ℕ
  prefixLen_le : prefixLen ≤ 32

namespace Ipv4Net

variable (net : Ipv4Net)

/-- The text of a block. -/
def text : Text := net.addr.display ++ '/' :: decimal net.prefixLen

/-- The number of addresses. -/
def size : ℕ := 2 ^ (32 - net.prefixLen)

/-- The address is in the network. -/
def Contains (ip : Ipv4Addr) : Prop := ip.toNat / net.size = net.addr.toNat / net.size

/-- `network()`: the first address. -/
def network : Ipv4Addr := .ofNat (net.addr.toNat / net.size * net.size)

/-- `broadcast()`: the last address. -/
def broadcast : Ipv4Addr := .ofNat (net.addr.toNat / net.size * net.size + (net.size - 1))

/-- A host of the network: its first and its last address are excluded below `/31`. -/
def IsUsable (ip : Ipv4Addr) : Prop :=
  net.Contains ip ∧ (net.prefixLen < 31 → ip ≠ net.network ∧ ip ≠ net.broadcast)

/-- The first usable host. -/
def firstHost : Ipv4Addr :=
  if net.prefixLen < 31 then .ofNat (net.network.toNat + 1) else net.network

/-- The last usable host. -/
def lastHost : Ipv4Addr :=
  if net.prefixLen < 31 then .ofNat (net.broadcast.toNat - 1) else net.broadcast

theorem size_pos : 0 < net.size := Nat.two_pow_pos _

/-- The network ends within the address space. -/
theorem block_le : net.addr.toNat / net.size * net.size + net.size ≤ 2 ^ 32 := by
  have hsplit : 2 ^ 32 = 2 ^ net.prefixLen * net.size := by
    rw [size, ← Nat.pow_add, Nat.add_sub_cancel' net.prefixLen_le]
  have hindex : net.addr.toNat / net.size < 2 ^ net.prefixLen := by
    rw [Nat.div_lt_iff_lt_mul net.size_pos, ← hsplit]
    exact net.addr.toNat_lt
  calc net.addr.toNat / net.size * net.size + net.size
      = (net.addr.toNat / net.size + 1) * net.size := (Nat.succ_mul _ _).symm
    _ ≤ 2 ^ net.prefixLen * net.size := Nat.mul_le_mul_right _ hindex
    _ = 2 ^ 32 := hsplit.symm

theorem toNat_network : net.network.toNat = net.addr.toNat / net.size * net.size := by
  have hpos := net.size_pos
  have hle := net.block_le
  exact Ipv4Addr.toNat_ofNat (by omega)

theorem toNat_broadcast : net.broadcast.toNat = net.network.toNat + (net.size - 1) := by
  have hpos := net.size_pos
  have hle := net.block_le
  rw [toNat_network]
  exact Ipv4Addr.toNat_ofNat (by omega)

variable {net}

/-- The network is the interval from its first to its last address. -/
theorem contains_iff {ip : Ipv4Addr} :
    net.Contains ip ↔ net.network ≤ ip ∧ ip ≤ net.broadcast := by
  have hpos := net.size_pos
  rw [Contains, Ipv4Addr.le_iff, Ipv4Addr.le_iff, toNat_broadcast, toNat_network,
    Nat.div_eq_iff hpos]
  constructor
  · rintro ⟨hlo, hhi⟩
    omega
  · rintro ⟨hlo, hhi⟩
    omega

/-- Below `/31` there are four addresses at least. -/
theorem four_le_size (h : net.prefixLen < 31) : 4 ≤ net.size :=
  Nat.pow_le_pow_right (n := 2) (by decide) (by omega : 2 ≤ 32 - net.prefixLen)

theorem toNat_firstHost :
    net.firstHost.toNat = net.network.toNat + if net.prefixLen < 31 then 1 else 0 := by
  have hlt := net.broadcast.toNat_lt
  have hbroadcast := net.toNat_broadcast
  unfold firstHost
  split_ifs with hshort
  · have hsize := four_le_size hshort
    exact Ipv4Addr.toNat_ofNat (by omega)
  · exact (Nat.add_zero _).symm

theorem toNat_lastHost :
    net.lastHost.toNat = net.broadcast.toNat - if net.prefixLen < 31 then 1 else 0 := by
  have hlt := net.broadcast.toNat_lt
  unfold lastHost
  split_ifs with hshort
  · exact Ipv4Addr.toNat_ofNat (by omega)
  · exact (Nat.sub_zero _).symm

/-- There is a usable host. -/
theorem firstHost_le_lastHost : net.firstHost ≤ net.lastHost := by
  have hbroadcast := net.toNat_broadcast
  rw [Ipv4Addr.le_iff, toNat_firstHost, toNat_lastHost]
  split_ifs with hshort
  · have hsize := four_le_size hshort
    omega
  · omega

/-- **The usable hosts are those from the first to the last.** -/
theorem isUsable_iff {ip : Ipv4Addr} :
    net.IsUsable ip ↔ net.firstHost ≤ ip ∧ ip ≤ net.lastHost := by
  have hbroadcast := net.toNat_broadcast
  have hne : ∀ ip', ip ≠ ip' ↔ ip.toNat ≠ ip'.toNat :=
    fun ip' => not_congr Ipv4Addr.toNat_injective.eq_iff.symm
  rw [IsUsable, contains_iff, hne, hne, Ipv4Addr.le_iff, Ipv4Addr.le_iff, Ipv4Addr.le_iff,
    Ipv4Addr.le_iff, toNat_firstHost, toNat_lastHost]
  split_ifs with hshort
  · have hsize := four_le_size hshort
    rw [forall_prop_of_true hshort]
    omega
  · rw [forall_prop_of_false hshort, and_true, Nat.add_zero, Nat.sub_zero]

/-- A network of at most 256 addresses is within one `/24` network. -/
theorem div_firstHost (h : 24 ≤ net.prefixLen) :
    net.firstHost.toNat / 256 = net.lastHost.toNat / 256 := by
  have hpos := net.size_pos
  have hle : net.firstHost.toNat ≤ net.lastHost.toNat := firstHost_le_lastHost
  have hfirst : net.network.toNat ≤ net.firstHost.toNat := by
    rw [toNat_firstHost]
    omega
  have hlast : net.lastHost.toNat ≤ net.network.toNat + (net.size - 1) := by
    rw [toNat_lastHost, toNat_broadcast]
    omega
  have hsize : 256 = net.size * 2 ^ (net.prefixLen - 24) := by
    have hle := net.prefixLen_le
    rw [size, ← Nat.pow_add, show 32 - net.prefixLen + (net.prefixLen - 24) = 8 by omega]
  have hwithin : ∀ n, net.network.toNat ≤ n → n ≤ net.network.toNat + (net.size - 1) →
      n / net.size = net.addr.toNat / net.size := by
    intro n hlo hhi
    rw [toNat_network] at hlo hhi
    rw [Nat.div_eq_iff hpos]
    omega
  rw [hsize, ← Nat.div_div_eq_div_mul, ← Nat.div_div_eq_div_mul,
    hwithin _ hfirst (hle.trans hlast), hwithin _ (hfirst.trans hle) hlast]

theorem d_firstHost_le (h : 24 ≤ net.prefixLen) : net.firstHost.d ≤ net.lastHost.d := by
  have hle : net.firstHost.toNat ≤ net.lastHost.toNat := firstHost_le_lastHost
  have hdiv := div_firstHost h
  have hfirst := net.firstHost.toNat_mod
  have hlast := net.lastHost.toNat_mod
  rw [UInt8.le_iff_toNat_le]
  omega

/-- **The usable hosts of a network of at most 256 addresses are a range of the last octet.** -/
theorem mem_octetRange_iff (h : 24 ≤ net.prefixLen) {ip : Ipv4Addr} :
    ip ∈ octetRange net.firstHost net.lastHost.d ↔ net.IsUsable ip := by
  rw [mem_octetRange, Ipv4Addr.withLast_of_div (div_firstHost h), isUsable_iff]

end Ipv4Net

example : (Ipv4Net.mk ⟨10, 0, 0, 9⟩ 29 (by decide)).firstHost = ⟨10, 0, 0, 9⟩ ∧
    (Ipv4Net.mk ⟨10, 0, 0, 9⟩ 29 (by decide)).lastHost = ⟨10, 0, 0, 14⟩ := by decide

end Rnmap
