/-
**Addresses and how they are printed.**

The scanner keeps addresses as std's `Ipv4Addr`, `Ipv6Addr` and `IpAddr`, and every report prints
them with std's `Display`.  An IPv6 address is printed in its canonical form: the longest run of
at least two zero segments is shortened to `::`, and an IPv4-mapped address keeps its dotted tail.

Main definitions:

* `Rnmap.Ipv4Addr`, `Rnmap.Ipv6Addr`, `Rnmap.IpAddr` — the addresses;
* `Rnmap.Ipv4Addr.display`, `Rnmap.Ipv6Addr.display`, `Rnmap.IpAddr.display` — their texts.

Main results:

* `Rnmap.IpAddr.isPrintable_of_mem_display` — addresses are printed in printable characters.
-/

import Rnmap.Text

set_option relaxedAutoImplicit false
set_option autoImplicit false

namespace Rnmap

open Text

/-- `Ipv4Addr`: four octets. -/
structure Ipv4Addr where
  a : UInt8
  b : UInt8
  c : UInt8
  d : UInt8
  deriving DecidableEq, Repr

/-- `Ipv4Addr::octets`. -/
def Ipv4Addr.octets (ip : Ipv4Addr) : List UInt8 := [ip.a, ip.b, ip.c, ip.d]

@[simp] theorem Ipv4Addr.length_octets (ip : Ipv4Addr) : ip.octets.length = 4 := rfl

/-- `Ipv4Addr::LOCALHOST`. -/
def Ipv4Addr.localhost : Ipv4Addr := ⟨127, 0, 0, 1⟩

/-- The dotted form. -/
def Ipv4Addr.display (ip : Ipv4Addr) : Text :=
  decimal ip.a.toNat ++ '.' :: decimal ip.b.toNat ++ '.' :: decimal ip.c.toNat ++
    '.' :: decimal ip.d.toNat

/-- `Ipv6Addr`: eight 16-bit segments. -/
structure Ipv6Addr where
  segments : List UInt16
  length_segments : segments.length = 8
  deriving DecidableEq

/-- `Ipv6Addr::to_ipv4_mapped`: the IPv4 address inside `::ffff:a.b.c.d`. -/
def Ipv6Addr.toIpv4Mapped (ip : Ipv6Addr) : Option Ipv4Addr :=
  match ip.segments with
  | [0, 0, 0, 0, 0, 0xffff, hi, lo] =>
      some ⟨UInt8.ofNat (hi.toNat / 256), UInt8.ofNat hi.toNat, UInt8.ofNat (lo.toNat / 256),
        UInt8.ofNat lo.toNat⟩
  | _ => none

/-- A run of zero segments: where it starts and how long it is. -/
structure Span where
  start : ℕ
  len : ℕ

/-- The first longest run of zero segments.  `i` is the index of the next segment, `longest` the
best run so far and `current` the run the scan is in. -/
def longestZeros : List UInt16 → ℕ → Span → Span → Span
  | [], _, longest, _ => longest
  | seg :: segs, i, longest, current =>
      if seg = 0 then
        let current : Span := ⟨if current.len = 0 then i else current.start, current.len + 1⟩
        longestZeros segs (i + 1) (if longest.len < current.len then current else longest) current
      else longestZeros segs (i + 1) longest ⟨0, 0⟩

/-- Segments in hexadecimal, separated by colons. -/
def fmtSubslice (segs : List UInt16) : Text :=
  [':'].intercalate (segs.map fun seg => hex seg.toNat)

/-- The canonical text of an IPv6 address. -/
def Ipv6Addr.display (ip : Ipv6Addr) : Text :=
  match ip.toIpv4Mapped with
  | some v4 => "::ffff:".toList ++ v4.display
  | none =>
      let zeroes := longestZeros ip.segments 0 ⟨0, 0⟩ ⟨0, 0⟩
      if 1 < zeroes.len then
        fmtSubslice (ip.segments.take zeroes.start) ++ [':', ':'] ++
          fmtSubslice (ip.segments.drop (zeroes.start + zeroes.len))
      else fmtSubslice ip.segments

/-- `IpAddr`. -/
inductive IpAddr
  | v4 (ip : Ipv4Addr)
  | v6 (ip : Ipv6Addr)
  deriving DecidableEq

/-- `IpAddr::is_ipv4`. -/
def IpAddr.isIpv4 : IpAddr → Bool
  | .v4 _ => true
  | .v6 _ => false

/-- The text of an address. -/
def IpAddr.display : IpAddr → Text
  | .v4 ip => ip.display
  | .v6 ip => ip.display

@[simp] theorem Ipv4Addr.printable_display (ip : Ipv4Addr) : Printable ip.display := by
  have hdot : IsPrintable '.' := by decide
  unfold Ipv4Addr.display
  simp only [printable_append, printable_cons, printable_decimal, hdot, and_self]

@[simp] theorem printable_fmtSubslice (segs : List UInt16) : Printable (fmtSubslice segs) := by
  have hcolon : Printable [':'] := by decide
  unfold fmtSubslice
  induction segs with
  | nil => exact fun _ hc => nomatch hc
  | cons seg segs ih =>
      cases segs with
      | nil =>
          simp only [List.map_cons, List.map_nil, List.intercalate_singleton]
          exact printable_hex _
      | cons seg' segs =>
          rw [List.map_cons, List.map_cons, List.intercalate_cons_cons, printable_append,
            printable_append]
          exact ⟨⟨printable_hex _, hcolon⟩, ih⟩

@[simp] theorem Ipv6Addr.printable_display (ip : Ipv6Addr) : Printable ip.display := by
  have hcolons : Printable "::".toList := by decide
  have hmapped : Printable "::ffff:".toList := by decide
  unfold Ipv6Addr.display
  cases ip.toIpv4Mapped with
  | some v4 => exact printable_append.2 ⟨hmapped, Ipv4Addr.printable_display v4⟩
  | none =>
      dsimp only
      split_ifs
      · exact printable_append.2
          ⟨printable_append.2 ⟨printable_fmtSubslice _, hcolons⟩, printable_fmtSubslice _⟩
      · exact printable_fmtSubslice _

/-- Addresses are printed in printable characters. -/
@[simp] theorem IpAddr.printable_display (ip : IpAddr) : Printable ip.display := by
  cases ip with
  | v4 ip => exact Ipv4Addr.printable_display ip
  | v6 ip => exact Ipv6Addr.printable_display ip

example : (Ipv6Addr.mk [0x2001, 0xdb8, 0, 0, 1, 0, 0, 1] rfl).display
    = "2001:db8::1:0:0:1".toList := by decide

end Rnmap
