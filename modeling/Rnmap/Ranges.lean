/-
**Ranges and blocks of targets.**

A target with a slash is a block, which `ipnet` parses; a target made of an IPv4 address, a dash and
a number is a range of its last octet, which the scanner parses itself.  Where the usable hosts of a
block are the same addresses as a range's, the two are expanded to the same hosts.

Main definitions:

* `Rnmap.IsDashed` — the form of a range;
* `Rnmap.rangeText` — the text `a.b.c.x-y`;
* `Rnmap.Resolver.YieldsUsableHosts` — what is asked of `hosts()`.

Main results:

* `Rnmap.parseV4Range_eq_none_iff` — **a text is passed on exactly when it does not have the form of
  a range**;
* `Rnmap.ranges_agree` — **ranges and blocks are expanded alike**.
-/

import Rnmap.Targets
import Rnmap.AddrSyntax
import Rnmap.Ipv4Net

set_option relaxedAutoImplicit false
set_option autoImplicit false

namespace Rnmap

open Text

/-! ### The form of a range -/

/-- The form of a range: an IPv4 address, the only dash, and the rest. -/
def IsDashed (s : Text) (lo : Ipv4Addr) (hiS : Text) : Prop :=
  s = lo.display ++ '-' :: hiS ∧ '-' ∉ hiS

theorem noDash_display_v4 (ip : Ipv4Addr) : '-' ∉ ip.display :=
  notMem_display_v4 (by decide) (by decide)

theorem IsDashed.splitOnce_eq {s hiS : Text} {lo : Ipv4Addr} (h : IsDashed s lo hiS) :
    splitOnce '-' s = some (lo.display, hiS) :=
  splitOnce_eq_some.2 ⟨h.1, noDash_display_v4 lo⟩

theorem IsDashed.count_eq {s hiS : Text} {lo : Ipv4Addr} (h : IsDashed s lo hiS) :
    s.count '-' = 1 := by
  rw [h.1, List.count_append, List.count_cons_self,
    List.count_eq_zero_of_not_mem (noDash_display_v4 lo), List.count_eq_zero_of_not_mem h.2]

theorem not_isDashed_of_noDash {s : Text} (h : '-' ∉ s) (lo : Ipv4Addr) (hiS : Text) :
    ¬ IsDashed s lo hiS := by
  rintro ⟨rfl, -⟩
  exact h (List.mem_append_right _ List.mem_cons_self)

/-- Hosts labelled with their own texts. -/
def labelled (hosts : SortedSet Ipv4Addr) : List ResolvedHost :=
  hosts.toList.map fun ip => .ofIp (.v4 ip)

/-- A range is read as the addresses of the range. -/
theorem IsDashed.parseV4Range_eq_ok {s hiS : Text} {lo : Ipv4Addr} (h : IsDashed s lo hiS)
    {hi : UInt8} (hhi : fromStr 255 (trim hiS) = .ok hi.toNat) (hle : lo.d ≤ hi) :
    parseV4Range s = .ok (some (labelled (octetRange lo hi))) := by
  have hlt : ¬ hi.toNat < lo.d.toNat := Nat.not_lt.2 (UInt8.le_iff_toNat_le.1 hle)
  have hparse : Ipv4Addr.fromStr lo.display = some lo := Ipv4Addr.fromStr_eq_some_iff.2 rfl
  rw [parseV4Range, h.count_eq, h.splitOnce_eq]
  simp only [count_dot_display, hparse, hhi, hlt, ne_eq, not_true_eq_false, if_false]
  rw [labelled, octetRange, List.map_map]
  rfl

/-- What has the form of a range is rejected when it does not end in an octet from the first one
on. -/
theorem IsDashed.parseV4Range_eq_error {s hiS : Text} {lo : Ipv4Addr} (h : IsDashed s lo hiS)
    (hhi : ∀ hi : UInt8, fromStr 255 (trim hiS) = .ok hi.toNat → hi < lo.d) :
    ∃ why, parseV4Range s = .error (.target s why) := by
  have hparse : Ipv4Addr.fromStr lo.display = some lo := Ipv4Addr.fromStr_eq_some_iff.2 rfl
  rw [parseV4Range, h.count_eq, h.splitOnce_eq]
  simp only [count_dot_display, hparse, ne_eq, not_true_eq_false, if_false]
  cases hread : fromStr 255 (trim hiS) with
  | error e => exact ⟨_, rfl⟩
  | ok n =>
      have hn : n ≤ 255 := (fromStr_eq_ok_iff.1 hread).2
      have hoctet : (UInt8.ofNat n).toNat = n := by
        rw [UInt8.toNat_ofNat']
        omega
      have hlt : n < lo.d.toNat := by
        rw [← hoctet]
        exact UInt8.lt_iff_toNat_lt.1 (hhi _ (by rw [hoctet, hread]))
      exact ⟨_, if_pos hlt⟩

/-- What does not have the form of a range is passed on. -/
theorem parseV4Range_of_not_isDashed {s : Text} (h : ∀ lo hiS, ¬ IsDashed s lo hiS) :
    parseV4Range s = .ok none := by
  unfold parseV4Range
  split_ifs with hcount
  · rfl
  · cases hsplit : splitOnce '-' s with
    | none => rfl
    | some parts =>
        obtain ⟨left, hiS⟩ := parts
        obtain ⟨hs, hleft⟩ := splitOnce_eq_some.1 hsplit
        dsimp only
        split_ifs
        · rfl
        · cases hlo : Ipv4Addr.fromStr left with
          | none => rfl
          | some lo =>
              -- then the text has the form of a range
              obtain rfl := Ipv4Addr.fromStr_eq_some_iff.1 hlo
              refine absurd ⟨hs, fun hmem => ?_⟩ (h lo hiS)
              have hpos := List.count_pos_iff.2 hmem
              rw [hs, List.count_append, List.count_cons_self] at hcount
              omega

/-- **A text is passed on exactly when it does not have the form of a range.** -/
theorem parseV4Range_eq_none_iff {s : Text} :
    parseV4Range s = .ok none ↔ ∀ lo hiS, ¬ IsDashed s lo hiS := by
  refine ⟨fun hnone lo hiS hdashed => ?_, parseV4Range_of_not_isDashed⟩
  by_cases hrange : ∃ hi : UInt8, fromStr 255 (trim hiS) = .ok hi.toNat ∧ lo.d ≤ hi
  · obtain ⟨hi, hhi, hle⟩ := hrange
    rw [hdashed.parseV4Range_eq_ok hhi hle] at hnone
    cases hnone
  · obtain ⟨why, herror⟩ := hdashed.parseV4Range_eq_error fun hi hhi =>
      UInt8.not_le.1 fun hle => hrange ⟨hi, hhi, hle⟩
    rw [herror] at hnone
    cases hnone

/-! ### Expanding a target -/

/-- How a target without a slash is expanded. -/
theorem expandOne_of_noSlash {env : Resolver} {raw : Text} {resolveDns : Bool}
    (hne : trim raw ≠ []) (hslash : '/' ∉ trim raw) :
    expandOne env raw resolveDns =
      match parseV4Range (trim raw) with
      | .error e => .error e
      | .ok (some hosts) => .ok hosts
      | .ok none =>
          match IpAddr.fromStr (trim raw) with
          | some ip => .ok [⟨trim raw, ip⟩]
          | none => expandName env (trim raw) resolveDns := by
  have hempty : ¬ (trim raw).isEmpty = true := by simpa using hne
  exact (if_neg hempty).trans (if_neg hslash)

theorem expandOne_of_slash {env : Resolver} {raw : Text} {resolveDns : Bool}
    (hslash : '/' ∈ trim raw) : expandOne env raw resolveDns = expandNet env (trim raw) := by
  have hne : trim raw ≠ [] := List.ne_nil_of_mem hslash
  rw [expandOne, if_neg (by simpa using hne), if_pos hslash]

theorem IsDashed.ne_nil {s hiS : Text} {lo : Ipv4Addr} (h : IsDashed s lo hiS) : s ≠ [] := by
  rw [h.1]
  simp

theorem IsDashed.noSlash {s hiS : Text} {lo : Ipv4Addr} (h : IsDashed s lo hiS)
    (hhiS : '/' ∉ hiS) : '/' ∉ s := by
  rw [h.1, List.mem_append, List.mem_cons]
  rintro (hmem | hdash | hmem)
  · exact notMem_display_v4 (by decide) (by decide) hmem
  · cases hdash
  · exact hhiS hmem

section

variable {env : Resolver} {raw hiS : Text} {lo : Ipv4Addr} {resolveDns : Bool}

/-- A range is expanded to its addresses. -/
theorem IsDashed.expandOne_eq_ok (h : IsDashed (trim raw) lo hiS) (hslash : '/' ∉ hiS)
    {hi : UInt8} (hhi : fromStr 255 (trim hiS) = .ok hi.toNat) (hle : lo.d ≤ hi) :
    expandOne env raw resolveDns = .ok (labelled (octetRange lo hi)) := by
  rw [expandOne_of_noSlash h.ne_nil (h.noSlash hslash), h.parseV4Range_eq_ok hhi hle]

theorem IsDashed.expandOne_eq_error (h : IsDashed (trim raw) lo hiS) (hslash : '/' ∉ hiS)
    (hhi : ∀ hi : UInt8, fromStr 255 (trim hiS) = .ok hi.toNat → hi < lo.d) :
    ∃ why, expandOne env raw resolveDns = .error (.target (trim raw) why) := by
  obtain ⟨why, herror⟩ := h.parseV4Range_eq_error hhi
  exact ⟨why, by rw [expandOne_of_noSlash h.ne_nil (h.noSlash hslash), herror]⟩

end

/-! ### Numbers in targets -/

/-- The characters of ranges and blocks are not white space. -/
theorem trim_of_numbers {s : Text}
    (h : ∀ c ∈ s, c.isDigit = true ∨ c = '.' ∨ c = '-' ∨ c = '/') : trim s = s := by
  refine trim_eq_self fun c hc => ?_
  rcases h c hc with hdigit | rfl | rfl | rfl
  · rw [isDigit_iff] at hdigit
    unfold isWhitespace
    simp only [Bool.or_eq_false_iff, Bool.and_eq_false_iff, decide_eq_false_iff_not,
      beq_eq_false_iff_ne]
    omega
  · rfl
  · rfl
  · rfl

/-- Nothing is trimmed from an address with a number behind it. -/
theorem trim_display_decimal (ip : Ipv4Addr) {sep : Char} (hsep : sep = '-' ∨ sep = '/') (n : ℕ) :
    trim (ip.display ++ sep :: decimal n) = ip.display ++ sep :: decimal n := by
  refine trim_of_numbers fun c hc => ?_
  rcases List.mem_append.1 hc with hmem | hmem
  · exact (mem_display_v4 hmem).imp_right .inl
  · rcases List.mem_cons.1 hmem with rfl | hmem
    · exact .inr (.inr hsep)
    · exact .inl (isDigit_of_mem_decimal hmem)

theorem fromStr_decimal {max n : ℕ} (h : n ≤ max) : fromStr max (trim (decimal n)) = .ok n := by
  rw [trim_of_numbers fun c hc => .inl (isDigit_of_mem_decimal hc)]
  exact fromStr_eq_ok_iff.2 ⟨⟨decimal n, .inl rfl, Nat.toDigits_ne_nil,
    fun c => isDigit_of_mem_decimal, Nat.ofDigitChars_ten_toDigits⟩, h⟩

/-! ### Ranges -/

/-- The text `a.b.c.x-y`. -/
def rangeText (lo : Ipv4Addr) (y : UInt8) : Text := lo.display ++ '-' :: decimal y.toNat

theorem notMem_decimal {n : ℕ} {c : Char} (hc : c.isDigit = false) : c ∉ decimal n := by
  intro h
  rw [isDigit_of_mem_decimal h] at hc
  cases hc

theorem isDashed_rangeText (lo : Ipv4Addr) (y : UInt8) :
    IsDashed (rangeText lo y) lo (decimal y.toNat) :=
  ⟨rfl, notMem_decimal (by decide)⟩

theorem fromStr_octet (y : UInt8) : fromStr 255 (trim (decimal y.toNat)) = .ok y.toNat :=
  fromStr_decimal (Nat.le_of_lt_succ y.toNat_lt)

theorem lt_of_fromStr_octet {d y : UInt8} (h : y < d) (hi : UInt8)
    (hhi : fromStr 255 (trim (decimal y.toNat)) = .ok hi.toNat) : hi < d := by
  rw [fromStr_octet, Except.ok.injEq, UInt8.toNat_inj] at hhi
  rwa [← hhi]

theorem trim_rangeText (lo : Ipv4Addr) (y : UInt8) : trim (rangeText lo y) = rangeText lo y :=
  trim_display_decimal lo (.inl rfl) y.toNat

section

variable {env : Resolver} {raw : Text} {lo : Ipv4Addr} {y : UInt8} {resolveDns : Bool}

theorem expandOne_range (htrim : trim raw = rangeText lo y) (h : lo.d ≤ y) :
    expandOne env raw resolveDns = .ok (labelled (octetRange lo y)) := by
  have hdashed : IsDashed (trim raw) lo (decimal y.toNat) := htrim ▸ isDashed_rangeText lo y
  exact hdashed.expandOne_eq_ok (notMem_decimal (by decide)) (fromStr_octet y) h

/-- A range that descends is rejected. -/
theorem expandOne_range_error (htrim : trim raw = rangeText lo y) (h : y < lo.d) :
    ∃ why, expandOne env raw resolveDns = .error (.target (trim raw) why) := by
  have hdashed : IsDashed (trim raw) lo (decimal y.toNat) := htrim ▸ isDashed_rangeText lo y
  exact hdashed.expandOne_eq_error (notMem_decimal (by decide)) (lt_of_fromStr_octet h)

end

/-! ### Blocks -/

/-- `hosts()` yields the usable hosts of a network, in order. -/
def Resolver.YieldsUsableHosts (env : Resolver) (net : Ipv4Net) : Prop :=
  ∃ hosts : SortedSet Ipv4Addr, env.netHosts net.text = .ok (hosts.toList.map .v4) ∧
    ∀ ip, ip ∈ hosts ↔ net.IsUsable ip

theorem trim_text (net : Ipv4Net) : trim net.text = net.text :=
  trim_display_decimal net.addr (.inr rfl) net.prefixLen

theorem labelled_ne_nil {lo : Ipv4Addr} {hi : UInt8} (h : lo.d ≤ hi) :
    labelled (octetRange lo hi) ≠ [] := by
  intro hnil
  have hlen := length_octetRange h
  rw [List.map_eq_nil_iff.1 hnil, List.length_nil] at hlen
  omega

/-- A block is expanded to its usable hosts. -/
theorem expandOne_text (env : Resolver) (resolveDns : Bool) {net : Ipv4Net}
    (hlen : 24 ≤ net.prefixLen) (hhosts : env.YieldsUsableHosts net) :
    expandOne env net.text resolveDns =
      .ok (labelled (octetRange net.firstHost net.lastHost.d)) := by
  obtain ⟨hosts, hyield, hmem⟩ := hhosts
  obtain rfl : hosts = octetRange net.firstHost net.lastHost.d :=
    SortedSet.ext_mem fun ip => (hmem ip).trans (Ipv4Net.mem_octetRange_iff hlen).symm
  have hne := labelled_ne_nil (Ipv4Net.d_firstHost_le hlen)
  have hslash : '/' ∈ trim net.text := by
    rw [trim_text]
    exact List.mem_append_right _ List.mem_cons_self
  rw [expandOne_of_slash hslash, trim_text, expandNet, hyield]
  rw [labelled] at hne ⊢
  cases hlist : (octetRange net.firstHost net.lastHost.d).toList with
  | nil => exact absurd (by rw [hlist]; rfl) hne
  | cons ip ips => simp only [List.map_cons, List.map_map, Function.comp_def]

/-- **Ranges and blocks are expanded alike.** -/
structure RangesAgree (env : Resolver) (resolveDns : Bool) : Prop where
  /-- A range is expanded to all addresses from its first to its last, in order. -/
  range : ∀ (lo : Ipv4Addr) (y : UInt8), lo.d ≤ y → ∃ hosts : SortedSet Ipv4Addr,
    expandOne env (rangeText lo y) resolveDns = .ok (labelled hosts) ∧
      hosts.toList.length = y.toNat - lo.d.toNat + 1 ∧
      ∀ ip, ip ∈ hosts ↔ lo ≤ ip ∧ ip ≤ lo.withLast y
  /-- A range that descends is rejected. -/
  descending : ∀ (lo : Ipv4Addr) (y : UInt8), y < lo.d →
    ∃ e, expandOne env (rangeText lo y) resolveDns = .error e
  /-- A block is expanded to the hosts of the range from its first to its last usable host, and
  there are some. -/
  block : ∀ net : Ipv4Net, 24 ≤ net.prefixLen → env.YieldsUsableHosts net →
    ∃ hosts, hosts ≠ [] ∧ expandOne env net.text resolveDns = .ok hosts ∧
      expandOne env (rangeText net.firstHost net.lastHost.d) resolveDns = .ok hosts

/-- Ranges and blocks are expanded alike, whatever else is asked of other crates. -/
theorem ranges_agree (env : Resolver) (resolveDns : Bool) : RangesAgree env resolveDns where
  range := fun lo y h =>
    ⟨octetRange lo y, expandOne_range (trim_rangeText lo y) h, length_octetRange h,
      fun _ => mem_octetRange⟩
  descending := by
    intro lo y h
    obtain ⟨why, herror⟩ := expandOne_range_error (trim_rangeText lo y) h
    exact ⟨_, herror⟩
  block := by
    intro net hlen hhosts
    have hfirst := Ipv4Net.d_firstHost_le hlen
    exact ⟨_, labelled_ne_nil hfirst, expandOne_text env resolveDns hlen hhosts,
      expandOne_range (trim_rangeText _ _) hfirst⟩

/-- The network `10.0.0.0/30`. -/
def sampleNet : Ipv4Net := ⟨⟨10, 0, 0, 0⟩, 30, by decide⟩

/-- A resolver for which `10.0.0.0/30` has the hosts `ipnet` finds in it. -/
def sampleNetResolver : Resolver where
  netHosts := fun s =>
    if s = "10.0.0.0/30".toList then .ok [.v4 ⟨10, 0, 0, 1⟩, .v4 ⟨10, 0, 0, 2⟩]
    else .error "invalid IP address syntax".toList
  ipv4Network := fun _ => none
  lookupHost := fun _ => .error "failed to lookup address information".toList

theorem yieldsUsableHosts_sample : sampleNetResolver.YieldsUsableHosts sampleNet := by
  have hlen : 24 ≤ sampleNet.prefixLen := by decide
  exact ⟨octetRange ⟨10, 0, 0, 1⟩ 2, rfl, fun _ => Ipv4Net.mem_octetRange_iff hlen⟩

/-- `10.0.0.0/30` and `10.0.0.1-2` are expanded to the same hosts. -/
theorem ranges_agree_sample : ∃ hosts, hosts ≠ [] ∧
    expandOne sampleNetResolver "10.0.0.0/30".toList false = .ok hosts ∧
    expandOne sampleNetResolver "10.0.0.1-2".toList false = .ok hosts :=
  (ranges_agree sampleNetResolver false).block sampleNet (by decide) yieldsUsableHosts_sample

end Rnmap
