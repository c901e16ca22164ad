/-
**Hostnames reach the resolver.**

A target that is no block, no range and no address is a hostname.  No DNS name has a slash in it or
is an address, as its last label is not a number; but `10.0.0.1-50`, a range, is a DNS name as well,
and the form of a range is all that keeps a name from the resolver.

Main definitions:

* `Rnmap.DnsName` — labels of letters, digits and inner hyphens, the last one not all digits;
* `Rnmap.IsPreferred` — the address taken from a resolver's answer.

Main results:

* `Rnmap.DnsName.fromStr_eq_none` — a DNS name is no address;
* `Rnmap.names_looked_up` — **every name that does not have the form of a range is looked up**.
-/

import Rnmap.Ranges

set_option relaxedAutoImplicit false
set_option autoImplicit false

namespace Rnmap

open Text

/-! ### DNS names -/

/-- A label: letters, digits and inner hyphens. -/
def IsDnsLabel (label : Text) : Prop :=
  label ≠ [] ∧ (∀ c ∈ label, c.isAlphanum ∨ c = '-') ∧ label.head? ≠ some '-' ∧
    label.getLast? ≠ some '-'

instance : DecidablePred IsDnsLabel := fun label =>
  inferInstanceAs (Decidable (label ≠ [] ∧ (∀ c ∈ label, c.isAlphanum ∨ c = '-') ∧
    label.head? ≠ some '-' ∧ label.getLast? ≠ some '-'))

/-- A DNS name, by its labels. -/
structure DnsName where
  labels : List Text
  labels_ne_nil : labels ≠ []
  isDnsLabel : ∀ label ∈ labels, IsDnsLabel label
  /-- The last label is not all digits. -/
  lastLabel : ∃ c ∈ labels.getLast labels_ne_nil, c.isDigit = false

namespace DnsName

variable (name : DnsName)

/-- The labels, joined by dots. -/
def text : Text := ['.'].intercalate name.labels

variable {name}

/-- The characters of a DNS name. -/
theorem mem_text {c : Char} (h : c ∈ name.text) : c.isAlphanum = true ∨ c = '-' ∨ c = '.' := by
  rcases mem_intercalate h with hdot | ⟨label, hlabel, hc⟩
  · exact .inr (.inr hdot)
  · exact ((name.isDnsLabel label hlabel).2.1 c hc).imp_right .inl

theorem notMem_text {c : Char} (halphanum : c.isAlphanum = false) (hdash : c ≠ '-')
    (hdot : c ≠ '.') : c ∉ name.text := by
  intro h
  rcases mem_text h with hc | hc | hc
  · rw [hc] at halphanum
    cases halphanum
  · exact hdash hc
  · exact hdot hc

/-- The labels are the parts between the dots. -/
theorem splitOn_text (name : DnsName) : name.text.splitOn '.' = name.labels := by
  refine List.splitOn_intercalate '.' (fun label hlabel hdot => ?_) name.labels_ne_nil
  rcases (name.isDnsLabel label hlabel).2.1 '.' hdot with hc | hc
  · cases hc
  · cases hc

theorem text_ne_nil : name.text ≠ [] := by
  intro hnil
  obtain ⟨c, hc, -⟩ := name.lastLabel
  have hlabels := splitOn_text name
  rw [hnil, List.splitOn_nil] at hlabels
  have hlast : name.labels.getLast name.labels_ne_nil ∈ [[]] := by
    rw [hlabels]
    exact List.getLast_mem _
  rw [List.mem_singleton.1 hlast] at hc
  cases hc

/-- There is a character that no IPv4 address has in it. -/
theorem text_ne_display (ip : Ipv4Addr) : name.text ≠ ip.display := by
  intro heq
  obtain ⟨c, hc, hdigit⟩ := name.lastLabel
  have hlast : name.labels.getLast name.labels_ne_nil ∈ name.text.splitOn '.' := by
    rw [splitOn_text]
    exact List.getLast_mem _
  have hmem : c ∈ ip.display := heq ▸ mem_of_mem_splitOnP hlast hc
  rcases mem_display_v4 hmem with h | rfl
  · rw [h] at hdigit
    cases hdigit
  · exact notMem_of_mem_splitOn hlast hc

/-- **A DNS name is no address.** -/
theorem fromStr_eq_none : IpAddr.fromStr name.text = none := by
  rw [IpAddr.fromStr_of_noColon (notMem_text (by decide) (by decide) (by decide)),
    Option.map_eq_none_iff, Option.eq_none_iff_forall_ne_some]
  intro ip hip
  exact text_ne_display ip (Ipv4Addr.fromStr_eq_some_iff.1 hip)

end DnsName

/-! ### The address chosen -/

/-- The address is the first IPv4 address of an answer, or its first one if it has none. -/
def IsPreferred (ips : List IpAddr) (ip : IpAddr) : Prop :=
  (∃ before after, ips = before ++ ip :: after ∧ ip.isIpv4 = true ∧
      ∀ other ∈ before, other.isIpv4 = false) ∨
    (∀ other ∈ ips, other.isIpv4 = false) ∧ ips.head? = some ip

theorem isPreferred_getD (ip : IpAddr) (ips : List IpAddr) :
    IsPreferred (ip :: ips) (((ip :: ips).find? IpAddr.isIpv4).getD ip) := by
  cases hfind : (ip :: ips).find? IpAddr.isIpv4 with
  | none =>
      refine .inr ⟨fun other hother => ?_, rfl⟩
      simpa using List.find?_eq_none.1 hfind other hother
  | some chosen =>
      obtain ⟨hv4, before, after, hips, hbefore⟩ := List.find?_eq_some_iff_append.1 hfind
      exact .inl ⟨before, after, hips, hv4, fun other hother => by simpa using hbefore other hother⟩

/-! ### Looking names up -/

section

variable {env : Resolver} {name : DnsName} {raw : Text} {ips : List IpAddr}

theorem expandName_of_answer {s : Text} (hlookup : env.lookupHost s = .ok ips) (hne : ips ≠ []) :
    ∃ ip, IsPreferred ips ip ∧ expandName env s true = .ok [⟨s, ip⟩] := by
  cases ips with
  | nil => exact absurd rfl hne
  | cons ip ips =>
      refine ⟨_, isPreferred_getD ip ips, ?_⟩
      rw [expandName, hlookup]
      rfl

/-- A name that does not have the form of a range is looked up. -/
theorem expandOne_name (htrim : trim raw = name.text)
    (hform : ∀ lo hiS, ¬ IsDashed name.text lo hiS) (resolveDns : Bool) :
    expandOne env raw resolveDns = expandName env name.text resolveDns := by
  have hne : trim raw ≠ [] := htrim ▸ name.text_ne_nil
  have hslash : '/' ∉ trim raw :=
    htrim ▸ DnsName.notMem_text (by decide) (by decide) (by decide)
  rw [expandOne_of_noSlash hne hslash, htrim, parseV4Range_eq_none_iff.2 hform]
  dsimp only
  rw [DnsName.fromStr_eq_none]

/-- **Every name that does not have the form of a range is looked up**, and stands for the address
preferred among the answers; a name that is written as a range is read as one. -/
theorem names_looked_up (htrim : trim raw = name.text)
    (hlookup : env.lookupHost name.text = .ok ips) (hne : ips ≠ []) :
    ((∀ lo hiS, ¬ IsDashed name.text lo hiS) →
        ∃ ip, IsPreferred ips ip ∧ expandOne env raw true = .ok [⟨trim raw, ip⟩]) ∧
      ∀ (lo : Ipv4Addr) (hi : UInt8), name.text = rangeText lo hi →
        (lo.d ≤ hi → expandOne env raw true = .ok (labelled (octetRange lo hi))) ∧
          (hi < lo.d → ∃ why, expandOne env raw true = .error (.target (trim raw) why)) := by
  constructor
  · intro hform
    obtain ⟨ip, hip, hexpand⟩ := expandName_of_answer hlookup hne
    exact ⟨ip, hip, by rw [expandOne_name htrim hform, hexpand, htrim]⟩
  · intro lo hi hrange
    exact ⟨expandOne_range (htrim.trans hrange), expandOne_range_error (htrim.trans hrange)⟩

end

/-- A resolver's answer with addresses of both kinds. -/
def sampleAnswer : List IpAddr :=
  [.v6 ⟨[0x2001, 0xdb8, 0, 0, 0, 0, 0, 7], rfl⟩, .v4 ⟨192, 0, 2, 7⟩, .v4 ⟨192, 0, 2, 8⟩]

/-- A resolver with this answer to every name. -/
def sampleNames : Resolver where
  netHosts := fun _ => .error "invalid IP address syntax".toList
  ipv4Network := fun _ => none
  lookupHost := fun _ => .ok sampleAnswer

/-- `example.com`. -/
def exampleCom : DnsName := ⟨["example".toList, "com".toList], by decide, by decide, by decide⟩

/-- The blanks around a name are not part of it. -/
theorem example_com_looked_up : ∃ ip, IsPreferred sampleAnswer ip ∧
    expandOne sampleNames " example.com ".toList true =
      .ok [⟨trim " example.com ".toList, ip⟩] :=
  have htrim : trim " example.com ".toList = exampleCom.text := by decide
  (names_looked_up htrim rfl (by decide)).1 (not_isDashed_of_noDash (by decide))

/-- `10.0.0.1-50`, a name whose last label is `1-50`. -/
def rangeName : DnsName :=
  ⟨["10".toList, "0".toList, "0".toList, "1-50".toList], by decide, by decide, by decide⟩

/-- A name that is written as a range is not looked up. -/
theorem range_name_not_looked_up :
    trim rangeName.text = rangeName.text ∧
      sampleNames.lookupHost rangeName.text = .ok sampleAnswer ∧ sampleAnswer ≠ [] ∧
      ¬ ∃ ip, IsPreferred sampleAnswer ip ∧
        expandOne sampleNames rangeName.text true = .ok [⟨trim rangeName.text, ip⟩] := by
  refine ⟨by decide, rfl, by decide, ?_⟩
  rintro ⟨ip, -, hexpand⟩
  have hlo : (Ipv4Addr.mk 10 0 0 1).d ≤ 50 := by decide
  have htext : rangeName.text = rangeText ⟨10, 0, 0, 1⟩ 50 := by decide
  rw [htext, expandOne_range (trim_rangeText _ _) hlo] at hexpand
  -- the range has fifty hosts
  have hlen : (labelled (octetRange ⟨10, 0, 0, 1⟩ 50)).length = 50 := by
    rw [labelled, List.length_map, length_octetRange hlo]
    rfl
  rw [Except.ok.inj hexpand, List.length_singleton] at hlen
  omega

end Rnmap
