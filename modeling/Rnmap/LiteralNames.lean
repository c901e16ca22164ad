/-
**The names of hosts given by address.**

A host given by its address is labelled with the text it was given in, and a host is named by its
label unless that is the address's canonical text.  So another spelling of an IPv6 address becomes
the name of the host, where the canonical text would have had the name looked up.

Main definitions:

* `Rnmap.nameOf` — the name an address has;
* `Rnmap.NamedAlike` — two spellings of an address give it that name.

Main results:

* `Rnmap.expandOne_literal` — every spelling of an address is expanded to the address;
* `Rnmap.named_alike_iff` — **when two spellings of an address give it the same name**.
-/

import Rnmap.Hostnames
import Rnmap.Ranges

set_option relaxedAutoImplicit false
set_option autoImplicit false

namespace Rnmap

open Text

/-! ### Literals -/

/-- **Every spelling of an address is expanded to the address**, labelled with the spelling. -/
theorem expandOne_literal {env : Resolver} {raw : Text} {resolveDns : Bool} {ip : IpAddr}
    (h : IpAddr.fromStr (trim raw) = some ip) :
    expandOne env raw resolveDns = .ok [⟨trim raw, ip⟩] := by
  have hchars := isAddrChar_of_fromStr h
  have hne : trim raw ≠ [] := by
    intro hnil
    rw [hnil] at h
    cases h
  have hslash : '/' ∉ trim raw := fun hmem => absurd (hchars '/' hmem) (by decide)
  have hdash : '-' ∉ trim raw := fun hmem => absurd (hchars '-' hmem) (by decide)
  rw [expandOne_of_noSlash hne hslash,
    parseV4Range_eq_none_iff.2 (not_isDashed_of_noDash hdash)]
  dsimp only
  rw [h]

/-! ### Names -/

/-- The name an address has: `localhost`, or else what a reverse lookup answers. -/
def nameOf (lookupAddr : IpAddr → Option Text) (ip : IpAddr) : Option Text :=
  if ip = .v4 .localhost then some "localhost".toList else lookupAddr ip

/-- The host's name is the name of its address, and not the label itself. -/
def ResolvedHost.NamedByAddress (lookupAddr : IpAddr → Option Text) (r : ResolvedHost) : Prop :=
  hostnameFor lookupAddr r.label r.ip = nameOf lookupAddr r.ip ∧
    hostnameFor lookupAddr r.label r.ip ≠ some r.label

/-- **Two spellings give an address the same name**: each is expanded to one host at the address,
named by it. -/
def NamedAlike (env : Resolver) (lookupAddr : IpAddr → Option Text) (raw₁ raw₂ : Text)
    (ip : IpAddr) : Prop :=
  ∀ resolveDns, ∃ r₁ r₂ : ResolvedHost,
    expandOne env raw₁ resolveDns = .ok [r₁] ∧ expandOne env raw₂ resolveDns = .ok [r₂] ∧
      r₁.ip = ip ∧ r₂.ip = ip ∧ r₁.NamedByAddress lookupAddr ∧ r₂.NamedByAddress lookupAddr

/-- The name of an address is not its text, as long as no reverse lookup says so. -/
theorem nameOf_ne_display_iff {lookupAddr : IpAddr → Option Text} {ip : IpAddr} :
    nameOf lookupAddr ip ≠ some ip.display ↔
      ip = .v4 .localhost ∨ lookupAddr ip ≠ some ip.display := by
  unfold nameOf
  split_ifs with hlocal
  · subst hlocal
    exact iff_of_true (by decide) (.inl rfl)
  · exact (or_iff_right hlocal).symm

/-- A host is named by its address when its label is the canonical text. -/
theorem namedByAddress_iff {lookupAddr : IpAddr → Option Text} {r : ResolvedHost} :
    r.NamedByAddress lookupAddr ↔
      r.label = r.ip.display ∧
        (r.ip = .v4 .localhost ∨ lookupAddr r.ip ≠ some r.ip.display) := by
  unfold ResolvedHost.NamedByAddress hostnameFor
  rw [← nameOf_ne_display_iff]
  split_ifs with hlabel hlocal
  · exact iff_of_false (fun h => h.2 rfl) fun h => hlabel h.1
  · rw [ne_eq, not_not] at hlabel
    rw [nameOf, if_pos hlocal, hlabel]
    exact ⟨fun h => ⟨rfl, h.2⟩, fun h => ⟨rfl, h.2⟩⟩
  · rw [ne_eq, not_not] at hlabel
    rw [nameOf, if_neg hlocal, hlabel]
    exact ⟨fun h => ⟨rfl, h.2⟩, fun h => ⟨rfl, h.2⟩⟩

/-- Every IPv4 address is written canonically. -/
theorem isV4_or_canonical {s : Text} {ip : IpAddr} (h : IpAddr.fromStr s = some ip) :
    s = ip.display ↔ ip.isIpv4 = true ∨ s = ip.display := by
  refine ⟨.inr, fun hip => hip.elim (fun hv4 => ?_) id⟩
  cases ip with
  | v4 ip => exact eq_display_of_fromStr_v4 h
  | v6 ip => cases hv4

/-- **When two spellings of an address give it the same name**: when it is an IPv4 address or both
are its canonical text, and a reverse lookup does not answer with that text. -/
theorem named_alike_iff (env : Resolver) (lookupAddr : IpAddr → Option Text) {raw₁ raw₂ : Text}
    {ip : IpAddr} (h₁ : IpAddr.fromStr (trim raw₁) = some ip)
    (h₂ : IpAddr.fromStr (trim raw₂) = some ip) :
    NamedAlike env lookupAddr raw₁ raw₂ ip ↔
      (ip.isIpv4 = true ∨ trim raw₁ = ip.display ∧ trim raw₂ = ip.display) ∧
        (ip = .v4 .localhost ∨ lookupAddr ip ≠ some ip.display) := by
  rw [or_and_left, ← isV4_or_canonical h₁, ← isV4_or_canonical h₂]
  constructor
  · intro halike
    obtain ⟨r₁, r₂, hr₁, hr₂, -, -, hname₁, hname₂⟩ := halike true
    rw [expandOne_literal h₁] at hr₁
    rw [expandOne_literal h₂] at hr₂
    cases hr₁
    cases hr₂
    obtain ⟨hlabel₁, hlookup⟩ := namedByAddress_iff.1 hname₁
    exact ⟨⟨hlabel₁, (namedByAddress_iff.1 hname₂).1⟩, hlookup⟩
  · rintro ⟨⟨hlabel₁, hlabel₂⟩, hlookup⟩ resolveDns
    exact ⟨_, _, expandOne_literal h₁, expandOne_literal h₂, rfl, rfl,
      namedByAddress_iff.2 ⟨hlabel₁, hlookup⟩, namedByAddress_iff.2 ⟨hlabel₂, hlookup⟩⟩

/-- `8.8.8.8` is named alike with and without a blank behind it. -/
theorem named_alike_v4 : NamedAlike CliCall.noNames (fun _ => some "dns.google".toList)
    "8.8.8.8".toList "8.8.8.8 ".toList (.v4 ⟨8, 8, 8, 8⟩) :=
  (named_alike_iff CliCall.noNames _ (by decide) (by decide)).2 ⟨.inl rfl, .inr (by decide)⟩

/-- `2001:db8::a`. -/
def docAddr : Ipv6Addr := ⟨[0x2001, 0xdb8, 0, 0, 0, 0, 0, 10], rfl⟩

/-- With capital letters the address becomes the name of the host. -/
theorem capitals_become_name :
    IpAddr.fromStr (trim "2001:db8::a".toList) = some (.v6 docAddr) ∧
      IpAddr.fromStr (trim "2001:DB8::A".toList) = some (.v6 docAddr) ∧
      ¬ NamedAlike CliCall.noNames (fun _ => some "www.example.com".toList)
        "2001:db8::a".toList "2001:DB8::A".toList (.v6 docAddr) := by
  have hread : IpAddr.fromStr (trim "2001:DB8::A".toList) = some (.v6 docAddr) := by decide
  refine ⟨by decide, hread, fun halike => ?_⟩
  obtain ⟨r₁, r₂, -, hr₂, -, -, -, hname⟩ := halike true
  rw [expandOne_literal hread] at hr₂
  cases hr₂
  exact absurd (namedByAddress_iff.1 hname).1 (by decide)

end Rnmap
