/-
**The XML report.**

The renderer writes one element after the other and escapes the five characters that XML reserves
in the texts it quotes.  The other characters pass unchanged, and XML 1.0 does not allow all of
them in a document: most control characters may not even be written as references.

Main definitions:

* `Rnmap.escapeXml`, `Rnmap.renderXml` — the renderer;
* `Rnmap.IsXmlChar` — the characters of XML 1.0;
* `Rnmap.ReportClean` — a report that shows such characters only;
* `Rnmap.OwnTextsClean` — a report whose texts other than products and versions are such.

Main results:

* `Rnmap.xmlClean_escapeXml` — escaping neither adds nor removes a forbidden character;
* `Rnmap.serviceClean_iff` — which banners give a service with forbidden characters;
* `Rnmap.xml_chars_iff` — **when a document consists of XML characters**.
-/

import Rnmap.Report
import Rnmap.EmptyParts

set_option relaxedAutoImplicit false
set_option autoImplicit false

namespace Rnmap

open Text

/-! ### The renderer -/

/-- A number with its sign. -/
def signedDecimal (n : ℤ) : Text := if n < 0 then '-' :: decimal n.natAbs else decimal n.natAbs

/-- `x`: escape the five reserved characters, one after the other. -/
def escapeXml (s : Text) : Text :=
  replace '\'' "&apos;".toList (replace '"' "&quot;".toList (replace '>' "&gt;".toList
    (replace '<' "&lt;".toList (replace '&' "&amp;".toList s))))

/-- The ports the XML report keeps. -/
def keptPorts (onlyOpen : Bool) (h : HostResult) : List PortResult :=
  h.ports.filter fun p => !(onlyOpen && p.state ≠ .open)

/-- They are all of its ports, or the open ones. -/
theorem keptPorts_eq (onlyOpen : Bool) (h : HostResult) :
    keptPorts onlyOpen h = h.ports.filter fun p => !onlyOpen || p.state = .open := by
  cases onlyOpen <;> simp [keptPorts]

/-- The attributes of a service. -/
def serviceAttrs (svc : ServiceInfo) : Text :=
  " name=\"".toList ++ escapeXml svc.name ++ "\"".toList ++
    (match svc.product with
      | some pr => " product=\"".toList ++ escapeXml pr ++ "\"".toList
      | none => []) ++
    (match svc.version with
      | some v => " version=\"".toList ++ escapeXml v ++ "\"".toList
      | none => [])

/-- The element of a port. -/
def xmlPort (p : PortResult) : Text :=
  line ("      <port protocol=\"".toList ++ p.protocol.display ++ "\" portid=\"".toList ++
    decimal p.port.toNat ++ "\">".toList) ++
  line ("        <state state=\"".toList ++ p.state.display ++ "\" reason=\"".toList ++
    escapeXml p.reason ++ "\"/>".toList) ++
  (match p.service with
    | some svc => line ("        <service".toList ++ serviceAttrs svc ++ "/>".toList)
    | none => []) ++
  line "      </port>".toList

/-- The element of a host. -/
def xmlHost (onlyOpen : Bool) (h : HostResult) : Text :=
  line "  <host>".toList ++
  line ("    <status state=\"".toList ++ h.state.word ++ "\" reason=\"".toList ++
    escapeXml h.reason ++ "\"/>".toList) ++
  line ("    <address addr=\"".toList ++ h.address.display ++ "\" addrtype=\"".toList ++
    (if h.address.isIpv4 then "ipv4".toList else "ipv6".toList) ++ "\"/>".toList) ++
  (match h.hostname with
    | some name =>
        line "    <hostnames>".toList ++
        line ("      <hostname name=\"".toList ++ escapeXml name ++ "\" type=\"user\"/>".toList) ++
        line "    </hostnames>".toList
    | none => []) ++
  line "    <ports>".toList ++
  (keptPorts onlyOpen h).flatMap xmlPort ++
  line "    </ports>".toList ++
  line "  </host>".toList

/-- `xml::render`. -/
def renderXml (fmt : Formats) (r : ScanReport) (onlyOpen : Bool) : Text :=
  line "<?xml version=\"1.0\" encoding=\"UTF-8\"?>".toList ++
  line ("<rnmaprun scanner=\"".toList ++ escapeXml r.scanner ++ "\" version=\"".toList ++
    escapeXml r.version ++ "\" args=\"".toList ++ escapeXml ([' '].intercalate r.args) ++
    "\" start=\"".toList ++ signedDecimal r.startedAt.timestamp ++ "\">".toList) ++
  r.hosts.flatMap (xmlHost onlyOpen) ++
  line ("  <runstats><finished time=\"".toList ++ signedDecimal r.endedAt.timestamp ++
    "\" elapsed=\"".toList ++ fmt.secs 3 r.elapsed ++ "\"/><hosts up=\"".toList ++
    decimal r.upCount ++ "\" total=\"".toList ++ decimal r.hostCount ++
    "\"/></runstats>".toList) ++
  line "</rnmaprun>".toList

/-! ### XML characters -/

/-- The characters XML 1.0 allows in a document. -/
def IsXmlChar (c : Char) : Prop :=
  c.toNat = 0x9 ∨ c.toNat = 0xA ∨ c.toNat = 0xD ∨ (0x20 ≤ c.toNat ∧ c.toNat ≤ 0xD7FF) ∨
    (0xE000 ≤ c.toNat ∧ c.toNat ≤ 0xFFFD) ∨ (0x10000 ≤ c.toNat ∧ c.toNat ≤ 0x10FFFF)

instance (c : Char) : Decidable (IsXmlChar c) :=
  inferInstanceAs (Decidable (c.toNat = 0x9 ∨ c.toNat = 0xA ∨ c.toNat = 0xD ∨
    (0x20 ≤ c.toNat ∧ c.toNat ≤ 0xD7FF) ∨ (0xE000 ≤ c.toNat ∧ c.toNat ≤ 0xFFFD) ∨
    (0x10000 ≤ c.toNat ∧ c.toNat ≤ 0x10FFFF)))

/-- A text of XML characters. -/
def XmlClean (s : Text) : Prop := ∀ c ∈ s, IsXmlChar c

instance (s : Text) : Decidable (XmlClean s) := List.decidableBAll IsXmlChar s

theorem isXmlChar_of_isPrintable {c : Char} (h : IsPrintable c) : IsXmlChar c := by
  obtain ⟨hlo, hhi⟩ := h
  exact .inr (.inr (.inr (.inl ⟨hlo, by omega⟩)))

theorem xmlClean_of_printable {s : Text} (h : Printable s) : XmlClean s :=
  fun c hc => isXmlChar_of_isPrintable (h c hc)

@[simp] theorem xmlClean_nil : XmlClean [] := fun _ hc => nomatch hc

@[simp] theorem xmlClean_append {s t : Text} : XmlClean (s ++ t) ↔ XmlClean s ∧ XmlClean t :=
  List.forall_mem_append

@[simp] theorem xmlClean_line {s : Text} : XmlClean (line s) ↔ XmlClean s := by
  have hlf : XmlClean ['\n'] := by decide
  rw [line, xmlClean_append, and_iff_left hlf]

theorem xmlClean_flatMap {α : Type} {xs : List α} {f : α → Text} :
    XmlClean (xs.flatMap f) ↔ ∀ x ∈ xs, XmlClean (f x) := by
  induction xs with
  | nil => simp
  | cons x xs ih => rw [List.flatMap_cons, xmlClean_append, ih, List.forall_mem_cons]

theorem xmlClean_intercalate {ss : List Text} :
    XmlClean ([' '].intercalate ss) ↔ ∀ s ∈ ss, XmlClean s := by
  have hblank : XmlClean [' '] := by decide
  induction ss with
  | nil => simp
  | cons s ss ih =>
      cases ss with
      | nil => simp
      | cons t ss =>
          rw [List.intercalate_cons_cons, xmlClean_append, xmlClean_append, and_iff_left hblank,
            List.forall_mem_cons]
          exact and_congr_right fun _ => ih

/-- Replacing an allowed character by allowed ones neither adds nor removes a forbidden one. -/
theorem xmlClean_replace {c : Char} {t s : Text} (hc : IsXmlChar c) (ht : XmlClean t) :
    XmlClean (replace c t s) ↔ XmlClean s := by
  unfold replace
  rw [xmlClean_flatMap]
  refine forall₂_congr fun d _ => ?_
  by_cases hd : d = c
  · rw [if_pos hd, hd]
    exact iff_of_true ht hc
  · rw [if_neg hd]
    exact List.forall_mem_singleton

/-- **Escaping neither adds nor removes a forbidden character.** -/
@[simp] theorem xmlClean_escapeXml {s : Text} : XmlClean (escapeXml s) ↔ XmlClean s := by
  unfold escapeXml
  rw [xmlClean_replace (by decide) (by decide), xmlClean_replace (by decide) (by decide),
    xmlClean_replace (by decide) (by decide), xmlClean_replace (by decide) (by decide),
    xmlClean_replace (by decide) (by decide)]

@[simp] theorem xmlClean_decimal (n : ℕ) : XmlClean (decimal n) :=
  xmlClean_of_printable (printable_decimal n)

@[simp] theorem xmlClean_signedDecimal (n : ℤ) : XmlClean (signedDecimal n) := by
  unfold signedDecimal
  split_ifs
  · exact List.forall_mem_cons.2 ⟨by decide, xmlClean_decimal _⟩
  · exact xmlClean_decimal _

@[simp] theorem xmlClean_address (ip : IpAddr) : XmlClean ip.display :=
  xmlClean_of_printable ip.printable_display

@[simp] theorem xmlClean_secs (fmt : Formats) (n : ℕ) (d : Duration) : XmlClean (fmt.secs n d) :=
  xmlClean_of_printable (fmt.printable_secs n d)

@[simp] theorem xmlClean_protocol (p : Protocol) : XmlClean p.display := by
  cases p <;> decide

@[simp] theorem xmlClean_portState (st : PortState) : XmlClean st.display := by
  cases st <;> decide

@[simp] theorem xmlClean_hostState (st : HostState) : XmlClean st.word := by
  cases st <;> decide

/-! ### Reports that show XML characters only -/

/-- The texts of a service. -/
structure ServiceClean (svc : ServiceInfo) : Prop where
  name : XmlClean svc.name
  product : ∀ s, svc.product = some s → XmlClean s
  version : ∀ s, svc.version = some s → XmlClean s

/-- The texts of a port. -/
structure PortClean (p : PortResult) : Prop where
  reason : XmlClean p.reason
  service : ∀ svc, p.service = some svc → ServiceClean svc

/-- The texts of a host that are shown. -/
structure HostClean (onlyOpen : Bool) (h : HostResult) : Prop where
  reason : XmlClean h.reason
  hostname : ∀ s, h.hostname = some s → XmlClean s
  ports : ∀ p ∈ keptPorts onlyOpen h, PortClean p

/-- The texts of a report that are shown. -/
structure ReportClean (onlyOpen : Bool) (r : ScanReport) : Prop where
  scanner : XmlClean r.scanner
  version : XmlClean r.version
  args : ∀ s ∈ r.args, XmlClean s
  hosts : ∀ h ∈ r.hosts, HostClean onlyOpen h

theorem xmlClean_serviceAttrs {svc : ServiceInfo} :
    XmlClean (serviceAttrs svc) ↔ ServiceClean svc := by
  have hattr : ∀ (open_ : Text) (value : Option Text), XmlClean open_ →
      (XmlClean (match value with
        | some s => open_ ++ escapeXml s ++ "\"".toList
        | none => []) ↔ ∀ s, value = some s → XmlClean s) := by
    intro open_ value hopen
    cases value with
    | none => simp
    | some s =>
        simp +decide only [xmlClean_append, xmlClean_escapeXml, hopen, Option.some.injEq,
          forall_eq', and_true, true_and]
  unfold serviceAttrs
  rw [xmlClean_append, xmlClean_append, hattr _ _ (by decide), hattr _ _ (by decide)]
  simp +decide only [xmlClean_append, xmlClean_escapeXml, and_true, true_and]
  constructor
  · rintro ⟨⟨hname, hproduct⟩, hversion⟩
    exact ⟨hname, hproduct, hversion⟩
  · rintro ⟨hname, hproduct, hversion⟩
    exact ⟨⟨hname, hproduct⟩, hversion⟩

theorem xmlClean_xmlPort {p : PortResult} : XmlClean (xmlPort p) ↔ PortClean p := by
  have hservice : XmlClean (match p.service with
      | some svc => line ("        <service".toList ++ serviceAttrs svc ++ "/>".toList)
      | none => []) ↔ ∀ svc, p.service = some svc → ServiceClean svc := by
    cases p.service with
    | none => simp
    | some svc =>
        simp +decide only [xmlClean_append, xmlClean_line, xmlClean_serviceAttrs,
          Option.some.injEq, forall_eq', and_true, true_and]
  unfold xmlPort
  rw [xmlClean_append, xmlClean_append, hservice]
  simp +decide only [xmlClean_append, xmlClean_line, xmlClean_escapeXml, xmlClean_protocol,
    xmlClean_portState, xmlClean_decimal, and_true, true_and]
  exact ⟨fun h => ⟨h.1, h.2⟩, fun h => ⟨h.reason, h.service⟩⟩

theorem xmlClean_xmlHost {onlyOpen : Bool} {h : HostResult} :
    XmlClean (xmlHost onlyOpen h) ↔ HostClean onlyOpen h := by
  have hhostname : XmlClean (match h.hostname with
      | some name =>
          line "    <hostnames>".toList ++
          line ("      <hostname name=\"".toList ++ escapeXml name ++
            "\" type=\"user\"/>".toList) ++
          line "    </hostnames>".toList
      | none => []) ↔ ∀ s, h.hostname = some s → XmlClean s := by
    cases h.hostname with
    | none => simp
    | some name =>
        simp +decide only [xmlClean_append, xmlClean_line, xmlClean_escapeXml, Option.some.injEq,
          forall_eq', and_true, true_and]
  have haddrtype : XmlClean (if h.address.isIpv4 then "ipv4".toList else "ipv6".toList) := by
    split_ifs <;> decide
  unfold xmlHost
  simp +decide only [xmlClean_append, xmlClean_line, xmlClean_escapeXml, xmlClean_hostState,
    xmlClean_address, haddrtype, hhostname, xmlClean_flatMap, xmlClean_xmlPort, and_true, true_and]
  constructor
  · rintro ⟨⟨hreason, hname⟩, hports⟩
    exact ⟨hreason, hname, hports⟩
  · rintro ⟨hreason, hname, hports⟩
    exact ⟨⟨hreason, hname⟩, hports⟩

theorem xmlClean_renderXml (fmt : Formats) (r : ScanReport) (onlyOpen : Bool) :
    XmlClean (renderXml fmt r onlyOpen) ↔ ReportClean onlyOpen r := by
  unfold renderXml
  simp +decide only [xmlClean_append, xmlClean_line, xmlClean_escapeXml, xmlClean_intercalate,
    xmlClean_signedDecimal, xmlClean_decimal, xmlClean_secs, xmlClean_flatMap, xmlClean_xmlHost,
    and_true, true_and]
  constructor
  · rintro ⟨⟨⟨hscanner, hversion⟩, hargs⟩, hhosts⟩
    exact ⟨hscanner, hversion, hargs, hhosts⟩
  · rintro ⟨hscanner, hversion, hargs, hhosts⟩
    exact ⟨⟨⟨hscanner, hversion⟩, hargs⟩, hhosts⟩

/-! ### Services of banners -/

/-- Decimal digits are allowed. -/
theorem isXmlChar_of_isDecimalDigit {c : Char} (h : isDecimalDigit c = true) : IsXmlChar c := by
  obtain ⟨z, hz, hc⟩ := List.any_eq_true.1 h
  have hzeros : ∀ z ∈ digitZeros, (0x20 ≤ z ∧ z + 9 ≤ 0xD7FF) ∨ (0xE000 ≤ z ∧ z + 9 ≤ 0xFFFD) ∨
      (0x10000 ≤ z ∧ z + 9 ≤ 0x10FFFF) := by
    decide
  have hrange := hzeros z hz
  simp only [Bool.and_eq_true, decide_eq_true_eq] at hc
  unfold IsXmlChar
  omega

/-- A forbidden character in a product or a version comes from the banner. -/
theorem not_isPlain_of_not_isXmlChar {c : Char} (h : ¬ IsXmlChar c) : ¬ IsPlain c := by
  rintro (hfixed | hdigit)
  · exact h ((by decide : XmlClean fixedTexts) c hfixed)
  · exact h (isXmlChar_of_isDecimalDigit hdigit)

/-- **The service of a banner** has forbidden characters exactly when the part of the banner has
that is shown. -/
theorem serviceClean_iff (port : UInt16) (banner : Text) :
    ServiceClean (serviceInfo port banner) ↔ XmlClean (shownText (trimmedBanner banner)) := by
  rw [← shownDetail_eq]
  have hname : XmlClean (serviceInfo port banner).name :=
    (by decide : ∀ s ∈ serviceNames, XmlClean s) _ (name_guess port (trimmedBanner banner))
  have hgetD : ∀ value : Option Text,
      XmlClean (value.getD []) ↔ ∀ s, value = some s → XmlClean s := by
    intro value
    cases value <;> simp
  have htexts : XmlClean (guessFromBanner port (trimmedBanner banner)).texts ↔
      XmlClean (shownDetail (trimmedBanner banner)) := by
    refine forall_congr' fun c => ?_
    -- a forbidden character in a product or a version comes from the part shown
    by_cases hc : IsXmlChar c
    · exact iff_of_true (fun _ => hc) (fun _ => hc)
    · rw [mem_texts_iff (not_isPlain_of_not_isXmlChar hc)]
  rw [← htexts]
  unfold Guess.texts textsOf
  rw [xmlClean_append, hgetD, hgetD]
  exact ⟨fun h => ⟨h.product, h.version⟩, fun h => ⟨hname, h.1, h.2⟩⟩

/-- **A banner of allowed characters gives a service of such.** -/
theorem serviceClean_of_banner (port : UInt16) {banner : Text} (h : XmlClean banner) :
    ServiceClean (serviceInfo port banner) := by
  rw [serviceClean_iff, ← shownDetail_eq]
  intro c hc
  exact h c ((List.rdropWhile_prefix _ _).subset (mem_of_mem_shownDetail hc).1)

/-- The texts shown that no banner decides are of XML characters. -/
structure OwnTextsClean (onlyOpen : Bool) (r : ScanReport) : Prop where
  scanner : XmlClean r.scanner
  version : XmlClean r.version
  args : ∀ s ∈ r.args, XmlClean s
  hostReason : ∀ h ∈ r.hosts, XmlClean h.reason
  hostname : ∀ h ∈ r.hosts, ∀ s, h.hostname = some s → XmlClean s
  portReason : ∀ h ∈ r.hosts, ∀ p ∈ keptPorts onlyOpen h, XmlClean p.reason

/-- **A document consists of XML characters** exactly when the scanner's own texts do and the part
shown of every banner does, read off its text. -/
theorem xml_chars_iff (fmt : Formats) (r : ScanReport) (onlyOpen : Bool) (hr : FromBanners r) :
    XmlClean (renderXml fmt r onlyOpen) ↔
      OwnTextsClean onlyOpen r ∧
      ∀ h ∈ r.hosts, ∀ p ∈ keptPorts onlyOpen h, ∀ banner,
        p.service = some (serviceInfo p.port banner) →
          XmlClean (shownText (trimmedBanner banner)) := by
  rw [xmlClean_renderXml]
  constructor
  · intro h
    refine ⟨⟨h.scanner, h.version, h.args, fun x hx => (h.hosts x hx).reason,
      fun x hx => (h.hosts x hx).hostname, fun x hx p hp => ((h.hosts x hx).ports p hp).reason⟩, ?_⟩
    intro x hx p hp banner hbanner
    rw [← serviceClean_iff p.port]
    exact ((h.hosts x hx).ports p hp).service _ hbanner
  · rintro ⟨hown, hbanners⟩
    refine ⟨hown.scanner, hown.version, hown.args, fun x hx =>
      ⟨hown.hostReason x hx, hown.hostname x hx, fun p hp =>
        ⟨hown.portReason x hx p hp, fun svc hsvc => ?_⟩⟩⟩
    obtain ⟨banner, rfl⟩ := hr x hx p (List.mem_filter.1 hp).1 svc hsvc
    rw [serviceClean_iff]
    exact hbanners x hx p hp banner hsvc

/-- The document of a server that calls itself OpenSSH. -/
theorem xml_chars_iff_openssh :
    FromBanners (sampleReport 22 "SSH-2.0-OpenSSH_9.6".toList) ∧
      XmlClean (renderXml epochFormats (sampleReport 22 "SSH-2.0-OpenSSH_9.6".toList) true) := by
  refine ⟨fromBanners_sampleReport _ _,
    (xml_chars_iff _ _ _ (fromBanners_sampleReport _ _)).2 ⟨?_, ?_⟩⟩
  · refine ⟨by decide, by decide, by decide, ?_, ?_, ?_⟩
    · exact List.forall_mem_singleton.2 (by decide)
    · exact List.forall_mem_singleton.2 fun s hs => nomatch hs
    · exact List.forall_mem_singleton.2 (List.forall_mem_singleton.2 (by decide))
  · intro h hh p hp banner hbanner
    obtain rfl := List.mem_singleton.1 hh
    obtain rfl := List.mem_singleton.1 hp
    rw [← serviceClean_iff 22, ← Option.some.inj hbanner, serviceClean_iff]
    decide +kernel

/-- A server that calls itself a control character makes the document ill-formed. -/
theorem control_char_in_xml :
    ¬ ∀ (fmt : Formats) (r : ScanReport) (onlyOpen : Bool), FromBanners r →
      XmlClean (renderXml fmt r onlyOpen) := by
  intro h
  have hclean := h epochFormats (sampleReport 22 "SSH-2.0-\x01".toList) false
    (fromBanners_sampleReport 22 _)
  have hports := ((xmlClean_renderXml _ _ _).1 hclean).hosts _ List.mem_cons_self |>.ports
  have hservice := (hports _ List.mem_cons_self).service _ rfl
  have hproduct := hservice.product ['\x01'] (by decide +kernel)
  exact absurd hproduct (by decide)

end Rnmap
