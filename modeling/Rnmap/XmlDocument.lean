/-
**The XML report as a document.**

The XML report writes the elements of a document one after the other.  The document has the texts
of the report as attribute values; a reader of the report's text gets back the document, whatever
reserved characters the texts contain, and from it what the report says of each host and port.

Main definitions:

* `Rnmap.reportElement` — the document of a report;
* `Rnmap.readReport` — the reader: it accepts XML characters only;
* `Rnmap.readHosts`, `Rnmap.readRunstats` — what a document says of the hosts, and counts;
* `Rnmap.XmlPlain` — a report whose texts are made of XML characters other than tabs and line ends.

Main results:

* `Rnmap.escapeXml_eq` — replacing one character after the other escapes in one pass;
* `Rnmap.escapeXml_safe` — **the escaper is injective and safe**;
* `Rnmap.writes_renderXml` — the report's text writes the document;
* `Rnmap.readHosts_reportElement` — the document says what the report says;
* `Rnmap.xml_round_trip` — **the XML report decodes back to the report**.
-/

import Rnmap.XmlOutput
import Rnmap.ReportFacts
import Rnmap.Xml
import Rnmap.AddrParse

set_option relaxedAutoImplicit false
set_option autoImplicit false

namespace Rnmap

open Text Xml

/-! ### Escaping -/

theorem replace_append (c : Char) (by_ s t : Text) :
    replace c by_ (s ++ t) = replace c by_ s ++ replace c by_ t :=
  List.flatMap_append

theorem escapeXml_append (s t : Text) : escapeXml (s ++ t) = escapeXml s ++ escapeXml t := by
  simp only [escapeXml, replace_append]

theorem replace_singleton (c : Char) (by_ : Text) (d : Char) :
    replace c by_ [d] = if d = c then by_ else [d] := by
  rw [replace, List.flatMap_singleton]

theorem escapeXml_singleton (c : Char) : escapeXml [c] = escapeChar c := by
  unfold escapeXml escapeChar
  rw [replace_singleton]
  split_ifs with hamp hlt hgt hquot hapos
  · rfl
  · subst hlt
    rfl
  · subst hgt
    rfl
  · subst hquot
    rfl
  · subst hapos
    rfl
  · simp only [replace_singleton, if_neg hlt, if_neg hgt, if_neg hquot, if_neg hapos]

/-- **Replacing the reserved characters one after the other escapes a text in one pass**: an
ampersand an earlier replacement has written is not replaced again, as ampersands come first. -/
theorem escapeXml_eq (s : Text) : escapeXml s = escape s := by
  induction s with
  | nil => rfl
  | cons c s ih =>
      rw [← List.singleton_append, escapeXml_append, escapeXml_singleton, ih]
      rfl

/-- **The escaper is injective and safe**: what it writes holds none of the other reserved
characters, every ampersand in it starts a predefined entity, and one pass over the entities gives
the text back. -/
theorem escapeXml_safe :
    Function.Injective escapeXml ∧
      ∀ s, (∀ c ∈ "<>\"'".toList, c ∉ escapeXml s) ∧
        (∀ pre post, escapeXml s = pre ++ '&' :: post → ∃ e ∈ entities, e <+: '&' :: post) ∧
        unescape (escapeXml s) = s := by
  have hfun : escapeXml = escape := funext escapeXml_eq
  rw [hfun]
  exact ⟨escape_injective, fun s => ⟨fun c hc => reserved_notMem_escape hc s,
    amp_escape s, unescape_escape s⟩⟩

/-! ### The document -/

def serviceElement (svc : ServiceInfo) : Element where
  name := "service".toList
  attrs := ("name".toList, svc.name) :: (svc.product.toList.map fun pr => ("product".toList, pr)) ++
    svc.version.toList.map fun v => ("version".toList, v)
  children := []

def portElement (p : PortResult) : Element where
  name := "port".toList
  attrs := [("protocol".toList, p.protocol.display), ("portid".toList, decimal p.port.toNat)]
  children :=
    ⟨"state".toList, [("state".toList, p.state.display), ("reason".toList, p.reason)], []⟩ ::
      p.service.toList.map serviceElement

def hostnamesElement (name : Text) : Element where
  name := "hostnames".toList
  attrs := []
  children := [⟨"hostname".toList, [("name".toList, name), ("type".toList, "user".toList)], []⟩]

/-- The `addrtype` of an address. -/
def addrType (ip : IpAddr) : Text := if ip.isIpv4 then "ipv4".toList else "ipv6".toList

def hostElement (onlyOpen : Bool) (h : HostResult) : Element where
  name := "host".toList
  attrs := []
  children :=
    [⟨"status".toList, [("state".toList, h.state.word), ("reason".toList, h.reason)], []⟩] ++
    [⟨"address".toList,
      [("addr".toList, h.address.display), ("addrtype".toList, addrType h.address)], []⟩] ++
    h.hostname.toList.map hostnamesElement ++
    [⟨"ports".toList, [],
      (h.ports.filter fun p => !onlyOpen || p.state = .open).map portElement⟩]

def runstatsElement (fmt : Formats) (r : ScanReport) : Element where
  name := "runstats".toList
  attrs := []
  children :=
    [⟨"finished".toList, [("time".toList, signedDecimal r.endedAt.timestamp),
      ("elapsed".toList, fmt.secs 3 r.elapsed)], []⟩,
    ⟨"hosts".toList, [("up".toList, decimal r.upCount), ("total".toList, decimal r.hostCount)], []⟩]

/-- The document of a report. -/
def reportElement (fmt : Formats) (r : ScanReport) (onlyOpen : Bool) : Element where
  name := "rnmaprun".toList
  attrs := [("scanner".toList, r.scanner), ("version".toList, r.version),
    ("args".toList, [' '].intercalate r.args),
    ("start".toList, signedDecimal r.startedAt.timestamp)]
  children := r.hosts.map (hostElement onlyOpen) ++ [runstatsElement fmt r]

/-! ### Texts that need no escaping -/

/-- The characters of numbers, addresses and the fixed words. -/
def isInert (c : Char) : Bool := c.isAlphanum || c == '.' || c == ':' || c == '-'

/-- A text of such characters. -/
def Inert (s : Text) : Prop := ∀ c ∈ s, isInert c = true

instance (s : Text) : Decidable (Inert s) := List.decidableBAll (fun c => isInert c = true) s

@[simp] theorem inert_append {s t : Text} : Inert (s ++ t) ↔ Inert s ∧ Inert t :=
  List.forall_mem_append

@[simp] theorem inert_cons {c : Char} {s : Text} :
    Inert (c :: s) ↔ isInert c = true ∧ Inert s :=
  List.forall_mem_cons

/-- Such a text is written as it is. -/
theorem Inert.escape_eq {s : Text} (h : Inert s) : escape s = s := by
  refine escape_eq_self fun c hc hmem => ?_
  have hreserved : ∀ d ∈ "&<>\"'".toList, !isInert d := List.all_eq_true.1 (by decide)
  have hinert := hreserved c hmem
  rw [h c hc] at hinert
  cases hinert

theorem Inert.plain {s : Text} (h : Inert s) : Plain s := by
  intro c hc
  refine if_neg fun hspace => ?_
  have hspaces : ∀ d ∈ [' ', '\t', '\n', '\r'], !isInert d := List.all_eq_true.1 (by decide)
  have hmem : c ∈ [' ', '\t', '\n', '\r'] := by
    simpa [isSpace, or_assoc] using hspace
  have hinert := hspaces c hmem
  rw [h c hc] at hinert
  cases hinert

theorem inert_toDigits {b : ℕ} (hb : 1 < b) (hb' : b ≤ 16) (n : ℕ) : Inert (Nat.toDigits b n) := by
  intro c hc
  obtain ⟨d, hd, rfl⟩ := exists_digitChar_of_mem hb hc
  exact (by decide : ∀ d < 16, isInert (Nat.digitChar d) = true) d (hd.trans_le hb')

theorem inert_decimal (n : ℕ) : Inert (decimal n) := inert_toDigits (by decide) (by decide) n

theorem inert_signedDecimal (n : ℤ) : Inert (signedDecimal n) := by
  unfold signedDecimal
  split_ifs
  · exact inert_cons.2 ⟨by decide, inert_decimal _⟩
  · exact inert_decimal _

theorem inert_ipv4 (ip : Ipv4Addr) : Inert ip.display := by
  have hdot : isInert '.' = true := by decide
  unfold Ipv4Addr.display
  simp only [inert_append, inert_cons, inert_decimal, hdot, and_self]

theorem inert_fmtSubslice (segs : List UInt16) : Inert (fmtSubslice segs) := by
  have hhex : ∀ n, Inert (hex n) := inert_toDigits (by decide) (by decide)
  cases segs with
  | nil => exact fun c hc => nomatch hc
  | cons seg segs =>
      rw [fmtSubslice_cons, inert_append]
      refine ⟨hhex _, fun c hc => ?_⟩
      obtain ⟨seg, -, hc⟩ := List.mem_flatMap.1 hc
      exact inert_cons.2 ⟨by decide, hhex seg.toNat⟩ c hc

theorem inert_address (ip : IpAddr) : Inert ip.display := by
  cases ip with
  | v4 ip => exact inert_ipv4 ip
  | v6 ip =>
      rw [IpAddr.display, Ipv6Addr.display]
      cases ip.toIpv4Mapped with
      | some v4 => exact inert_append.2 ⟨by decide, inert_ipv4 v4⟩
      | none =>
          dsimp only
          split_ifs
          · simp only [inert_append]
            exact ⟨⟨inert_fmtSubslice _, by decide⟩, inert_fmtSubslice _⟩
          · exact inert_fmtSubslice _

theorem inert_secs (fmt : Formats) (n : ℕ) (d : Duration) : Inert (fmt.secs n d) := by
  intro c hc
  rcases fmt.numeral_secs n d c hc with hdigit | rfl
  · simp [isInert, Char.isAlphanum, hdigit]
  · decide

theorem inert_protocol (p : Protocol) : Inert p.display := by
  cases p <;> decide

theorem inert_portState (st : PortState) : Inert st.display := by
  cases st <;> decide

theorem inert_hostState (st : HostState) : Inert st.word := by
  cases st <;> decide

theorem inert_addrType (ip : IpAddr) : Inert (addrType ip) := by
  unfold addrType
  split_ifs <;> decide

/-! ### The text writes the document -/

/-- A tag on a line of its own. -/
theorem writes_line {s t : Text} (name : Text) (attrs : Attrs) (hs : Blank s)
    (ht : s ++ (Tag.empty name attrs).text = t) : Writes (line t) [⟨name, attrs, []⟩] := by
  subst ht
  have h := (Writes.empty name attrs hs).append (.blank blank_lf)
  rwa [List.append_nil] at h

/-- An element between two lines of its own. -/
theorem writes_block {s t u v : Text} (name : Text) (attrs : Attrs) {children : List Element}
    (hs : Blank s) (h : Writes t children) (hu : s ++ (Tag.opening name attrs).text = u)
    (hv : s ++ (Tag.closing name).text = v) :
    Writes (line u ++ t ++ line v) [⟨name, attrs, children⟩] := by
  subst hu hv
  have hinner : Writes (['\n'] ++ t) children := (Writes.blank blank_lf).append h
  have hnode := (Writes.node name attrs hs hs hinner).append (.blank blank_lf)
  rw [List.append_nil] at hnode
  simpa only [line, List.append_assoc] using hnode

/-- Elements one after the other. -/
theorem writes_map {α : Type} {xs : List α} {f : α → Text} {g : α → Element}
    (h : ∀ x ∈ xs, Writes (f x) [g x]) : Writes (xs.flatMap f) (xs.map g) := by
  rw [← List.flatMap_pure_eq_map]
  exact Writes.flatMap h

/-- The attributes of a service as they are written. -/
theorem serviceAttrs_eq (svc : ServiceInfo) :
    serviceAttrs svc = (serviceElement svc).attrs.flatMap attrText := by
  unfold serviceAttrs serviceElement
  cases svc.product with
  | none =>
      cases svc.version with
      | none => simp [attrText, escapeXml_eq]
      | some v => simp [attrText, escapeXml_eq]
  | some pr =>
      cases svc.version with
      | none => simp [attrText, escapeXml_eq]
      | some v => simp [attrText, escapeXml_eq]

/-- The line of a service. -/
def serviceLine (svc : ServiceInfo) : Text :=
  line ("        <service".toList ++ serviceAttrs svc ++ "/>".toList)

theorem writes_service (svc : ServiceInfo) : Writes (serviceLine svc) [serviceElement svc] := by
  refine writes_line "service".toList (serviceElement svc).attrs
    (by decide : Blank "        ".toList) ?_
  rw [serviceAttrs_eq, Tag.text]
  generalize (serviceElement svc).attrs.flatMap attrText = t
  simp

theorem xmlPort_eq (p : PortResult) :
    xmlPort p =
      line ("      ".toList ++ (Tag.opening "port".toList (portElement p).attrs).text) ++
      (line ("        ".toList ++ (Tag.empty "state".toList
        [("state".toList, p.state.display), ("reason".toList, p.reason)]).text) ++
        p.service.toList.flatMap serviceLine) ++
      line ("      ".toList ++ (Tag.closing "port".toList).text) := by
  unfold xmlPort
  cases p.service with
  | none =>
      simp [line, portElement, Tag.text, attrText, escapeXml_eq,
        (inert_protocol p.protocol).escape_eq, (inert_decimal p.port.toNat).escape_eq,
        (inert_portState p.state).escape_eq]
  | some svc =>
      simp [line, serviceLine, portElement, Tag.text, attrText, escapeXml_eq,
        (inert_protocol p.protocol).escape_eq, (inert_decimal p.port.toNat).escape_eq,
        (inert_portState p.state).escape_eq]

theorem writes_port (p : PortResult) : Writes (xmlPort p) [portElement p] := by
  have hservice : Writes (p.service.toList.flatMap serviceLine)
      (p.service.toList.map serviceElement) := writes_map fun svc _ => writes_service svc
  rw [xmlPort_eq]
  refine writes_block _ _ (by decide) ?_ rfl rfl
  exact (writes_line _ _ (by decide : Blank "        ".toList) rfl).append hservice

/-- The lines of a hostname. -/
def hostnameLines (name : Text) : Text :=
  line ("    ".toList ++ (Tag.opening "hostnames".toList []).text) ++
  line ("      ".toList ++ (Tag.empty "hostname".toList
    [("name".toList, name), ("type".toList, "user".toList)]).text) ++
  line ("    ".toList ++ (Tag.closing "hostnames".toList).text)

theorem writes_hostname (name : Text) : Writes (hostnameLines name) [hostnamesElement name] :=
  writes_block _ _ (by decide) (writes_line _ _ (by decide) rfl) rfl rfl

theorem xmlHost_eq (onlyOpen : Bool) (h : HostResult) :
    xmlHost onlyOpen h =
      line ("  ".toList ++ (Tag.opening "host".toList []).text) ++
      (line ("    ".toList ++ (Tag.empty "status".toList
        [("state".toList, h.state.word), ("reason".toList, h.reason)]).text) ++
        line ("    ".toList ++ (Tag.empty "address".toList
          [("addr".toList, h.address.display), ("addrtype".toList, addrType h.address)]).text) ++
        h.hostname.toList.flatMap hostnameLines ++
        (line ("    ".toList ++ (Tag.opening "ports".toList []).text) ++
          (keptPorts onlyOpen h).flatMap xmlPort ++
          line ("    ".toList ++ (Tag.closing "ports".toList).text))) ++
      line ("  ".toList ++ (Tag.closing "host".toList).text) := by
  have hstatus : "    <status state=\"".toList ++ h.state.word ++ "\" reason=\"".toList ++
      escapeXml h.reason ++ "\"/>".toList = "    ".toList ++ (Tag.empty "status".toList
        [("state".toList, h.state.word), ("reason".toList, h.reason)]).text := by
    simp [Tag.text, attrText, escapeXml_eq, (inert_hostState h.state).escape_eq]
  have haddress : "    <address addr=\"".toList ++ h.address.display ++ "\" addrtype=\"".toList ++
      addrType h.address ++ "\"/>".toList = "    ".toList ++ (Tag.empty "address".toList
        [("addr".toList, h.address.display), ("addrtype".toList, addrType h.address)]).text := by
    simp [Tag.text, attrText, (inert_address h.address).escape_eq,
      (inert_addrType h.address).escape_eq]
  have hhostname : ∀ name : Text, "      <hostname name=\"".toList ++ escapeXml name ++
      "\" type=\"user\"/>".toList = "      ".toList ++ (Tag.empty "hostname".toList
        [("name".toList, name), ("type".toList, "user".toList)]).text := by
    intro name
    simp [Tag.text, attrText, escapeXml_eq, escape, escapeChar]
  unfold xmlHost
  change line _ ++ line _ ++ line ("    <address addr=\"".toList ++ h.address.display ++
    "\" addrtype=\"".toList ++ addrType h.address ++ "\"/>".toList) ++ _ ++ _ ++ _ ++ _ ++ _ = _
  rw [hstatus, haddress]
  cases h.hostname with
  | none =>
      simp only [List.append_assoc, Option.toList_none, List.flatMap_nil, List.nil_append]
      rfl
  | some name =>
      simp only [hhostname, List.append_assoc, Option.toList_some, List.flatMap_singleton,
        hostnameLines]
      rfl

theorem writes_host (onlyOpen : Bool) (h : HostResult) :
    Writes (xmlHost onlyOpen h) [hostElement onlyOpen h] := by
  have hports : Writes ((keptPorts onlyOpen h).flatMap xmlPort)
      ((h.ports.filter fun p => !onlyOpen || p.state = .open).map portElement) := by
    rw [keptPorts_eq]
    exact writes_map fun p _ => writes_port p
  have hhostname : Writes (h.hostname.toList.flatMap hostnameLines)
      (h.hostname.toList.map hostnamesElement) := writes_map fun name _ => writes_hostname name
  have hblank : Blank "    ".toList := by decide
  rw [xmlHost_eq]
  refine writes_block _ _ (by decide) ?_ rfl rfl
  exact (((writes_line _ _ hblank rfl).append (writes_line _ _ hblank rfl)).append
    hhostname).append (writes_block _ _ hblank hports rfl rfl)

/-- The line of the statistics. -/
def runstatsLine (fmt : Formats) (r : ScanReport) : Text :=
  line ("  <runstats><finished time=\"".toList ++ signedDecimal r.endedAt.timestamp ++
    "\" elapsed=\"".toList ++ fmt.secs 3 r.elapsed ++ "\"/><hosts up=\"".toList ++
    decimal r.upCount ++ "\" total=\"".toList ++ decimal r.hostCount ++
    "\"/></runstats>".toList)

theorem writes_runstats (fmt : Formats) (r : ScanReport) :
    Writes (runstatsLine fmt r) [runstatsElement fmt r] := by
  have hnil : Blank [] := by decide
  have hfinished := Writes.empty "finished".toList
    [("time".toList, signedDecimal r.endedAt.timestamp), ("elapsed".toList, fmt.secs 3 r.elapsed)]
    hnil
  have hhosts := Writes.empty "hosts".toList
    [("up".toList, decimal r.upCount), ("total".toList, decimal r.hostCount)] hnil
  have hnode := Writes.node "runstats".toList [] (by decide : Blank "  ".toList) hnil
    (hfinished.append hhosts)
  have h := hnode.append (.blank blank_lf)
  rw [List.append_nil] at h
  convert h using 1
  · rw [runstatsLine, line]
    congr 1
    simp [Tag.text, attrText, (inert_signedDecimal _).escape_eq, (inert_secs fmt _ _).escape_eq,
      (inert_decimal _).escape_eq]
  · rfl

/-- The declaration. -/
def declaration : Text := "<?xml version=\"1.0\" encoding=\"UTF-8\"?>".toList

/-- **The report's text writes the document**, behind the declaration. -/
theorem writes_renderXml (fmt : Formats) (r : ScanReport) (onlyOpen : Bool) :
    ∃ body, renderXml fmt r onlyOpen = declaration ++ body ∧
      Writes body [reportElement fmt r onlyOpen] := by
  have hopening : "<rnmaprun scanner=\"".toList ++ escapeXml r.scanner ++ "\" version=\"".toList ++
      escapeXml r.version ++ "\" args=\"".toList ++ escapeXml ([' '].intercalate r.args) ++
      "\" start=\"".toList ++ signedDecimal r.startedAt.timestamp ++ "\">".toList =
      [] ++ (Tag.opening "rnmaprun".toList (reportElement fmt r onlyOpen).attrs).text := by
    simp [reportElement, Tag.text, attrText, escapeXml_eq, (inert_signedDecimal _).escape_eq]
  have hhosts : Writes (r.hosts.flatMap (xmlHost onlyOpen))
      (r.hosts.map (hostElement onlyOpen)) := writes_map fun h _ => writes_host onlyOpen h
  have hroot := writes_block "rnmaprun".toList (reportElement fmt r onlyOpen).attrs
    (by decide : Blank []) (hhosts.append (writes_runstats fmt r)) rfl rfl
  refine ⟨_, ?_, (Writes.blank blank_lf).append hroot⟩
  unfold renderXml runstatsLine
  rw [hopening]
  simp only [line, List.append_assoc]
  rfl

/-! ### The document can be read -/

/-- A text of XML characters other than tabs and line ends. -/
def XmlPlain (s : Text) : Prop := XmlClean s ∧ Plain s

instance (s : Text) : Decidable (Plain s) :=
  List.decidableBAll (fun c => normalise c = c) s

instance (s : Text) : Decidable (XmlPlain s) :=
  inferInstanceAs (Decidable (XmlClean s ∧ Plain s))

/-- The texts of a service that the report shows. -/
def serviceTexts (svc : ServiceInfo) : List Text :=
  svc.name :: (svc.product.toList ++ svc.version.toList)

/-- The texts of a port that the report shows. -/
def portTexts (p : PortResult) : List Text :=
  p.reason :: p.service.toList.flatMap serviceTexts

/-- The texts of a host that the report shows. -/
def hostTexts (onlyOpen : Bool) (h : HostResult) : List Text :=
  h.reason :: (h.hostname.toList ++
    (h.ports.filter fun p => !onlyOpen || p.state = .open).flatMap portTexts)

/-- The texts of a report that it shows. -/
def reportTexts (onlyOpen : Bool) (r : ScanReport) : List Text :=
  r.scanner :: r.version :: (r.args ++ r.hosts.flatMap (hostTexts onlyOpen))

/-- An element without attributes. -/
theorem readable_bare {name : Text} {children : List Element} (hname : IsName name)
    (h : ∀ e ∈ children, e.Readable) : Element.Readable ⟨name, [], children⟩ :=
  .mk hname ⟨fun _ ha => absurd ha List.not_mem_nil, List.nodup_nil,
    fun _ ha => absurd ha List.not_mem_nil⟩ h

/-- An element with two attributes. -/
theorem readable_pair {name k k' v v' : Text} {children : List Element}
    (h : IsName name ∧ IsName k ∧ IsName k' ∧ k ≠ k') (hv : Plain v) (hv' : Plain v')
    (hchildren : ∀ e ∈ children, e.Readable) :
    Element.Readable ⟨name, [(k, v), (k', v')], children⟩ := by
  obtain ⟨hname, hk, hk', hne⟩ := h
  refine .mk hname ⟨?_, ?_, ?_⟩ hchildren
  · simpa using ⟨hk, hk'⟩
  · simpa using hne
  · simpa using ⟨hv, hv'⟩

theorem readable_service {svc : ServiceInfo} (h : ∀ s ∈ serviceTexts svc, Plain s) :
    (serviceElement svc).Readable := by
  have hsub : ((serviceElement svc).attrs.map Prod.fst).Sublist
      ["name".toList, "product".toList, "version".toList] := by
    unfold serviceElement
    cases svc.product with
    | none =>
        cases svc.version with
        | none => exact (List.nil_sublist _).cons_cons _
        | some v => exact ((List.Sublist.refl _).cons _).cons_cons _
    | some pr =>
        cases svc.version with
        | none => exact ((List.nil_sublist _).cons_cons _).cons_cons _
        | some v => exact List.Sublist.refl _
  refine .mk (by decide) ⟨fun a ha => ?_, hsub.nodup (by decide), fun a ha => h a.2 ?_⟩
    fun _ he => absurd he List.not_mem_nil
  · exact (by decide : ∀ n ∈ ["name".toList, "product".toList, "version".toList], IsName n) a.1
      (hsub.subset (List.mem_map_of_mem ha))
  · simp only [List.mem_append, List.mem_cons, List.mem_map] at ha
    rcases ha with (rfl | ⟨pr, hpr, rfl⟩) | ⟨v, hv, rfl⟩
    · exact List.mem_cons_self
    · exact List.mem_cons_of_mem _ (List.mem_append_left _ hpr)
    · exact List.mem_cons_of_mem _ (List.mem_append_right _ hv)

theorem readable_port {p : PortResult} (h : ∀ s ∈ portTexts p, Plain s) :
    (portElement p).Readable := by
  obtain ⟨hreason, hservice⟩ := List.forall_mem_cons.1 h
  have hstate := readable_pair (by decide : IsName "state".toList ∧ IsName "state".toList ∧
    IsName "reason".toList ∧ _) (inert_portState p.state).plain hreason
    fun _ he => absurd he List.not_mem_nil
  refine readable_pair (by decide) (inert_protocol p.protocol).plain
    (inert_decimal p.port.toNat).plain (List.forall_mem_cons.2 ⟨hstate, ?_⟩)
  intro e he
  obtain ⟨svc, hsvc, rfl⟩ := List.mem_map.1 he
  exact readable_service fun s hs => hservice s (List.mem_flatMap.2 ⟨svc, hsvc, hs⟩)

theorem readable_hostname {name : Text} (h : Plain name) : (hostnamesElement name).Readable := by
  have hname := readable_pair (by decide : IsName "hostname".toList ∧ IsName "name".toList ∧
    IsName "type".toList ∧ _) h (by decide : Plain "user".toList)
    fun _ he => absurd he List.not_mem_nil
  exact readable_bare (by decide) (List.forall_mem_singleton.2 hname)

theorem readable_host {onlyOpen : Bool} {h : HostResult}
    (hplain : ∀ s ∈ hostTexts onlyOpen h, Plain s) : (hostElement onlyOpen h).Readable := by
  obtain ⟨hreason, hrest⟩ := List.forall_mem_cons.1 hplain
  obtain ⟨hhostname, hports⟩ := List.forall_mem_append.1 hrest
  have hstatus := readable_pair (by decide : IsName "status".toList ∧ IsName "state".toList ∧
    IsName "reason".toList ∧ _) (inert_hostState h.state).plain hreason
    fun _ he => absurd he List.not_mem_nil
  have haddress := readable_pair (by decide : IsName "address".toList ∧ IsName "addr".toList ∧
    IsName "addrtype".toList ∧ _) (inert_address h.address).plain (inert_addrType h.address).plain
    fun _ he => absurd he List.not_mem_nil
  refine readable_bare (by decide) (List.forall_mem_append.2 ⟨List.forall_mem_append.2
    ⟨List.forall_mem_append.2 ⟨List.forall_mem_singleton.2 hstatus,
      List.forall_mem_singleton.2 haddress⟩, ?_⟩, List.forall_mem_singleton.2 ?_⟩)
  · intro e he
    obtain ⟨name, hname, rfl⟩ := List.mem_map.1 he
    exact readable_hostname (hhostname name hname)
  · refine readable_bare (by decide) fun e he => ?_
    obtain ⟨p, hp, rfl⟩ := List.mem_map.1 he
    exact readable_port fun s hs => hports s (List.mem_flatMap.2 ⟨p, hp, hs⟩)

theorem plain_intercalate {ss : List Text} (h : ∀ s ∈ ss, Plain s) :
    Plain ([' '].intercalate ss) := by
  have hblank : Plain [' '] := by decide
  induction ss with
  | nil => exact fun _ hc => absurd hc List.not_mem_nil
  | cons s ss ih =>
      obtain ⟨hs, hss⟩ := List.forall_mem_cons.1 h
      cases ss with
      | nil =>
          rw [List.intercalate_singleton]
          exact hs
      | cons t ss =>
          rw [List.intercalate_cons_cons]
          exact List.forall_mem_append.2 ⟨List.forall_mem_append.2 ⟨hs, hblank⟩, ih hss⟩

theorem readable_runstats (fmt : Formats) (r : ScanReport) : (runstatsElement fmt r).Readable := by
  have hfinished := readable_pair (by decide : IsName "finished".toList ∧ IsName "time".toList ∧
    IsName "elapsed".toList ∧ _) (inert_signedDecimal r.endedAt.timestamp).plain
    (inert_secs fmt 3 r.elapsed).plain fun _ he => absurd he List.not_mem_nil
  have hhosts := readable_pair (by decide : IsName "hosts".toList ∧ IsName "up".toList ∧
    IsName "total".toList ∧ _) (inert_decimal r.upCount).plain (inert_decimal r.hostCount).plain
    fun _ he => absurd he List.not_mem_nil
  exact readable_bare (by decide)
    (List.forall_mem_cons.2 ⟨hfinished, List.forall_mem_singleton.2 hhosts⟩)

/-- The document of plain texts can be read. -/
theorem readable_reportElement (fmt : Formats) {r : ScanReport} {onlyOpen : Bool}
    (h : ∀ s ∈ reportTexts onlyOpen r, Plain s) : (reportElement fmt r onlyOpen).Readable := by
  obtain ⟨hscanner, h⟩ := List.forall_mem_cons.1 h
  obtain ⟨hversion, h⟩ := List.forall_mem_cons.1 h
  obtain ⟨hargs, hhosts⟩ := List.forall_mem_append.1 h
  refine .mk (by decide) ⟨?_, ?_, ?_⟩ (List.forall_mem_append.2 ⟨?_, ?_⟩)
  · intro a ha
    exact (by decide : ∀ n ∈ ["scanner".toList, "version".toList, "args".toList, "start".toList],
      IsName n) a.1 (List.mem_map_of_mem ha)
  · exact (by decide :
      ["scanner".toList, "version".toList, "args".toList, "start".toList].Nodup)
  · have hstart := (inert_signedDecimal r.startedAt.timestamp).plain
    simpa using ⟨hscanner, hversion, plain_intercalate hargs, hstart⟩
  · intro e he
    obtain ⟨x, hx, rfl⟩ := List.mem_map.1 he
    exact readable_host fun s hs => hhosts s (List.mem_flatMap.2 ⟨x, hx, hs⟩)
  · exact List.forall_mem_singleton.2 (readable_runstats fmt r)

/-! ### Reading a document -/

/-- The reader of a report's text: it accepts XML characters only. -/
def readReport (s : Text) : Option Element := if XmlClean s then Xml.read s else none

/-- A port number. -/
def readPortNumber (s : Text) : Option UInt16 :=
  match fromStr 65535 s with
  | .ok n => some (UInt16.ofNat n)
  | .error _ => none

def readService (e : Element) : Option ServiceFacts :=
  (e.attr "name".toList).map fun name => ⟨name, e.attr "product".toList, e.attr "version".toList⟩

def readPort (e : Element) : Option PortFacts := do
  let protocol ← (e.attr "protocol".toList).bind readProtocol
  let port ← (e.attr "portid".toList).bind readPortNumber
  let status ← (e.named "state".toList).head?
  let state ← (status.attr "state".toList).bind readPortState
  let reason ← status.attr "reason".toList
  let services ← (e.named "service".toList).mapM readService
  some ⟨protocol, port, state, reason, services.head?⟩

def readHost (e : Element) : Option HostFacts := do
  let status ← (e.named "status".toList).head?
  let state ← (status.attr "state".toList).bind readHostState
  let reason ← status.attr "reason".toList
  let addr ← (e.named "address".toList).head?
  let address ← (addr.attr "addr".toList).bind IpAddr.fromStr
  let names ← ((e.named "hostnames".toList).flatMap fun x => x.named "hostname".toList).mapM
    fun x => x.attr "name".toList
  let ports ← ((e.named "ports".toList).flatMap fun x => x.named "port".toList).mapM readPort
  some ⟨state, reason, address, names.head?, ports⟩

/-- What a document says of the hosts. -/
def readHosts (e : Element) : Option (List HostFacts) :=
  if e.name = "rnmaprun".toList then (e.named "host".toList).mapM readHost else none

/-- What a document counts: the hosts that are up, and the hosts. -/
def readRunstats (e : Element) : Option (ℕ × ℕ) := do
  let stats ← (e.named "runstats".toList).head?
  let hosts ← (stats.named "hosts".toList).head?
  let up ← (hosts.attr "up".toList).bind readCount
  let total ← (hosts.attr "total".toList).bind readCount
  some (up, total)

/-! ### The document says what the report says -/

theorem readPortNumber_decimal (port : UInt16) :
    readPortNumber (decimal port.toNat) = some port := by
  have hlt := port.toNat_lt
  have hnumeral : IsNumeral (decimal port.toNat) port.toNat :=
    ⟨decimal port.toNat, .inl rfl, Nat.toDigits_ne_nil, fun _ hc => isDigit_of_mem_decimal hc,
      Nat.ofDigitChars_toDigits (by decide) (by decide)⟩
  rw [readPortNumber, fromStr_eq_ok_iff.2 ⟨hnumeral, by omega⟩]
  simp only [UInt16.ofNat_toNat]

theorem readService_serviceElement (svc : ServiceInfo) :
    readService (serviceElement svc) = some svc.facts := by
  obtain ⟨name, product, version, banner⟩ := svc
  cases product with
  | none =>
      cases version with
      | none => rfl
      | some v => rfl
  | some pr =>
      cases version with
      | none => rfl
      | some v => rfl

theorem named_service (p : PortResult) :
    (portElement p).named "service".toList = p.service.toList.map serviceElement := by
  unfold portElement
  cases p.service with
  | none => simp [Element.named]
  | some svc => simp [Element.named, serviceElement]

theorem named_state (p : PortResult) :
    (portElement p).named "state".toList =
      [⟨"state".toList, [("state".toList, p.state.display), ("reason".toList, p.reason)], []⟩] := by
  unfold portElement
  cases p.service with
  | none => simp [Element.named]
  | some svc => simp [Element.named, serviceElement]

/-- **The element of a port says what the report says.** -/
theorem readPort_portElement (p : PortResult) : readPort (portElement p) = some p.facts := by
  have hprotocol : (portElement p).attr "protocol".toList = some p.protocol.display := rfl
  have hport : (portElement p).attr "portid".toList = some (decimal p.port.toNat) := rfl
  have hstate : Element.attr ⟨"state".toList, [("state".toList, p.state.display),
      ("reason".toList, p.reason)], []⟩ "state".toList = some p.state.display := rfl
  have hreason : Element.attr ⟨"state".toList, [("state".toList, p.state.display),
      ("reason".toList, p.reason)], []⟩ "reason".toList = some p.reason := rfl
  rw [readPort, hprotocol, hport, named_state, named_service,
    mapM_map fun svc _ => readService_serviceElement svc]
  simp only [Option.bind_eq_bind, Option.bind_some, List.head?_cons, readProtocol_display,
    readPortNumber_decimal, hstate, hreason, readPortState_display]
  cases hsvc : p.service with
  | none => simp [PortResult.facts, hsvc]
  | some svc => simp [PortResult.facts, hsvc]

theorem named_host_children (onlyOpen : Bool) (h : HostResult) :
    (hostElement onlyOpen h).named "status".toList =
        [⟨"status".toList, [("state".toList, h.state.word), ("reason".toList, h.reason)], []⟩] ∧
      (hostElement onlyOpen h).named "address".toList = [⟨"address".toList,
        [("addr".toList, h.address.display), ("addrtype".toList, addrType h.address)], []⟩] ∧
      (hostElement onlyOpen h).named "hostnames".toList =
        h.hostname.toList.map hostnamesElement ∧
      (hostElement onlyOpen h).named "ports".toList = [⟨"ports".toList, [],
        (h.ports.filter fun p => !onlyOpen || p.state = .open).map portElement⟩] := by
  unfold hostElement
  cases h.hostname with
  | none => simp [Element.named]
  | some name => simp [Element.named, hostnamesElement]

/-- **The element of a host says what the report says.** -/
theorem readHost_hostElement (onlyOpen : Bool) (h : HostResult) :
    readHost (hostElement onlyOpen h) =
      some (h.facts (h.ports.filter fun p => !onlyOpen || p.state = .open)) := by
  obtain ⟨hstatus, haddress, hhostnames, hports⟩ := named_host_children onlyOpen h
  have hstate : Element.attr ⟨"status".toList, [("state".toList, h.state.word),
      ("reason".toList, h.reason)], []⟩ "state".toList = some h.state.word := rfl
  have hreason : Element.attr ⟨"status".toList, [("state".toList, h.state.word),
      ("reason".toList, h.reason)], []⟩ "reason".toList = some h.reason := rfl
  have haddr : Element.attr ⟨"address".toList, [("addr".toList, h.address.display),
      ("addrtype".toList, addrType h.address)], []⟩ "addr".toList = some h.address.display := rfl
  have hnames : ((h.hostname.toList.map hostnamesElement).flatMap
      fun x => x.named "hostname".toList).mapM (fun x => x.attr "name".toList) =
        some h.hostname.toList := by
    cases h.hostname with
    | none => rfl
    | some name => rfl
  have hkept : ∀ ports : List PortResult, ([(⟨"ports".toList, [], ports.map portElement⟩ :
      Element)].flatMap fun x => x.named "port".toList) = ports.map portElement := by
    intro ports
    rw [List.flatMap_singleton, Element.named]
    exact List.filter_eq_self.2 fun x hx => by
      obtain ⟨p, -, rfl⟩ := List.mem_map.1 hx
      rfl
  rw [readHost, hstatus, haddress, hhostnames, hports, hnames, hkept,
    mapM_map fun p _ => readPort_portElement p]
  simp only [Option.bind_eq_bind, Option.bind_some, List.head?_cons, hstate, hreason, haddr,
    readHostState_word, IpAddr.fromStr_display]
  cases hname : h.hostname with
  | none => simp [HostResult.facts, hname]
  | some name => simp [HostResult.facts, hname]

/-- **The document says what the report says.** -/
theorem readHosts_reportElement (fmt : Formats) (r : ScanReport) (onlyOpen : Bool) :
    readHosts (reportElement fmt r onlyOpen) =
      some (r.hosts.map fun h =>
        h.facts (h.ports.filter fun p => !onlyOpen || p.state = .open)) := by
  have hnamed : (reportElement fmt r onlyOpen).named "host".toList =
      r.hosts.map (hostElement onlyOpen) := by
    have hself : (r.hosts.map (hostElement onlyOpen)).filter
        (fun child => child.name = "host".toList) = r.hosts.map (hostElement onlyOpen) :=
      List.filter_eq_self.2 fun x hx => by
        obtain ⟨h, -, rfl⟩ := List.mem_map.1 hx
        rfl
    rw [Element.named, reportElement, List.filter_append, hself]
    simp [runstatsElement]
  have hroot : (reportElement fmt r onlyOpen).name = "rnmaprun".toList := rfl
  rw [readHosts, if_pos hroot, hnamed, mapM_map fun h _ => readHost_hostElement onlyOpen h]

/-- **The document counts the hosts of the report.** -/
theorem readRunstats_reportElement (fmt : Formats) (r : ScanReport) (onlyOpen : Bool) :
    readRunstats (reportElement fmt r onlyOpen) = some (r.upCount, r.hostCount) := by
  have hnamed : (reportElement fmt r onlyOpen).named "runstats".toList =
      [runstatsElement fmt r] := by
    have hnone : (r.hosts.map (hostElement onlyOpen)).filter
        (fun child => child.name = "runstats".toList) = [] := by
      rw [List.filter_eq_nil_iff]
      intro x hx
      obtain ⟨h, -, rfl⟩ := List.mem_map.1 hx
      exact Bool.false_ne_true
    rw [Element.named, reportElement, List.filter_append, hnone]
    rfl
  have hhosts : (runstatsElement fmt r).named "hosts".toList = [⟨"hosts".toList,
      [("up".toList, decimal r.upCount), ("total".toList, decimal r.hostCount)], []⟩] := rfl
  have hup : Element.attr ⟨"hosts".toList, [("up".toList, decimal r.upCount),
      ("total".toList, decimal r.hostCount)], []⟩ "up".toList = some (decimal r.upCount) := rfl
  have htotal : Element.attr ⟨"hosts".toList, [("up".toList, decimal r.upCount),
      ("total".toList, decimal r.hostCount)], []⟩ "total".toList = some (decimal r.hostCount) := rfl
  rw [readRunstats, hnamed]
  simp only [Option.bind_eq_bind, List.head?_cons, Option.bind_some, hhosts, hup, htotal,
    readCount_decimal]

/-- The texts a report shows are all it needs to consist of XML characters. -/
theorem reportClean_of_reportTexts {onlyOpen : Bool} {r : ScanReport}
    (h : ∀ s ∈ reportTexts onlyOpen r, XmlPlain s) : ReportClean onlyOpen r := by
  have hhost : ∀ x ∈ r.hosts, ∀ s ∈ hostTexts onlyOpen x, XmlClean s := by
    intro x hx s hs
    refine (h s ?_).1
    refine List.mem_cons_of_mem _ (List.mem_cons_of_mem _ (List.mem_append_right _ ?_))
    exact List.mem_flatMap.2 ⟨x, hx, hs⟩
  refine ⟨(h _ (by simp [reportTexts])).1, (h _ (by simp [reportTexts])).1,
    fun s hs => (h s (by simp [reportTexts, hs])).1, fun x hx => ⟨?_, ?_, fun p hp => ?_⟩⟩
  · exact hhost x hx _ List.mem_cons_self
  · intro s hs
    exact hhost x hx s (by simp [hostTexts, hs])
  · rw [keptPorts_eq] at hp
    have hport : ∀ s ∈ portTexts p, XmlClean s := fun s hs =>
      hhost x hx s (List.mem_cons_of_mem _ (List.mem_append_right _
        (List.mem_flatMap.2 ⟨p, hp, hs⟩)))
    refine ⟨hport _ List.mem_cons_self, fun svc hsvc => ⟨?_, ?_, ?_⟩⟩
    · exact hport _ (by simp [portTexts, serviceTexts, hsvc])
    · intro s hs
      exact hport s (by simp [portTexts, serviceTexts, hsvc, hs])
    · intro s hs
      exact hport s (by simp [portTexts, serviceTexts, hsvc, hs])

/-- The XML report is read back as what was shown. -/
theorem readHosts_renderXml (fmt : Formats) {r : ScanReport} {onlyOpen : Bool}
    (h : ∀ s ∈ reportTexts onlyOpen r, XmlPlain s) :
    (readReport (renderXml fmt r onlyOpen)).bind readHosts =
      some (r.hosts.map fun h =>
        h.facts (h.ports.filter fun p => !onlyOpen || p.state = .open)) := by
  obtain ⟨body, hbody, hwrites⟩ := writes_renderXml fmt r onlyOpen
  have hclean := (xmlClean_renderXml fmt r onlyOpen).2 (reportClean_of_reportTexts h)
  have hreadable := readable_reportElement fmt fun s hs => (h s hs).2
  rw [readReport, if_pos hclean, hbody, read_of_writes (fun _ => rfl) (by decide) hwrites hreadable,
    Option.bind_some, readHosts_reportElement]

/-- **The XML report decodes back to the report**: when the texts it shows are made of XML
characters other than tabs and line ends, its text is a declaration and a document of balanced
elements, from which a reader gets what the report says of every host and of every port kept, in
order. -/
theorem xml_round_trip (fmt : Formats) (r : ScanReport) (onlyOpen : Bool)
    (h : ∀ s ∈ reportTexts onlyOpen r, XmlPlain s) :
    (∃ body, renderXml fmt r onlyOpen = declaration ++ body ∧
      Writes body [reportElement fmt r onlyOpen]) ∧
    (readReport (renderXml fmt r onlyOpen)).bind readHosts =
      some (r.hosts.map fun h =>
        h.facts (h.ports.filter fun p => !onlyOpen || p.state = .open)) :=
  ⟨writes_renderXml fmt r onlyOpen, readHosts_renderXml fmt h⟩

/-- A report whose texts are full of reserved characters and of text that looks like entities. -/
def quotedReport : ScanReport where
  scanner := "rnmap".toList
  version := "0.1.0".toList
  args := ["rnmap".toList, "<&amp;>".toList]
  startedAt := ⟨-1, 0⟩
  endedAt := ⟨1, 0⟩
  elapsed := fromSecs 1
  hosts := [{
    address := .v6 ⟨[0x2001, 0xdb8, 0, 0, 0, 0, 0, 1], rfl⟩
    hostname := some "\"/><host>".toList
    state := .up
    reason := "&quot;".toList
    ports := [⟨80, .tcp, .open, "syn-ack".toList,
        some ⟨"http".toList, some "a'b\"c".toList, some "&lt;&".toList, none⟩, none⟩,
      ⟨81, .udp, .filtered, "</port>".toList, none, none⟩]
    startedAt := ⟨0, 0⟩
    endedAt := ⟨0, 0⟩
    elapsed := 0 }]

theorem xml_round_trip_quoted :
    (∃ body, renderXml epochFormats quotedReport false = declaration ++ body ∧
      Writes body [reportElement epochFormats quotedReport false]) ∧
    (readReport (renderXml epochFormats quotedReport false)).bind readHosts =
      some (quotedReport.hosts.map fun h =>
        h.facts (h.ports.filter fun p => !false || p.state = .open)) :=
  xml_round_trip epochFormats quotedReport false (by decide)

end Rnmap
